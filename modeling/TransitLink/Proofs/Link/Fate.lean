import Mathlib.Data.List.Basic
import TransitLink.Proofs.Link.Table

/-!
# What becomes of a request

* `Op`, `apply` : what can happen to a pending table, and what it does about it.
* `Pending.fate` : what becomes of one request by itself. The first operation that concerns it decides.
* `roster` : the requests that some operations begin, each with its fate.
* `Reaches` : what a table comes to by some operations, in whatever order it is looked through.
* `apply_spec` : what one operation does to a table. `advance` : what it does to a roster.
* `every_request_meets_its_fate` : a pending table is nothing but its requests, each by itself.
-/

namespace TransitLink

set_option autoImplicit false

/-! ## Operations -/

namespace PendingTable

inductive Op where
  | register (p : Pending)
  | resolve (r : Response)
  | fail (id : String) (why : Failure)
  | expire (now : Time)
  | failAll
  /-- A caller stops waiting. -/
  | leave (caller : Nat)

inductive Answer where
  | displaced (p : Option Pending)
  | delivery (d : Delivery)
  | found (b : Bool)
  | count (n : Nat)
  | nothing

namespace Op

def newcomers : Op → List Pending
  | register p => [p]
  | _ => []

/-- A request begins under an id that is not in use. -/
def Fresh (t : PendingTable) : Op → Prop
  | register p => p.id ∉ t.ids
  | _ => True

def leavers (ops : List Op) : List Nat :=
  ops.filterMap fun
    | leave caller => some caller
    | _ => none

end Op
end PendingTable

/-! ## One request by itself -/

namespace Pending

open PendingTable (Op)

/-- How an operation ends a request, if it concerns it. -/
def end? (p : Pending) : Op → Option Outcome
  | .resolve r => if p.id = r.requestId then some (.ok r) else none
  | .fail id why => if p.id = id then some (.error why) else none
  | .expire now => if p.deadline ≤ now then some (.error (.timeout p.action p.id)) else none
  | .failAll => some (.error .connectionClosed)
  | .register _ => none
  | .leave _ => none

/-- What becomes of a request: the first operation that concerns it ends it. -/
def fate (p : Pending) (ops : List Op) : Option Outcome := ops.findSome? p.end?

theorem fate_append (p : Pending) (ops more : List Op) : p.fate (ops ++ more) = (p.fate ops).or (p.fate more) :=
  List.findSome?_append

theorem fate_singleton (p : Pending) (op : Op) : p.fate [op] = p.end? op := by
  rw [fate, List.findSome?_singleton]

theorem fate_resolves (p : Pending) (rs : List Response) :
    p.fate (rs.map .resolve) = (rs.find? fun r => p.id = r.requestId).map .ok := by
  induction rs with
  | nil => rfl
  | cons r rs ih =>
    rw [fate, List.map_cons, List.findSome?_cons, List.find?_cons, end?]
    by_cases hid : p.id = r.requestId
    · rw [if_pos hid, decide_eq_true hid]
      rfl
    · rw [if_neg hid, decide_eq_false hid]
      exact ih

end Pending

namespace PendingTable

def ends (f : Pending → Option Outcome) (ps : List Pending) : List Settled :=
  ps.filterMap fun p => (f p).map (Settled.mk p.caller)

def concerned (op : Op) (ps : List Pending) : List Pending := ps.filter fun p => (p.end? op).isSome

/-- What an operation answers when it ends some requests. -/
def answer (gone : List Nat) (op : Op) (ps : List Pending) : Answer :=
  match op with
  | .register _ => .displaced none
  | .resolve _ =>
    match ps with
    | [] => .delivery .unknown
    | p :: _ => .delivery (if p.caller ∈ gone then .callerGone p.action else .delivered p.action)
  | .fail _ _ => .found (!ps.isEmpty)
  | .expire _ => .count ps.length
  | .failAll => .count ps.length
  | .leave _ => .nothing

/-! ## Rosters -/

/-- The requests that some operations begin, each with what becomes of it. -/
def roster : List Op → List (Pending × Option Outcome)
  | [] => []
  | op :: ops => (op.newcomers.map fun p => (p, p.fate ops)) ++ roster ops

def waiting (xs : List (Pending × Option Outcome)) : List Pending :=
  (xs.filter fun x => x.2.isNone).map Prod.fst

def finished (xs : List (Pending × Option Outcome)) : List Settled :=
  xs.filterMap fun x => x.2.map (Settled.mk x.1.caller)

/-- A roster after those of its requests that have not ended meet what may end them. -/
def advance (f : Pending → Option Outcome) (xs : List (Pending × Option Outcome)) : List (Pending × Option Outcome) :=
  xs.map fun x => (x.1, x.2.or (f x.1))

theorem roster_append (ops more : List Op) :
    roster (ops ++ more) = advance (fun p => p.fate more) (roster ops) ++ roster more := by
  induction ops with
  | nil => rfl
  | cons op ops ih =>
    have hhead : (op.newcomers.map fun p => (p, p.fate (ops ++ more))) =
        advance (fun p => p.fate more) (op.newcomers.map fun p => (p, p.fate ops)) := by
      rw [advance, List.map_map]
      exact List.map_congr_left fun p _ => by rw [Function.comp, Pending.fate_append]
    rw [List.cons_append, roster, roster, ih, hhead, advance, advance, advance, List.map_append, List.append_assoc]

theorem roster_snoc (ops : List Op) (op : Op) :
    roster (ops ++ [op]) = advance (fun p => p.end? op) (roster ops) ++ op.newcomers.map fun p => (p, none) := by
  rw [roster_append, roster, roster, List.append_nil]
  simp only [Pending.fate_singleton]
  rfl

theorem roster_resolves (rs : List Response) : roster (rs.map .resolve) = [] := by
  induction rs with
  | nil => rfl
  | cons r rs ih => rw [List.map_cons, roster, ih]; rfl

theorem mem_roster {ops : List Op} {x : Pending × Option Outcome} (h : x ∈ roster ops) : .register x.1 ∈ ops := by
  induction ops with
  | nil => cases h
  | cons op ops ih =>
    rcases List.mem_append.mp h with hnew | hrest
    · obtain ⟨p, hp, rfl⟩ := List.mem_map.mp hnew
      cases op with
      | register q =>
        cases List.mem_singleton.mp hp
        exact List.mem_cons_self
      | _ => cases hp
    · exact List.mem_cons_of_mem op (ih hrest)

theorem mem_waiting_roster {ops : List Op} {p : Pending} (h : p ∈ waiting (roster ops)) : .register p ∈ ops := by
  obtain ⟨x, hx, rfl⟩ := List.mem_map.mp h
  exact mem_roster (List.mem_of_mem_filter hx)

theorem waiting_append (xs ys : List (Pending × Option Outcome)) : waiting (xs ++ ys) = waiting xs ++ waiting ys := by
  rw [waiting, List.filter_append, List.map_append, waiting, waiting]

theorem finished_append (xs ys : List (Pending × Option Outcome)) :
    finished (xs ++ ys) = finished xs ++ finished ys :=
  List.filterMap_append

theorem waiting_newcomers (ps : List Pending) : waiting (ps.map fun p => (p, none)) = ps := by
  induction ps with
  | nil => rfl
  | cons p ps ih => exact congrArg (p :: ·) ih

theorem finished_newcomers (ps : List Pending) : finished (ps.map fun p => (p, none)) = [] := by
  induction ps with
  | nil => rfl
  | cons p ps ih => exact ih

theorem waiting_advance (f : Pending → Option Outcome) (xs : List (Pending × Option Outcome)) :
    waiting (advance f xs) = (waiting xs).filter fun p => (f p).isNone := by
  induction xs with
  | nil => rfl
  | cons x xs ih =>
    obtain ⟨p, o⟩ := x
    cases o with
    | some o => exact ih
    | none =>
      have hleft : waiting (advance f ((p, none) :: xs)) =
          (if (f p).isNone then [p] else []) ++ waiting (advance f xs) := by
        cases hf : f p with
        | none => simp [waiting, advance, hf]
        | some o => simp [waiting, advance, hf]
      have hright : waiting ((p, none) :: xs) = p :: waiting xs := rfl
      rw [hleft, hright, ih, List.filter_cons]
      cases (f p).isNone <;> rfl

theorem finished_advance (f : Pending → Option Outcome) (xs : List (Pending × Option Outcome)) :
    (finished (advance f xs)).Perm (finished xs ++ ends f (waiting xs)) := by
  induction xs with
  | nil => exact .refl _
  | cons x xs ih =>
    obtain ⟨p, o⟩ := x
    cases o with
    | some o => exact ih.cons _
    | none =>
      have hleft : finished (advance f ((p, none) :: xs)) =
          ((f p).map (Settled.mk p.caller)).toList ++ finished (advance f xs) := by
        cases hf : f p with
        | none => simp [finished, advance, hf]
        | some o => simp [finished, advance, hf]
      have hright : ends f (waiting ((p, none) :: xs)) =
          ((f p).map (Settled.mk p.caller)).toList ++ ends f (waiting xs) := by
        cases hf : f p with
        | none => simp [ends, waiting, hf]
        | some o => simp [ends, waiting, hf]
      have hrest : finished ((p, none) :: xs) = finished xs := rfl
      -- a request that meets its end moves to those that have ended before it
      rw [hleft, hright, hrest]
      refine (ih.append_left _).trans ?_
      rw [← List.append_assoc, ← List.append_assoc]
      exact List.perm_append_comm.append_right _

/-! ## Tables -/

/-- What a table does about an operation: the new table, the requests that end, and the answer. -/
def apply (gone : List Nat) (t : PendingTable) : Op → PendingTable × List Settled × Answer
  | .register p => ((t.register p).1, [], .displaced (t.register p).2)
  | .resolve r =>
    let (t, settled, delivery) := t.resolve (fun caller => !gone.contains caller) r
    (t, settled, .delivery delivery)
  | .fail id why =>
    let (t, settled, found) := t.fail id why
    (t, settled, .found found)
  | .expire now =>
    let (t, settled, count) := t.expire now
    (t, settled, .count count)
  | .failAll =>
    let (t, settled, count) := t.failAll
    (t, settled, .count count)
  | .leave _ => (t, [], .nothing)

/-- The requests that an operation concerns are those that it ends. -/
theorem ends_of_concerned {op : Op} {t ps : List Pending} {o : Pending → Outcome} (hc : concerned op t = ps)
    (ho : ∀ p ∈ ps, p.end? op = some (o p)) : ends (fun p => p.end? op) t = ps.map fun p => ⟨p.caller, o p⟩ := by
  have hends : ends (fun p => p.end? op) t = ends (fun p => p.end? op) (concerned op t) := by
    rw [ends, ends, concerned, List.filterMap_filter]
    apply List.filterMap_congr
    intro p _
    cases p.end? op <;> rfl
  rw [hends, hc, ends, ← List.filterMap_eq_map]
  apply List.filterMap_congr
  intro p hp
  rw [ho p hp]
  rfl

theorem parts_of_iff {op : Op} {c : Pending → Prop} [DecidablePred c]
    (h : ∀ p : Pending, (p.end? op).isSome ↔ c p) (t : PendingTable) :
    (t.filter fun p => (p.end? op).isNone) = t.filter (fun p => ¬c p) ∧ concerned op t = t.filter fun p => c p := by
  constructor
  · apply List.filter_congr
    intro p _
    rw [Bool.eq_iff_iff, decide_eq_true_iff, ← h, Option.isNone_iff_eq_none, Option.not_isSome_iff_eq_none]
  · apply List.filter_congr
    intro p _
    rw [Bool.eq_iff_iff, decide_eq_true_iff, h]

/-- An operation under an id concerns at most the request under that id. -/
theorem concerned_id {t : PendingTable} (ht : t.ids.Nodup) (op : Op) {id : String} {o : Outcome}
    (h : ∀ p : Pending, p.end? op = if p.id = id then some o else none) :
    (t.filter fun p => (p.end? op).isNone) = t.without id ∧ concerned op t = (t.get? id).toList ∧
      ends (fun p => p.end? op) t = (t.get? id).toList.map fun p => ⟨p.caller, o⟩ := by
  have hsome : ∀ p : Pending, (p.end? op).isSome ↔ p.id = id := by
    intro p
    rw [h, Option.isSome_ite]
  obtain ⟨hleft, hconcerned⟩ := parts_of_iff hsome t
  rw [filter_id ht] at hconcerned
  refine ⟨hleft, hconcerned, ends_of_concerned hconcerned ?_⟩
  intro p hp
  rw [h, if_pos (mem_of_get? (Option.mem_toList.mp hp)).2]

/-- **What one operation does to a table.** It takes out the requests that it concerns and tells their callers. -/
theorem apply_spec {t : PendingTable} (ht : t.ids.Nodup) (gone : List Nat) {op : Op} (hop : op.Fresh t) :
    t.apply gone op = ((t.filter fun p => (p.end? op).isNone) ++ op.newcomers, ends (fun p => p.end? op) t,
      answer gone op (concerned op t)) := by
  cases op with
  | register p =>
    rw [apply, register_of_fresh hop]
    simp [Pending.end?, ends, answer, Op.newcomers]
  | resolve r =>
    obtain ⟨hleft, hconcerned, hends⟩ := concerned_id ht (.resolve r) fun _ => rfl
    have hnew : (Op.resolve r).newcomers = [] := rfl
    rw [hleft, hconcerned, hends, hnew, List.append_nil, apply, resolve]
    cases hg : t.get? r.requestId with
    | none =>
      rw [without_eq_self (get?_eq_none_iff.mp hg)]
      rfl
    | some p =>
      by_cases hgone : p.caller ∈ gone <;> simp [answer, hgone]
  | fail id why =>
    obtain ⟨hleft, hconcerned, hends⟩ := concerned_id ht (.fail id why) fun _ => rfl
    have hnew : (Op.fail id why).newcomers = [] := rfl
    rw [hleft, hconcerned, hends, hnew, List.append_nil, apply, fail]
    cases hg : t.get? id with
    | none =>
      rw [without_eq_self (get?_eq_none_iff.mp hg)]
      rfl
    | some p => rfl
  | expire now =>
    have hsome : ∀ p : Pending, (p.end? (.expire now)).isSome ↔ p.deadline ≤ now := fun p => Option.isSome_ite
    obtain ⟨hleft, hconcerned⟩ := parts_of_iff hsome t
    have hends := ends_of_concerned (o := fun p => .error (.timeout p.action p.id)) hconcerned fun p hp =>
      if_pos (of_decide_eq_true (List.mem_filter.mp hp).2)
    have hnew : (Op.expire now).newcomers = [] := rfl
    rw [hleft, hends, hconcerned, hnew, List.append_nil]
    rfl
  | failAll =>
    have hconcerned : concerned .failAll t = t := List.filter_eq_self.mpr fun p _ => rfl
    have hends := ends_of_concerned (o := fun _ => .error .connectionClosed) hconcerned fun p _ => rfl
    have hleft : (t.filter fun p => (p.end? .failAll).isNone) = [] :=
      List.filter_eq_nil_iff.mpr fun p _ => Bool.false_ne_true
    rw [hleft, hends, hconcerned]
    rfl
  | leave caller => simp [Pending.end?, ends, answer, Op.newcomers, apply]

theorem apply_distinct {t : PendingTable} (ht : t.ids.Nodup) (gone : List Nat) {op : Op} (hop : op.Fresh t) :
    (t.apply gone op).1.ids.Nodup := by
  rw [apply_spec ht gone hop]
  have hleft : PendingTable.ids (t.filter fun p => (p.end? op).isNone) |>.Nodup :=
    nodup_ids_of_sublist List.filter_sublist ht
  cases op with
  | register p =>
    apply nodup_ids_append hleft
    intro hp
    obtain ⟨q, hq, hid⟩ := mem_ids.mp hp
    exact hop (mem_ids.mpr ⟨q, List.mem_of_mem_filter hq, hid⟩)
  | _ =>
    rw [Op.newcomers, List.append_nil]
    · exact hleft
    · intro p hp
      cases hp

/-- The order of a table does not show in what it answers. -/
theorem answer_of_perm {t u : PendingTable} (ht : t.ids.Nodup) (h : t.Perm u) (gone : List Nat) (op : Op) :
    answer gone op (concerned op t) = answer gone op (concerned op u) := by
  have hperm : (concerned op t).Perm (concerned op u) := h.filter _
  cases op with
  | resolve r =>
    have hone : concerned (.resolve r) t = (t.get? r.requestId).toList := (concerned_id ht (.resolve r) fun _ => rfl).2.1
    rw [hone] at hperm ⊢
    cases hg : t.get? r.requestId with
    | none =>
      rw [hg, Option.toList_none] at hperm
      rw [← hperm.nil_eq, Option.toList_none]
    | some p =>
      rw [hg, Option.toList_some] at hperm
      rw [← List.singleton_perm.mp hperm, Option.toList_some]
  | fail id why => rw [answer, answer, hperm.isEmpty_eq]
  | expire now => rw [answer, answer, hperm.length_eq]
  | failAll => rw [answer, answer, hperm.length_eq]
  | register p => rfl
  | leave caller => rfl

/-! ## Histories -/

/-- What a table comes to by some operations, and the requests that have ended. Before each operation the table may have
been put into another order, and no request begins under an id that is in use. -/
inductive Reaches : List Op → PendingTable → List Settled → Prop where
  | nil : Reaches [] [] []
  | snoc {ops : List Op} {t u : PendingTable} {done : List Settled} (op : Op) : Reaches ops t done → t.Perm u →
      op.Fresh u → Reaches (ops ++ [op]) (u.apply (Op.leavers ops) op).1 (done ++ (u.apply (Op.leavers ops) op).2.1)

theorem Reaches.distinct {ops : List Op} {t : PendingTable} {done : List Settled} (h : Reaches ops t done) :
    t.ids.Nodup := by
  induction h with
  | nil => exact List.nodup_nil
  | snoc op _ hu hop ih => exact apply_distinct ((hu.map _).nodup_iff.mp ih) _ hop

/-- **A table holds the requests without a fate, and the others have met theirs.** -/
theorem Reaches.fates {ops : List Op} {t : PendingTable} {done : List Settled} (h : Reaches ops t done) :
    t.Perm (waiting (roster ops)) ∧ done.Perm (finished (roster ops)) := by
  induction h with
  | nil => exact ⟨.refl _, .refl _⟩
  | @snoc ops t u done op h hu hop ih =>
    obtain ⟨hwaiting, hfinished⟩ := ih
    have hnd : u.ids.Nodup := (hu.map _).nodup_iff.mp h.distinct
    have hperm : u.Perm (waiting (roster ops)) := hu.symm.trans hwaiting
    rw [apply_spec hnd _ hop, roster_snoc, waiting_append, finished_append, waiting_newcomers, finished_newcomers,
      List.append_nil, waiting_advance]
    constructor
    · exact (hperm.filter _).append_right _
    · exact (hfinished.append (hperm.filterMap _)).trans (finished_advance _ _).symm

/-- What some responses do to a table, in whatever order they come. -/
theorem Reaches.resolves {ops : List Op} {t u : PendingTable} {done done' : List Settled} {rs : List Response}
    (h : Reaches ops t done) (h' : Reaches (ops ++ rs.map .resolve) u done') (hrs : (rs.map (·.requestId)).Perm t.ids) :
    u = [] ∧ done'.Perm (done ++ t.filterMap fun p =>
      (rs.find? fun r => p.id = r.requestId).map fun r => ⟨p.caller, .ok r⟩) := by
  obtain ⟨hwaiting, hfinished⟩ := h.fates
  obtain ⟨hwaiting', hfinished'⟩ := h'.fates
  rw [roster_append, roster_resolves, List.append_nil] at hwaiting' hfinished'
  rw [waiting_advance] at hwaiting'
  constructor
  · have hall : (waiting (roster ops)).filter (fun p => (p.fate (rs.map .resolve)).isNone) = [] := by
      rw [List.filter_eq_nil_iff]
      intro p hp
      have hid : p.id ∈ rs.map (·.requestId) := hrs.mem_iff.mpr (mem_ids.mpr ⟨p, hwaiting.mem_iff.mpr hp, rfl⟩)
      obtain ⟨r, hr, hrid⟩ := List.mem_map.mp hid
      rw [Pending.fate_resolves, Option.isNone_map, Option.isNone_iff_eq_none, List.find?_eq_none]
      exact fun hnone => hnone r hr (decide_eq_true hrid.symm)
    rw [hall] at hwaiting'
    exact hwaiting'.eq_nil
  · have hends : ends (fun p => p.fate (rs.map .resolve)) t = t.filterMap fun p =>
        (rs.find? fun r => p.id = r.requestId).map fun r => ⟨p.caller, .ok r⟩ := by
      apply List.filterMap_congr
      intro p _
      simp only [Pending.fate_resolves, Option.map_map]
      rfl
    rw [← hends]
    refine hfinished'.trans ((finished_advance _ _).trans ?_)
    exact hfinished.symm.append (hwaiting.symm.filterMap _)

/-- A response to a request that has waited long enough comes too late, whatever has happened since, unless a request has
begun under its id again. -/
theorem Reaches.late {ops more : List Op} {t u v : PendingTable} {done done' : List Settled} {now : Time} {p : Pending}
    {r : Response} (h : Reaches ops t done) (h' : Reaches (ops ++ .expire now :: more) u done') (hp : p ∈ t)
    (hdue : p.deadline ≤ now) (hnew : ∀ q, .register q ∈ more → q.id ≠ p.id) (hr : r.requestId = p.id) (hv : u.Perm v)
    (waits : Nat → Bool) : v.resolve waits r = (v, [], .unknown) := by
  have hgone : v.get? r.requestId = none := by
    rw [get?_eq_none_iff]
    intro hid
    obtain ⟨q, hq, hqid⟩ := mem_ids.mp hid
    have hwaiting := (hv.symm.trans h'.fates.1).mem_iff.mp hq
    rw [roster_append, waiting_append, waiting_advance] at hwaiting
    rcases List.mem_append.mp hwaiting with hold | hlater
    -- only the expired request was under this id, and it does not wait any longer
    · obtain ⟨hmem, hfate⟩ := List.mem_filter.mp hold
      have hsame : q = p := eq_of_id_eq h.distinct (h.fates.1.mem_iff.mpr hmem) hp (hqid.trans hr)
      rw [hsame, Pending.fate, List.findSome?_cons, Pending.end?, if_pos hdue] at hfate
      cases hfate
    · exact hnew q (mem_waiting_roster hlater) (hqid.trans hr)
  rw [resolve, hgone]

/-- **Every request meets its fate.** Whatever happens to a table, and in whatever order it is looked through: it holds
the requests without a fate, and every other request has ended once, as its fate says. The next operation ends the
requests that it concerns, and answers as they tell. So responses in any order reach their callers, and a response that
comes too late changes nothing. -/
theorem every_request_meets_its_fate {ops : List Op} {t : PendingTable} {done : List Settled} (h : Reaches ops t done) :
    t.Perm (waiting (roster ops)) ∧ done.Perm (finished (roster ops)) ∧
    t.length = (waiting (roster ops)).length ∧ t.isEmpty = (waiting (roster ops)).isEmpty ∧
    (∀ more, roster (ops ++ more) = advance (fun p => p.fate more) (roster ops) ++ roster more) ∧
    (∀ (u : PendingTable) op, t.Perm u → op.Fresh u →
      (u.apply (Op.leavers ops) op).2.1.Perm (ends (fun p => p.end? op) (waiting (roster ops))) ∧
      (u.apply (Op.leavers ops) op).2.2 = answer (Op.leavers ops) op (concerned op (waiting (roster ops)))) ∧
    (∀ (rs : List Response) u done', Reaches (ops ++ rs.map .resolve) u done' → (rs.map (·.requestId)).Perm t.ids →
      u = [] ∧ done'.Perm (done ++ t.filterMap fun p =>
        (rs.find? fun r => p.id = r.requestId).map fun r => ⟨p.caller, .ok r⟩)) ∧
    (∀ more (u v : PendingTable) done' now p r, Reaches (ops ++ .expire now :: more) u done' → p ∈ t →
      p.deadline ≤ now → (∀ q, .register q ∈ more → q.id ≠ p.id) → r.requestId = p.id → u.Perm v →
      v.apply (Op.leavers (ops ++ .expire now :: more)) (.resolve r) = (v, [], .delivery .unknown)) := by
  obtain ⟨hwaiting, hfinished⟩ := h.fates
  refine ⟨hwaiting, hfinished, hwaiting.length_eq, hwaiting.isEmpty_eq, roster_append ops, ?_,
    fun rs u done' h' => h.resolves h', ?_⟩
  · intro u op hu hop
    have hnd : u.ids.Nodup := (hu.map _).nodup_iff.mp h.distinct
    have hperm : u.Perm (waiting (roster ops)) := hu.symm.trans hwaiting
    rw [apply_spec hnd _ hop]
    exact ⟨hperm.filterMap _, answer_of_perm hnd hperm _ op⟩
  · intro more u v done' now p r h' hp hdue hnew hr hv
    rw [apply, h.late h' hp hdue hnew hr hv]

/-- Two requests begin, the table is put into another order, and the second request is answered first. -/
theorem second_request_answered_first :
    Reaches [.register ⟨"a", "open", 5, 1⟩, .register ⟨"b", "shut", 9, 2⟩, .resolve ⟨"b", none, none, none, []⟩]
      [⟨"a", "open", 5, 1⟩] [⟨2, .ok ⟨"b", none, none, none, []⟩⟩] ∧
    List.Perm [⟨"a", "open", 5, 1⟩] (waiting (roster
      [.register ⟨"a", "open", 5, 1⟩, .register ⟨"b", "shut", 9, 2⟩, .resolve ⟨"b", none, none, none, []⟩])) := by
  have h₁ : Reaches [.register ⟨"a", "open", 5, 1⟩] [⟨"a", "open", 5, 1⟩] [] :=
    Reaches.nil.snoc (.register ⟨"a", "open", 5, 1⟩) (.refl _) List.not_mem_nil
  have h₂ : Reaches [.register ⟨"a", "open", 5, 1⟩, .register ⟨"b", "shut", 9, 2⟩]
      [⟨"a", "open", 5, 1⟩, ⟨"b", "shut", 9, 2⟩] [] :=
    h₁.snoc (.register ⟨"b", "shut", 9, 2⟩) (.refl _) (by unfold Op.Fresh; decide)
  have h₃ := h₂.snoc (.resolve ⟨"b", none, none, none, []⟩) (List.Perm.swap _ _ _) trivial
  exact ⟨h₃, (every_request_meets_its_fate h₃).1⟩

end PendingTable
end TransitLink
