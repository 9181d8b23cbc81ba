import Mathlib.Data.List.Basic
import TransitLink.Link.Connection
import TransitLink.Proofs.Link.News
import TransitLink.Proofs.Link.Table

/-!
# Deadlines and the requests that are due

* `expire_eq` : the requests that are due end, and the others stay as they are.
* `timeOutEach` : the same one by one, each request looked up when its turn comes. `timeOutEach_due` : in whatever order
  this is done, it comes to the same.
* `due_eq_nil_iff`, `nextDeadline?_expire_eq_some_iff` : the next deadline tells whether a request is due, and after that
  which is the next.
* `expire_expire` : looking at the clock early makes no difference later.
* `Connection.due?_onRequestDue` : the timer of requests does not fire twice at one time.
* `expiry_keeps_to_deadlines` : all this for every table and every time.
-/

namespace TransitLink

set_option autoImplicit false

namespace PendingTable

/-! ## Requests that are due -/

theorem mem_due {t : PendingTable} {now : Time} {p : Pending} : p ∈ t.due now ↔ p ∈ t ∧ p.deadline ≤ now := by
  rw [due, List.mem_filter, decide_eq_true_eq]

theorem expire_fst (t : PendingTable) (now : Time) : (t.expire now).1 = t.filter fun p => now < p.deadline := by
  apply List.filter_congr
  intro p _
  rw [Bool.eq_iff_iff, decide_eq_true_eq, decide_eq_true_eq, Nat.not_le]

theorem mem_expire {t : PendingTable} {now : Time} {p : Pending} :
    p ∈ (t.expire now).1 ↔ p ∈ t ∧ now < p.deadline := by
  rw [expire_fst, List.mem_filter, decide_eq_true_eq]

/-- The requests that are due end, and the others stay as they are. -/
theorem expire_eq (t : PendingTable) (now : Time) :
    t.expire now = (t.filter fun p => now < p.deadline, (t.due now).map timedOut, (t.due now).length) :=
  Prod.ext (expire_fst t now) rfl

theorem due_eq_nil_iff {t : PendingTable} {now : Time} :
    t.due now = [] ↔ t.nextDeadline? = none ∨ ∃ d, t.nextDeadline? = some d ∧ now < d := by
  rw [List.eq_nil_iff_forall_not_mem]
  constructor
  · intro hnone
    cases hd : t.nextDeadline? with
    | none => exact .inl rfl
    | some d =>
      obtain ⟨⟨p, hp, rfl⟩, -⟩ := nextDeadline?_eq_some_iff.mp hd
      exact .inr ⟨p.deadline, rfl, Nat.lt_of_not_le fun hdue => hnone p (mem_due.mpr ⟨hp, hdue⟩)⟩
  · intro hnext p hp
    obtain ⟨hmem, hdue⟩ := mem_due.mp hp
    obtain ⟨d, hd, hle⟩ := nextDeadline?_le hmem
    rcases hnext with hnext | ⟨d', hd', hlate⟩
    · rw [hnext] at hd
      cases hd
    · rw [hd'] at hd
      cases hd
      exact Nat.not_le_of_lt hlate (Nat.le_trans hle hdue)

theorem nextDeadline?_eq_none_iff {t : PendingTable} : t.nextDeadline? = none ↔ t = [] := by
  rw [nextDeadline?, List.min?_eq_none_iff, List.map_eq_nil_iff]

/-- The next deadline after some requests have ended is the earliest of the others. -/
theorem nextDeadline?_expire_eq_some_iff {t : PendingTable} {now d : Time} :
    (t.expire now).1.nextDeadline? = some d ↔
      now < d ∧ (∃ p ∈ t, p.deadline = d) ∧ ∀ p ∈ t, now < p.deadline → d ≤ p.deadline := by
  rw [nextDeadline?_eq_some_iff]
  constructor
  · rintro ⟨⟨p, hp, rfl⟩, hleast⟩
    obtain ⟨hmem, hlate⟩ := mem_expire.mp hp
    exact ⟨hlate, ⟨p, hmem, rfl⟩, fun q hq hq' => hleast q (mem_expire.mpr ⟨hq, hq'⟩)⟩
  · rintro ⟨hlate, ⟨p, hp, rfl⟩, hleast⟩
    refine ⟨⟨p, mem_expire.mpr ⟨hp, hlate⟩, rfl⟩, ?_⟩
    intro q hq
    obtain ⟨hmem, hq'⟩ := mem_expire.mp hq
    exact hleast q hmem hq'

theorem nextDeadline?_expire_eq_none_iff {t : PendingTable} {now : Time} :
    (t.expire now).1.nextDeadline? = none ↔ ∀ p ∈ t, p.deadline ≤ now := by
  rw [nextDeadline?_eq_none_iff, List.eq_nil_iff_forall_not_mem]
  simp only [mem_expire, not_and, Nat.not_lt]

theorem due_expire_of_le {t : PendingTable} {earlier now : Time} (h : now ≤ earlier) :
    (t.expire earlier).1.due now = [] := by
  rw [List.eq_nil_iff_forall_not_mem]
  intro p hp
  obtain ⟨hmem, hdue⟩ := mem_due.mp hp
  have hlate := (mem_expire.mp hmem).2
  exact Nat.not_le_of_lt hlate (Nat.le_trans hdue h)

theorem expire_snd_eq_zero_iff {t : PendingTable} {now : Time} :
    (t.expire now).2.2 = 0 ↔ t.nextDeadline? = none ∨ ∃ d, t.nextDeadline? = some d ∧ now < d := by
  rw [← due_eq_nil_iff, ← List.length_eq_zero_iff]
  rfl

/-- As soon as the next deadline has come at least one request ends. -/
theorem expire_snd_pos {t : PendingTable} {now d : Time} (hd : t.nextDeadline? = some d) (h : d ≤ now) :
    0 < (t.expire now).2.2 := by
  apply Nat.pos_of_ne_zero
  rw [Ne, expire_snd_eq_zero_iff]
  rintro (hnone | ⟨d', hd', hlate⟩)
  · rw [hnone] at hd
    cases hd
  · rw [hd'] at hd
    cases hd
    exact Nat.not_le_of_lt hlate h

/-! ## Twice -/

/-- **Looking at the clock early makes no difference later.** -/
theorem expire_expire (t : PendingTable) {earlier now : Time} (h : earlier ≤ now) :
    ((t.expire earlier).1.expire now).1 = (t.expire now).1 ∧
      (t.due earlier ++ (t.expire earlier).1.due now).Perm (t.due now) := by
  constructor
  · rw [expire_fst, expire_fst, expire_fst, List.filter_filter]
    apply List.filter_congr
    intro p _
    rw [Bool.eq_iff_iff, Bool.and_eq_true, decide_eq_true_eq, decide_eq_true_eq]
    exact ⟨And.left, fun hlate => ⟨hlate, Nat.lt_of_le_of_lt h hlate⟩⟩
  · -- those that are due now were due then or were still waiting
    have hsplit := (perm_due_append t earlier).filter fun p => decide (p.deadline ≤ now)
    have hearly : (t.due earlier).filter (fun p => decide (p.deadline ≤ now)) = t.due earlier := by
      rw [List.filter_eq_self]
      intro p hp
      exact decide_eq_true (Nat.le_trans (mem_due.mp hp).2 h)
    rw [List.filter_append, hearly] at hsplit
    exact hsplit

/-- A second look at the same time ends nothing. -/
theorem expire_again (t : PendingTable) (now : Time) :
    (t.expire now).1.expire now = ((t.expire now).1, [], 0) := by
  have hnone : (t.expire now).1.due now = [] := due_expire_of_le (Nat.le_refl now)
  refine Prod.ext (expire_expire t (Nat.le_refl now)).1 (Prod.ext ?_ ?_)
  · rw [expire_eq, hnone]
    rfl
  · rw [expire_eq, hnone]
    rfl

/-! ## One by one -/

/-- Ends the requests under some ids because no response came, one after the other. -/
def timeOutEach (t : PendingTable) : List String → PendingTable × List Settled
  | [] => (t, [])
  | id :: ids =>
    match t.get? id with
    | none => timeOutEach t ids
    | some p => ((timeOutEach (t.without id) ids).1, timedOut p :: (timeOutEach (t.without id) ids).2)

theorem get?_without {t : PendingTable} {id other : String} (h : other ≠ id) :
    (t.without id).get? other = t.get? other := by
  rw [get?, get?, without, List.find?_filter]
  congr 1
  funext p
  by_cases hp : p.id = other
  · simp [hp, h]
  · simp [hp]

theorem timeOutEach_fst (t : PendingTable) (ids : List String) :
    (t.timeOutEach ids).1 = t.filter fun p => p.id ∉ ids := by
  induction ids generalizing t with
  | nil => simp [timeOutEach]
  | cons id ids ih =>
    cases hg : t.get? id with
    | none =>
      have hall : ∀ p ∈ t, p.id ≠ id := fun p hp hid => get?_eq_none_iff.mp hg (mem_ids.mpr ⟨p, hp, hid⟩)
      simp only [timeOutEach, hg, ih]
      apply List.filter_congr
      intro p hp
      simp [hall p hp]
    | some p =>
      simp only [timeOutEach, hg, ih, without, List.filter_filter]
      apply List.filter_congr
      intro q _
      simp [Bool.and_comm]

theorem timeOutEach_snd (t : PendingTable) {ids : List String} (h : ids.Nodup) :
    (t.timeOutEach ids).2 = ids.filterMap fun id => (t.get? id).map timedOut := by
  induction ids generalizing t with
  | nil => rfl
  | cons id ids ih =>
    obtain ⟨hid, hids⟩ := List.nodup_cons.mp h
    cases hg : t.get? id with
    | none =>
      simp only [timeOutEach, hg, ih t hids]
      rw [List.filterMap_cons_none (by rw [hg]; rfl)]
    | some p =>
      simp only [timeOutEach, hg, ih _ hids]
      rw [List.filterMap_cons_some (by rw [hg]; rfl)]
      congr 1
      apply List.filterMap_congr
      intro other hother
      rw [get?_without (ne_of_mem_of_not_mem hother hid)]

/-- **One by one.** In whatever order the requests that are due are looked up and ended, it comes to the same. -/
theorem timeOutEach_due {t : PendingTable} (ht : t.ids.Nodup) {now : Time} {ids : List String}
    (h : ids.Perm (PendingTable.ids (t.due now))) :
    (t.timeOutEach ids).1 = (t.expire now).1 ∧ (t.timeOutEach ids).2.Perm (t.expire now).2.1 ∧
      ids.length = (t.expire now).2.2 := by
  have hdue : (PendingTable.ids (t.due now)).Nodup := nodup_ids_of_sublist List.filter_sublist ht
  refine ⟨?_, ?_, ?_⟩
  · rw [timeOutEach_fst, expire_fst]
    apply List.filter_congr
    intro p hp
    have hmem : p.id ∈ ids ↔ p.deadline ≤ now := by
      rw [h.mem_iff, mem_ids]
      constructor
      · rintro ⟨q, hq, hid⟩
        obtain ⟨hq', hlate⟩ := mem_due.mp hq
        rw [eq_of_id_eq ht hp hq' hid.symm]
        exact hlate
      · exact fun hlate => ⟨p, mem_due.mpr ⟨hp, hlate⟩, rfl⟩
    rw [Bool.eq_iff_iff, decide_eq_true_eq, decide_eq_true_eq, hmem, Nat.not_le]
  · rw [timeOutEach_snd t (h.nodup_iff.mpr hdue)]
    refine (h.filterMap _).trans (.of_eq ?_)
    have hended : (t.expire now).2.1 = (t.due now).filterMap fun p => some (timedOut p) := by
      rw [List.filterMap_eq_map']
      rfl
    rw [PendingTable.ids, List.filterMap_map, hended]
    apply List.filterMap_congr
    intro p hp
    rw [Function.comp, get?_eq_some ht (mem_due.mp hp).1]
    rfl
  · rw [h.length_eq, PendingTable.ids, List.length_map]
    rfl

/-! ## The order of the table -/

theorem nextDeadline?_of_perm {t u : PendingTable} (h : t.Perm u) : t.nextDeadline? = u.nextDeadline? := by
  cases hu : u.nextDeadline? with
  | none =>
    rw [nextDeadline?_eq_none_iff] at hu ⊢
    rw [hu] at h
    exact h.eq_nil
  | some d =>
    obtain ⟨⟨p, hp, hd⟩, hleast⟩ := nextDeadline?_eq_some_iff.mp hu
    exact nextDeadline?_eq_some_iff.mpr ⟨⟨p, h.mem_iff.mpr hp, hd⟩, fun q hq => hleast q (h.mem_iff.mp hq)⟩

theorem due_of_perm {t u : PendingTable} (h : t.Perm u) (now : Time) : (t.due now).Perm (u.due now) := h.filter _

end PendingTable

/-! ## The timer of requests -/

namespace Connection

theorem settlements_onRequestDue (c : Connection) (w : Circumstances) :
    settlements (c.onRequestDue w).2 = (c.pending.expire w.now).2.1 := by
  rw [← settlements_news]
  simp only [onRequestDue, news_append, news_lines, List.nil_append]
  rw [settlements_news]
  exact (settlements_settles id _).trans (List.map_id _)

/-- When the timer of requests fires, the next deadline has come. -/
theorem nextDeadline?_of_requestDue {c : Connection} {now : Time} (h : c.due? now = some .requestDue) :
    ∃ d, c.pending.nextDeadline? = some d ∧ d ≤ now := by
  unfold due? at h
  split at h
  · cases h
  · split at h
    · cases h
    · split at h
      · rename_i hany
        obtain ⟨d, hd, hdue⟩ := (Option.any_eq_true _ _).mp hany
        exact ⟨d, hd, of_decide_eq_true hdue⟩
      · split at h <;> cases h

/-- **The timer of requests does not fire twice at one time.** -/
theorem due?_onRequestDue (c : Connection) (w : Circumstances) :
    (c.onRequestDue w).1.due? w.now ≠ some .requestDue := by
  intro hfires
  obtain ⟨d, hd, hdue⟩ := nextDeadline?_of_requestDue hfires
  have hpending : (c.onRequestDue w).1.pending = (c.pending.expire w.now).1 := rfl
  rw [hpending, PendingTable.nextDeadline?_expire_eq_some_iff] at hd
  exact Nat.not_le_of_lt hd.1 hdue

end Connection

namespace PendingTable

/-- **Ending requests keeps to their deadlines.** For every table and every time: exactly the requests whose deadline has
come end, each because no response came, and they are counted; the others stay as they are, in their order. Looking them
up and ending them one by one, in whatever order, comes to the same, and so does another order of the table. None ends if
and only if there is no next deadline or it is later; afterwards the next deadline is later, and is the earliest of those
that are left. So as soon as the next deadline has come at least one request ends, and a second look at that time ends
none: the timer of a connection's requests does not fire again. A look at an earlier time makes no difference. -/
theorem expiry_keeps_to_deadlines (t : PendingTable) (now : Time) :
    t.expire now =
      (t.filter fun p => now < p.deadline,
        (t.filter fun p => p.deadline ≤ now).map fun p => ⟨p.caller, .error (.timeout p.action p.id)⟩,
        (t.filter fun p => p.deadline ≤ now).length) ∧
    (t.ids.Nodup → ∀ ids : List String, ids.Perm ((t.filter fun p => p.deadline ≤ now).map Pending.id) →
      (t.timeOutEach ids).1 = (t.expire now).1 ∧ (t.timeOutEach ids).2.Perm (t.expire now).2.1 ∧
      ids.length = (t.expire now).2.2) ∧
    (∀ u : PendingTable, t.Perm u → t.nextDeadline? = u.nextDeadline? ∧ (t.expire now).1.Perm (u.expire now).1 ∧
      (t.expire now).2.1.Perm (u.expire now).2.1 ∧ (t.expire now).2.2 = (u.expire now).2.2) ∧
    ((t.expire now).2.2 = 0 ↔ t.nextDeadline? = none ∨ ∃ d, t.nextDeadline? = some d ∧ now < d) ∧
    ((t.expire now).1.nextDeadline? = none ↔ ∀ p ∈ t, p.deadline ≤ now) ∧
    (∀ d, (t.expire now).1.nextDeadline? = some d ↔
      now < d ∧ (∃ p ∈ t, p.deadline = d) ∧ ∀ p ∈ t, now < p.deadline → d ≤ p.deadline) ∧
    (∀ d, t.nextDeadline? = some d → d ≤ now → 0 < (t.expire now).2.2 ∧ (t.expire now).1.length < t.length ∧
      (t.expire now).1.expire now = ((t.expire now).1, [], 0)) ∧
    (∀ (c : Connection) (w : Circumstances), c.pending = t → w.now = now →
      (c.onRequestDue w).1.pending = (t.expire now).1 ∧ settlements (c.onRequestDue w).2 = (t.expire now).2.1 ∧
      (c.due? now = some .requestDue → 0 < (t.expire now).2.2) ∧
      (c.onRequestDue w).1.due? now ≠ some .requestDue) ∧
    (∀ earlier ≤ now, ((t.expire earlier).1.expire now).1 = (t.expire now).1 ∧
      ((t.expire earlier).2.1 ++ ((t.expire earlier).1.expire now).2.1).Perm (t.expire now).2.1 ∧
      (t.expire earlier).2.2 + ((t.expire earlier).1.expire now).2.2 = (t.expire now).2.2) := by
  refine ⟨expire_eq t now, fun ht ids h => timeOutEach_due ht h, ?_, ?_, nextDeadline?_expire_eq_none_iff,
    fun d => nextDeadline?_expire_eq_some_iff, ?_, ?_, ?_⟩
  · intro u h
    have hdue := due_of_perm h now
    exact ⟨nextDeadline?_of_perm h, h.filter _, hdue.map _, hdue.length_eq⟩
  · exact expire_snd_eq_zero_iff
  · intro d hd hle
    have hpos := expire_snd_pos hd hle
    have hlength := (perm_due_append t now).length_eq
    have hcount : (t.expire now).2.2 = (t.due now).length := rfl
    rw [List.length_append, ← hcount] at hlength
    exact ⟨hpos, by omega, expire_again t now⟩
  · rintro c w rfl rfl
    refine ⟨rfl, c.settlements_onRequestDue w, ?_, c.due?_onRequestDue w⟩
    intro hfires
    obtain ⟨d, hd, hle⟩ := Connection.nextDeadline?_of_requestDue hfires
    exact expire_snd_pos hd hle
  · intro earlier h
    obtain ⟨hleft, hdue⟩ := expire_expire t h
    refine ⟨hleft, ?_, ?_⟩
    · have hended := hdue.map timedOut
      rw [List.map_append] at hended
      exact hended
    · have hcount := hdue.length_eq
      rw [List.length_append] at hcount
      exact hcount

end PendingTable
end TransitLink
