import Mathlib.Data.List.Nodup
import Mathlib.Data.List.Perm.Basic
import TransitLink.Link.Pending

/-!
# Laws of the pending table

* `get?` under an id: `get?_eq_none_iff`, `mem_of_get?`, and `get?_eq_some` in a table without repeated ids.
* `filter_id` : at most one request is under an id.
* `without_eq_self`, `perm_cons_without`, `without_of_mem` : taking out nothing, and taking out one request.
* `register_of_fresh` : a request under a new id goes to the end and replaces none.
* `nextDeadline?_eq_some_iff` : the next deadline is the least of all.
* `perm_due_append` : the requests that are due and those that are not make up the table.
* `register_fail` : a request that begins and fails at once leaves the table as it was.
-/

namespace TransitLink.PendingTable

set_option autoImplicit false

theorem mem_ids {t : PendingTable} {id : String} : id ∈ t.ids ↔ ∃ p ∈ t, p.id = id := by
  simp [ids]

@[simp] theorem ids_append (t u : PendingTable) : (t ++ u : PendingTable).ids = t.ids ++ u.ids := List.map_append

theorem get?_eq_none_iff {t : PendingTable} {id : String} : t.get? id = none ↔ id ∉ t.ids := by
  rw [mem_ids, get?, List.find?_eq_none]
  simp

theorem mem_of_get? {t : PendingTable} {id : String} {p : Pending} (h : t.get? id = some p) : p ∈ t ∧ p.id = id :=
  ⟨List.mem_of_find?_eq_some h, by simpa using List.find?_some h⟩

theorem eq_of_id_eq {t : PendingTable} (h : t.ids.Nodup) {p q : Pending} (hp : p ∈ t) (hq : q ∈ t)
    (e : p.id = q.id) : p = q :=
  List.inj_on_of_nodup_map h hp hq e

theorem get?_eq_some {t : PendingTable} (h : t.ids.Nodup) {p : Pending} (hp : p ∈ t) : t.get? p.id = some p := by
  cases hg : t.get? p.id with
  | none => exact absurd (mem_ids.mpr ⟨p, hp, rfl⟩) (get?_eq_none_iff.mp hg)
  | some q =>
    obtain ⟨hq, e⟩ := mem_of_get? hg
    rw [eq_of_id_eq h hq hp e]

theorem without_eq_self {t : PendingTable} {id : String} (h : id ∉ t.ids) : t.without id = t := by
  rw [without, List.filter_eq_self]
  intro p hp
  simpa using fun e => h (mem_ids.mpr ⟨p, hp, e⟩)

theorem mem_without {t : PendingTable} {id : String} {p : Pending} : p ∈ t.without id ↔ p ∈ t ∧ p.id ≠ id := by
  simp [without]

theorem filter_id {t : PendingTable} (h : t.ids.Nodup) (id : String) :
    t.filter (fun p => p.id = id) = (t.get? id).toList := by
  cases hg : t.get? id with
  | none =>
    rw [Option.toList_none, List.filter_eq_nil_iff]
    intro p hp
    simpa using fun e => get?_eq_none_iff.mp hg (mem_ids.mpr ⟨p, hp, e⟩)
  | some p =>
    obtain ⟨hp, rfl⟩ := mem_of_get? hg
    have hnd : (t.filter fun q => decide (q.id = p.id)).Nodup := (List.Nodup.of_map _ h).filter _
    refine List.perm_singleton.mp ?_
    rw [List.perm_ext_iff_of_nodup hnd (List.nodup_singleton p)]
    intro q
    simp only [List.mem_filter, decide_eq_true_eq, List.mem_singleton]
    constructor
    · exact fun hq => eq_of_id_eq h hq.1 hp hq.2
    · rintro rfl
      exact ⟨hp, rfl⟩

theorem perm_cons_without {t : PendingTable} (h : t.ids.Nodup) {p : Pending} (hp : p ∈ t) :
    (p :: t.without p.id).Perm t := by
  have hsplit := List.filter_append_perm (fun q : Pending => decide (q.id = p.id)) t
  rw [filter_id h, get?_eq_some h hp] at hsplit
  simpa [without] using hsplit

theorem without_of_mem {t : PendingTable} (h : t.ids.Nodup) {p : Pending} (hp : p ∈ t) :
    ∃ before after, t = before ++ p :: after ∧ t.without p.id = before ++ after := by
  obtain ⟨before, after, rfl⟩ := List.append_of_mem hp
  have hothers : p.id ∉ ids (before ++ after) := by
    rw [ids, List.map_append, List.map_cons, List.nodup_middle, ← List.map_append] at h
    exact (List.nodup_cons.mp h).1
  refine ⟨before, after, rfl, ?_⟩
  rw [← without_eq_self hothers]
  simp [without]

theorem register_of_fresh {t : PendingTable} {p : Pending} (h : p.id ∉ t.ids) : t.register p = (t ++ [p], none) := by
  rw [register, without_eq_self h, get?_eq_none_iff.mpr h]

theorem perm_due_append (t : PendingTable) (now : Time) : (t.due now ++ (t.expire now).1).Perm t := by
  simpa only [due, expire, decide_not] using List.filter_append_perm (fun p : Pending => decide (p.deadline ≤ now)) t

theorem nextDeadline?_eq_some_iff {t : PendingTable} {d : Time} :
    t.nextDeadline? = some d ↔ (∃ p ∈ t, p.deadline = d) ∧ ∀ p ∈ t, d ≤ p.deadline := by
  rw [nextDeadline?, List.min?_eq_some_iff, List.mem_map, List.forall_mem_map]

theorem nextDeadline?_le {t : PendingTable} {p : Pending} (hp : p ∈ t) : ∃ d, t.nextDeadline? = some d ∧ d ≤ p.deadline := by
  cases h : t.nextDeadline? with
  | none =>
    rw [nextDeadline?, List.min?_eq_none_iff, List.map_eq_nil_iff] at h
    rw [h] at hp
    cases hp
  | some d => exact ⟨d, rfl, (nextDeadline?_eq_some_iff.mp h).2 p hp⟩

theorem nodup_ids_of_sublist {t u : PendingTable} (h : t.Sublist u) (hu : u.ids.Nodup) : t.ids.Nodup :=
  hu.sublist (h.map _)

theorem nodup_ids_append {t : PendingTable} {p : Pending} (h : t.ids.Nodup) (hp : p.id ∉ t.ids) :
    (t ++ [p] : PendingTable).ids.Nodup := by
  rw [ids_append]
  exact h.append (by simp [ids]) (by simpa [ids] using hp)

theorem register_fail {t : PendingTable} {p : Pending} (h : p.id ∉ t.ids) (why : Failure) :
    (t.register p).1.fail p.id why = (t, [⟨p.caller, .error why⟩], true) := by
  have hget : (t ++ [p] : PendingTable).get? p.id = some p := by
    rw [get?, List.find?_append, ← get?, get?_eq_none_iff.mpr h]
    simp
  have hwithout : (t ++ [p] : PendingTable).without p.id = t := by
    rw [without, List.filter_append, ← without, without_eq_self h]
    simp
  rw [register_of_fresh h, fail, hget]
  simp only [hwithout]

end TransitLink.PendingTable
