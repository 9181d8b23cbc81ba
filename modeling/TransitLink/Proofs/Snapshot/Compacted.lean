import TransitLink.Proofs.Snapshot.Compaction

/-!
# Lists that are compacted

* `HasPair` : a list with an object, a text behind it and one more item behind that.
* `not_hasPair_compact` : compaction leaves no pair. `compact_of_not_hasPair` : it leaves a list without pairs alone.
* `compaction_settles` : so it is done after one pass, and it loses no item on the way.
-/

namespace TransitLink.Snapshot

set_option autoImplicit false

/-- Somewhere in the list, an object is followed by a text, and that by another item. -/
def HasPair (xs : List Json) : Prop := ∃ ms name next, [Json.obj ms, .str name, next] <:+: xs

variable {last j : Json} {xs items : List Json}

/-! ## Where a pair stands -/

theorem hasPair_cons_iff : HasPair (j :: xs) ↔
    (IsObject j ∧ ∃ name next after, xs = .str name :: next :: after) ∨ HasPair xs := by
  unfold HasPair
  constructor
  · rintro ⟨ms, name, next, hinfix⟩
    rcases List.infix_cons_iff.mp hinfix with ⟨after, hafter⟩ | hinfix
    · obtain ⟨rfl, hxs⟩ := List.cons.inj hafter
      exact .inl ⟨⟨ms, rfl⟩, name, next, after, hxs.symm⟩
    · exact .inr ⟨ms, name, next, hinfix⟩
  · rintro (⟨⟨ms, rfl⟩, name, next, after, rfl⟩ | ⟨ms, name, next, hinfix⟩)
    · exact ⟨ms, name, next, [], after, rfl⟩
    · exact ⟨ms, name, next, List.infix_cons_iff.mpr (.inr hinfix)⟩

theorem not_hasPair_of_length (h : xs.length < 3) : ¬ HasPair xs := by
  rintro ⟨ms, name, next, hinfix⟩
  have hlength := hinfix.length_le
  simp only [List.length_cons, List.length_nil] at hlength
  omega

/-! ## What compaction leaves -/

theorem not_hasPair_compactAfter (last : Json) (items : List Json) : ¬ HasPair (compactAfter last items) := by
  fun_induction compactAfter last items with
  | case1 last => exact not_hasPair_of_length (by simp)
  | case2 last item => exact not_hasPair_of_length (by simp)
  | case3 next items ms name ih => exact ih
  | case4 last item next items hkeep ih =>
    rw [hasPair_cons_iff, not_or]
    refine ⟨?_, ih⟩
    -- a text at the front of the rest is the item that was not folded
    rintro ⟨⟨ms, rfl⟩, name, next', after, hrest⟩
    obtain ⟨j, tail, hcompact, hj⟩ := exists_compactAfter item (next :: items)
    obtain ⟨rfl, -⟩ := List.cons.inj (hcompact.symm.trans hrest)
    rcases hj with rfl | ⟨_, ms', -, hobject⟩
    · exact hkeep ms name rfl rfl
    · cases hobject

theorem not_hasPair_compact (xs : List Json) : ¬ HasPair (compact xs) := by
  cases xs with
  | nil => exact not_hasPair_of_length (by decide)
  | cons item items => exact not_hasPair_compactAfter item items

theorem compactAfter_of_not_hasPair (h : ¬ HasPair (last :: items)) : compactAfter last items = last :: items := by
  fun_induction compactAfter last items with
  | case1 last => rfl
  | case2 last item => rfl
  | case3 next items ms name ih => exact absurd (hasPair_cons_iff.mpr (.inl ⟨⟨ms, rfl⟩, name, next, items, rfl⟩)) h
  | case4 last item next items hkeep ih =>
    rw [hasPair_cons_iff, not_or] at h
    rw [ih h.2]

theorem compact_of_not_hasPair (h : ¬ HasPair xs) : compact xs = xs := by
  cases xs with
  | nil => rfl
  | cons item items => exact compactAfter_of_not_hasPair h

theorem compact_eq_self_iff : compact xs = xs ↔ ¬ HasPair xs := by
  constructor
  · intro h
    rw [← h]
    exact not_hasPair_compact xs
  · exact compact_of_not_hasPair

/-! ## What becomes of items -/

theorem compact_eq_map_folded (xs : List Json) : compact xs = (groups id xs).map (Group.folded id) := by
  have h : compact (xs.map id) = (groups id xs).map (Group.folded id) := compact_groups xs
  rwa [List.map_id] at h

/-- Names and values, read as members, are the same names and values. -/
theorem map_members {pairs : List (Json × Json)} (h : ∀ p ∈ pairs, ∃ name, p.1 = .str name) :
    ((pairs.filterMap (Group.member? id)).map fun m => (Json.str m.1, m.2)) = pairs := by
  induction pairs with
  | nil => rfl
  | cons p pairs ih =>
    obtain ⟨⟨name, hname⟩, hnames⟩ := List.forall_mem_cons.mp h
    obtain ⟨key, value⟩ := p
    obtain rfl : key = .str name := hname
    have hmember : Group.member? id (Json.str name, value) = some (name, value) := rfl
    rw [List.filterMap_cons_some hmember, List.map_cons, ih hnames]

theorem length_flatMap_items (gs : List (Group Json)) :
    (gs.flatMap Group.items).length = gs.length + 2 * (gs.flatMap Group.pairs).length := by
  induction gs with
  | nil => rfl
  | cons g gs ih =>
    rw [List.flatMap_cons, List.length_append, ih, length_items, List.length_cons, List.flatMap_cons, List.length_append]
    omega

/-- **Compaction is done after one pass, and loses nothing.** What it leaves has no pair, so a second pass changes
nothing; and it leaves exactly those lists alone that have no pair. The list falls into groups that have all its items, in
order: an item that is kept, and the names and values behind it in pairs. A group without pairs comes to what is kept. If
it has pairs, what is kept is an object, and the pairs are put into it as members, one after the other. So a list is
longer than what compaction leaves of it by two for every pair. -/
theorem compaction_settles (xs : List Json) :
    ¬ HasPair (compact xs) ∧ compact (compact xs) = compact xs ∧ (compact xs = xs ↔ ¬ HasPair xs) ∧
    (groups id xs).flatMap Group.items = xs ∧ compact xs = (groups id xs).map (Group.folded id) ∧
    (∀ g ∈ groups id xs, ((g.members id).map fun m => (Json.str m.1, m.2)) = g.pairs ∧
      (g.pairs = [] ∧ g.folded id = g.kept ∨
        ∃ ms, g.kept = .obj ms ∧ g.folded id = .obj (Members.putAll ms (g.members id)))) ∧
    xs.length = (compact xs).length + 2 * ((groups id xs).flatMap Group.pairs).length := by
  refine ⟨not_hasPair_compact xs, compact_of_not_hasPair (not_hasPair_compact xs), compact_eq_self_iff,
    groups_items xs, compact_eq_map_folded xs,
    fun g hg => ⟨map_members fun p hp => (of_mem_groups hg hp).2, ?_⟩, ?_⟩
  · obtain ⟨kept, pairs⟩ := g
    cases pairs with
    | nil => exact .inl ⟨rfl, folded_single id kept⟩
    | cons p pairs =>
      obtain ⟨⟨ms, hkept⟩, -⟩ := of_mem_groups hg List.mem_cons_self
      exact .inr ⟨ms, hkept, folded_of_object hkept⟩
  · have hlength := length_flatMap_items (groups id xs)
    rwa [groups_items, ← List.length_map (f := Group.folded id), ← compact_eq_map_folded] at hlength

/-- The value of a pair may be an object, but it does not take members in: the next pair goes into the same object. -/
example : compact [.obj [], .str "a", .obj [], .str "b", .null, .str "c"] =
    [.obj [("a", .obj []), ("b", .null)], .str "c"] := rfl

end TransitLink.Snapshot
