import TransitLink.Proofs.Snapshot.Rendering

/-!
# How lists are compacted

* `Group` : an item that is kept, with the pairs of a name and a value that are folded into it.
* `groups` : how a list falls into groups. `groups_items` : they hold every item once, in order.
* `render_sequence` : a list is rendered group by group.
* `groupsAfter_of_holder` : behind an object, wherever it stands, every text with an item after it is a name.
* `map_folded_eq_map_iff` : items are rendered one by one if nothing is folded.

Items are taken through a `view`, their rendering, since it is renderings that are folded.
-/

namespace TransitLink.Snapshot

set_option autoImplicit false

variable {α : Type} (view : α → Json)

/-- A kind of JSON that takes members in. -/
def IsObject (j : Json) : Prop := ∃ ms, j = .obj ms

/-- An item that compaction keeps, and the pairs of items that go into it, each as a name and a value. -/
structure Group (α : Type) where
  kept : α
  pairs : List (α × α)

def spread (pairs : List (α × α)) : List α := pairs.flatMap fun p => [p.1, p.2]

namespace Group

def items (g : Group α) : List α := g.kept :: spread g.pairs

def member? (p : α × α) : Option (String × Json) := (view p.1).text?.map fun name => (name, view p.2)

def members (g : Group α) : Members Json := g.pairs.filterMap (member? view)

def folded (g : Group α) : Json :=
  match view g.kept with
  | .obj ms => .obj (Members.putAll ms (g.members view))
  | j => j

def add (g : Group α) (name value : α) : Group α := ⟨g.kept, g.pairs ++ [(name, value)]⟩

end Group

/-- Whether an item is folded into what a group keeps, if another one follows. -/
def folds (g : Group α) (item : α) : Bool :=
  match view g.kept, view item with
  | .obj _, .str _ => true
  | _, _ => false

def groupsAfter (g : Group α) : List α → List (Group α)
  | [] => [g]
  | [item] => [g, ⟨item, []⟩]
  | item :: next :: items =>
    if folds view g item then groupsAfter (g.add item next) items else g :: groupsAfter ⟨item, []⟩ (next :: items)

def groups : List α → List (Group α)
  | [] => []
  | item :: items => groupsAfter view ⟨item, []⟩ items

variable {view}

theorem spread_append (ps qs : List (α × α)) : spread (ps ++ qs) = spread ps ++ spread qs := List.flatMap_append

theorem length_spread (ps : List (α × α)) : (spread ps).length = ps.length * 2 := by
  rw [spread, List.length_flatMap]
  simp [List.map_const']

theorem folds_iff {g : Group α} {item : α} :
    folds view g item = true ↔ IsObject (view g.kept) ∧ ∃ name, view item = .str name := by
  unfold folds IsObject
  constructor
  · intro h
    split at h
    · rename_i ms name hkept hitem
      exact ⟨⟨ms, hkept⟩, name, hitem⟩
    · cases h
  · rintro ⟨⟨ms, hkept⟩, name, hitem⟩
    rw [hkept, hitem]

/-! ## What groups come to -/

variable (view) in
theorem folded_single (item : α) : Group.folded view ⟨item, []⟩ = view item := by
  unfold Group.folded
  split
  · rename_i ms h
    exact h.symm
  · rfl

theorem folded_of_object {g : Group α} {ms : Members Json} (h : view g.kept = .obj ms) :
    g.folded view = .obj (ms.putAll (g.members view)) := by
  rw [Group.folded, h]

theorem folded_add {g : Group α} {ms : Members Json} {item : α} {name : String} (hkept : view g.kept = .obj ms)
    (hitem : view item = .str name) (next : α) :
    (g.add item next).folded view = .obj (Members.put (ms.putAll (g.members view)) name (view next)) := by
  have hmember : Group.member? view (item, next) = some (name, view next) := by
    rw [Group.member?, hitem]
    rfl
  have hmembers : (g.add item next).members view = g.members view ++ [(name, view next)] := by
    rw [Group.members, Group.add, List.filterMap_append, List.filterMap_cons_some hmember]
    rfl
  rw [folded_of_object (g := g.add item next) hkept, hmembers, Members.putAll, List.foldl_append]
  rfl

theorem compactAfter_of_not {last item next : Json} {items : List Json}
    (h : ¬ (IsObject last ∧ ∃ name, item = .str name)) :
    compactAfter last (item :: next :: items) = last :: compactAfter item (next :: items) := by
  rw [compactAfter]
  rintro ms name rfl rfl
  exact h ⟨⟨ms, rfl⟩, name, rfl⟩

theorem isObject_folded {g : Group α} : IsObject (g.folded view) ↔ IsObject (view g.kept) := by
  unfold Group.folded IsObject
  constructor
  · intro h
    split at h
    · rename_i ms hkept
      exact ⟨ms, hkept⟩
    · exact h
  · rintro ⟨ms, hkept⟩
    exact ⟨_, by rw [hkept]⟩

/-- Compaction keeps one item of each group. -/
theorem compactAfter_groupsAfter (g : Group α) (items : List α) :
    compactAfter (g.folded view) (items.map view) = (groupsAfter view g items).map (Group.folded view) := by
  -- the item that compaction holds back is what the open group comes to
  fun_induction groupsAfter view g items with
  | case1 g => rfl
  | case2 g item =>
    rw [List.map_cons, List.map_cons, List.map_cons, folded_single]
    rfl
  | case3 g item next items hfolds ih =>
    obtain ⟨⟨ms, hkept⟩, name, hitem⟩ := folds_iff.mp hfolds
    rw [← ih, folded_add hkept hitem, folded_of_object hkept, List.map_cons, List.map_cons, hitem, compactAfter]
  | case4 g item next items hfolds ih =>
    have hkeep : ¬ (IsObject (g.folded view) ∧ ∃ name, view item = .str name) := by
      rwa [isObject_folded, ← folds_iff]
    rw [List.map_cons, List.map_cons, compactAfter_of_not hkeep, ← List.map_cons, ← folded_single view item, ih,
      List.map_cons]

theorem compact_groups (items : List α) : compact (items.map view) = (groups view items).map (Group.folded view) := by
  cases items with
  | nil => rfl
  | cons item items =>
    rw [List.map_cons, compact, groups, ← folded_single view item]
    exact compactAfter_groupsAfter _ _

/-- **A list is rendered group by group.** -/
theorem render_sequence (items : List Snapshot) :
    render true (sequence items) = .arr ((groups (render true) items).map (Group.folded (render true))) := by
  rw [render, renderItems_eq_map, ← compact_groups]
  rfl

/-! ## What is in groups -/

theorem groupsAfter_items (g : Group α) (items : List α) :
    (groupsAfter view g items).flatMap Group.items = g.items ++ items := by
  fun_induction groupsAfter view g items with
  | case1 g => rw [List.flatMap_cons, List.flatMap_nil]
  | case2 g item => rfl
  | case3 g item next items _ ih =>
    rw [ih, Group.items, Group.add, spread_append, Group.items, List.cons_append, List.append_assoc]
    rfl
  | case4 g item next items _ ih =>
    rw [List.flatMap_cons, ih]
    rfl

/-- Every item is in one group, in one place, in order. -/
theorem groups_items (items : List α) : (groups view items).flatMap Group.items = items := by
  cases items with
  | nil => rfl
  | cons item items => exact groupsAfter_items ⟨item, []⟩ items

/-- The items of a group stand side by side in the list. -/
theorem exists_eq_of_mem_groups {items : List α} {g : Group α} (hg : g ∈ groups view items) :
    ∃ before after, items = before ++ (g.items ++ after) := by
  obtain ⟨front, back, hgroups⟩ := List.append_of_mem hg
  refine ⟨front.flatMap Group.items, back.flatMap Group.items, ?_⟩
  rw [← List.flatMap_cons, ← List.flatMap_append, ← hgroups, groups_items]

/-- What is folded is folded into an object, and its name is a text of the rendering. -/
theorem of_mem_groupsAfter {first : Group α} {items : List α}
    (hfirst : ∀ p ∈ first.pairs, IsObject (view first.kept) ∧ ∃ name, view p.1 = .str name) :
    ∀ g ∈ groupsAfter view first items, ∀ p ∈ g.pairs, IsObject (view g.kept) ∧ ∃ name, view p.1 = .str name := by
  fun_induction groupsAfter view first items with
  | case1 first => exact List.forall_mem_singleton.mpr hfirst
  | case2 first item =>
    exact List.forall_mem_cons.mpr ⟨hfirst, List.forall_mem_singleton.mpr fun _ h => absurd h List.not_mem_nil⟩
  | case3 first item next items hfolds ih =>
    obtain ⟨hkept, hitem⟩ := folds_iff.mp hfolds
    refine ih fun p hp => ?_
    rcases List.mem_append.mp hp with hp | hp
    · exact hfirst p hp
    · rw [List.mem_singleton.mp hp]
      exact ⟨hkept, hitem⟩
  | case4 first item next items _ ih =>
    exact List.forall_mem_cons.mpr ⟨hfirst, ih fun _ h => absurd h List.not_mem_nil⟩

theorem of_mem_groups {items : List α} {g : Group α} (hg : g ∈ groups view items) {p : α × α} (hp : p ∈ g.pairs) :
    IsObject (view g.kept) ∧ ∃ name, view p.1 = .str name := by
  cases items with
  | nil => cases hg
  | cons item items => exact of_mem_groupsAfter (fun _ h => absurd h List.not_mem_nil) g hg p hp

theorem mem_of_mem_groups {items : List α} {g : Group α} (hg : g ∈ groups view items) :
    g.kept ∈ items ∧ ∀ p ∈ g.pairs, p.1 ∈ items ∧ p.2 ∈ items := by
  obtain ⟨before, after, rfl⟩ := exists_eq_of_mem_groups hg
  have hsub : g.items ⊆ before ++ (g.items ++ after) :=
    List.Subset.trans (List.subset_append_left ..) (List.subset_append_right ..)
  have hspread : ∀ p ∈ g.pairs, ∀ item ∈ [p.1, p.2], item ∈ before ++ (g.items ++ after) :=
    fun p hp item hitem => hsub (List.mem_cons_of_mem _ (List.mem_flatMap.mpr ⟨p, hp, hitem⟩))
  exact ⟨hsub List.mem_cons_self, fun p hp => ⟨hspread p hp _ (by simp), hspread p hp _ (by simp)⟩⟩

/-- A group takes in more pairs, but keeps those that it has. -/
theorem exists_mem_groupsAfter (first : Group α) (items : List α) :
    ∃ g ∈ groupsAfter view first items, g.kept = first.kept ∧ first.pairs ⊆ g.pairs := by
  fun_induction groupsAfter view first items with
  | case1 first => exact ⟨first, List.mem_singleton_self _, rfl, List.Subset.refl _⟩
  | case2 first item => exact ⟨first, List.mem_cons_self, rfl, List.Subset.refl _⟩
  | case3 first item next items _ ih =>
    obtain ⟨g, hg, hkept, hpairs⟩ := ih
    exact ⟨g, hg, hkept, List.Subset.trans (List.subset_append_left ..) hpairs⟩
  | case4 first item next items _ ih => exact ⟨first, List.mem_cons_self, rfl, List.Subset.refl _⟩

/-- An object is kept or is a value, but either way what comes behind it is folded into an object. -/
theorem groupsAfter_of_holder {holder : α} (hholder : IsObject (view holder)) (rest : List α) :
    ∀ (first : Group α) (before : List α), ∃ front g, IsObject (view g.kept) ∧
      groupsAfter view first (before ++ holder :: rest) = front ++ groupsAfter view g rest
  -- by the items ahead of it, two at a time where they are a pair; with one left, the object may be its value
  | first, [] => by
    refine ⟨[first], ⟨holder, []⟩, hholder, ?_⟩
    cases rest with
    | nil => rfl
    | cons next rest =>
      have hkeep : ¬ folds view first holder = true := by
        rintro hfolds
        obtain ⟨-, name, hname⟩ := folds_iff.mp hfolds
        obtain ⟨ms, hms⟩ := hholder
        rw [hms] at hname
        cases hname
      rw [List.nil_append, groupsAfter, if_neg hkeep]
      rfl
  | first, [item] => by
    rw [List.cons_append, List.nil_append, groupsAfter]
    split
    · rename_i hfolds
      exact ⟨[], first.add item holder, (folds_iff.mp hfolds).1, rfl⟩
    · obtain ⟨front, g, hg, hgroups⟩ := groupsAfter_of_holder hholder rest ⟨item, []⟩ []
      exact ⟨first :: front, g, hg, congrArg (first :: ·) hgroups⟩
  | first, item :: next :: before => by
    rw [List.cons_append, List.cons_append, groupsAfter]
    split
    · exact groupsAfter_of_holder hholder rest (first.add item next) before
    · obtain ⟨front, g, hg, hgroups⟩ := groupsAfter_of_holder hholder rest ⟨item, []⟩ (next :: before)
      exact ⟨first :: front, g, hg, congrArg (first :: ·) hgroups⟩

theorem groups_of_holder {holder : α} (hholder : IsObject (view holder)) (before rest : List α) :
    ∃ front g, IsObject (view g.kept) ∧
      groups view (before ++ holder :: rest) = front ++ groupsAfter view g rest := by
  cases before with
  | nil => exact ⟨[], ⟨holder, []⟩, hholder, rfl⟩
  | cons item before => exact groupsAfter_of_holder hholder rest ⟨item, []⟩ before

/-- Behind an object, names with their values are folded one after the other. -/
theorem groupsAfter_pairs {g : Group α} (hkept : IsObject (view g.kept)) {pairs : List (α × α)}
    (hpairs : ∀ p ∈ pairs, ∃ name, view p.1 = .str name) (rest : List α) :
    groupsAfter view g (spread pairs ++ rest) =
      groupsAfter view ⟨g.kept, g.pairs ++ pairs⟩ rest := by
  induction pairs generalizing g with
  | nil => rw [spread, List.flatMap_nil, List.nil_append, List.append_nil]
  | cons p pairs ih =>
    obtain ⟨hp, hpairs⟩ := List.forall_mem_cons.mp hpairs
    have hfolds : folds view g p.1 = true := folds_iff.mpr ⟨hkept, hp⟩
    have hrest := ih (g := g.add p.1 p.2) hkept hpairs
    rw [Group.add, List.append_assoc] at hrest
    rw [spread, List.flatMap_cons, List.append_assoc, List.cons_append, List.cons_append, groupsAfter, if_pos hfolds]
    exact hrest

/-! ## When nothing is folded -/

theorem length_items (g : Group α) : g.items.length = g.pairs.length * 2 + 1 := by
  rw [Group.items, List.length_cons, length_spread]

theorem length_le_flatMap_items (gs : List (Group α)) : gs.length ≤ (gs.flatMap Group.items).length := by
  induction gs with
  | nil => exact Nat.le_refl 0
  | cons g gs ih =>
    rw [List.flatMap_cons, List.length_append, length_items, List.length_cons]
    omega

theorem pairs_eq_nil_of_length {gs : List (Group α)} (h : gs.length = (gs.flatMap Group.items).length) :
    ∀ g ∈ gs, g.pairs = [] := by
  induction gs with
  | nil => exact fun _ hg => absurd hg List.not_mem_nil
  | cons g gs ih =>
    rw [List.flatMap_cons, List.length_append, length_items, List.length_cons] at h
    have hgs := length_le_flatMap_items gs
    refine List.forall_mem_cons.mpr ⟨List.eq_nil_of_length_eq_zero ?_, ih ?_⟩ <;> omega

theorem map_folded_of_single {gs : List (Group α)} (h : ∀ g ∈ gs, g.pairs = []) :
    gs.map (Group.folded view) = (gs.flatMap Group.items).map view := by
  induction gs with
  | nil => rfl
  | cons g gs ih =>
    obtain ⟨hg, hgs⟩ := List.forall_mem_cons.mp h
    obtain ⟨kept, pairs⟩ := g
    obtain rfl : pairs = [] := hg
    rw [List.map_cons, ih hgs, folded_single, List.flatMap_cons, List.map_append]
    rfl

/-- Items are rendered one by one exactly if nothing is folded. -/
theorem map_folded_eq_map_iff (items : List α) :
    (groups view items).map (Group.folded view) = items.map view ↔ ∀ g ∈ groups view items, g.pairs = [] := by
  constructor
  · intro h
    -- a group of n pairs has 2n + 1 items but comes to one
    refine pairs_eq_nil_of_length ?_
    rw [groups_items, ← List.length_map (f := Group.folded view), h, List.length_map]
  · intro h
    rw [map_folded_of_single h, groups_items]

end TransitLink.Snapshot
