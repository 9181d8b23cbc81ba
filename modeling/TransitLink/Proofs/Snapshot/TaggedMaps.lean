import TransitLink.Proofs.Snapshot.Misreading

/-!
# What becomes of maps in a rendering

* `tags` : the two members that tag a map.
* `Survives` : what still stands in the rendering of a value, with the pairs that are folded into it.
* `survivor_of_part` : every object in a rendering is that of a map or a record that survives.
* `maps_stay_tagged_iff` : a map that survives keeps its two members, and has no others, exactly if what is folded into it
  says the same; so it does if it stands `Alone` in its list.
-/

namespace TransitLink.Snapshot

set_option autoImplicit false

def entryList (es : List (Snapshot × Snapshot)) : Json := .arr (es.map fun e => .arr [render true e.1, render true e.2])

def tags (es : List (Snapshot × Snapshot)) : Members Json := [("__type", .str "Map"), ("entries", entryList es)]

abbrev shown (g : Group Snapshot) : Json := g.folded (render true)

/-- `Survives g h`: in what `h` comes to, `g.kept` still stands somewhere, with the pairs of `g` folded into it. The value of
a field or of a folded pair survives unless another one has taken its name, and so do the entries of a map. -/
inductive Survives (g : Group Snapshot) : Group Snapshot → Prop where
  | self : Survives g g
  | kept {items : List Snapshot} {pairs : List (Snapshot × Snapshot)} {h : Group Snapshot} :
      h ∈ groups (render true) items → Survives g h → Survives g ⟨sequence items, pairs⟩
  | folded {items : List Snapshot} {pairs : List (Snapshot × Snapshot)} {h : Group Snapshot} {p : Snapshot × Snapshot}
      {name : String} : h ∈ groups (render true) items → p ∈ h.pairs → render true p.1 = .str name →
      (shown h).get? name = some (render true p.2) → Survives g ⟨p.2, []⟩ → Survives g ⟨sequence items, pairs⟩
  | key {es pairs : List (Snapshot × Snapshot)} {e : Snapshot × Snapshot} : e ∈ es →
      (shown ⟨mapping es, pairs⟩).get? "entries" = some (entryList es) → Survives g ⟨e.1, []⟩ →
      Survives g ⟨mapping es, pairs⟩
  | value {es pairs : List (Snapshot × Snapshot)} {e : Snapshot × Snapshot} : e ∈ es →
      (shown ⟨mapping es, pairs⟩).get? "entries" = some (entryList es) → Survives g ⟨e.2, []⟩ →
      Survives g ⟨mapping es, pairs⟩
  | field {fs : List (String × Snapshot)} {pairs : List (Snapshot × Snapshot)} {f : String × Snapshot} : f ∈ fs →
      isPlaceholder f.1 = false → (shown ⟨record fs, pairs⟩).get? f.1 = some (render true f.2) →
      Survives g ⟨f.2, []⟩ → Survives g ⟨record fs, pairs⟩

/-! ## What is shown -/

theorem shown_single (v : Snapshot) : shown ⟨v, []⟩ = render true v := folded_single _ v

theorem shown_sequence (items : List Snapshot) (pairs : List (Snapshot × Snapshot)) :
    shown ⟨sequence items, pairs⟩ = .arr ((groups (render true) items).map shown) := by
  rw [← render_sequence]
  rfl

theorem shown_mapping (es pairs : List (Snapshot × Snapshot)) :
    shown ⟨mapping es, pairs⟩ = .obj (Members.putAll (tags es) (Group.members (render true) ⟨mapping es, pairs⟩)) := by
  refine folded_of_object ?_
  rw [render, taggedMap, renderEntries_eq_map]
  rfl

theorem shown_record (fs : List (String × Snapshot)) (pairs : List (Snapshot × Snapshot)) :
    shown ⟨record fs, pairs⟩ = .obj (Members.putAll
      (Members.merge ((fs.filter fun f => !isPlaceholder f.1).map fun f => (f.1, render true f.2)))
      (Group.members (render true) ⟨record fs, pairs⟩)) :=
  folded_of_object (render_record fs)

theorem nodup_names_tags (es : List (Snapshot × Snapshot)) : (tags es).names.Nodup :=
  show ["__type", "entries"].Nodup by decide

theorem mem_members_iff {g : Group Snapshot} {m : String × Json} :
    m ∈ g.members (render true) ↔ ∃ p ∈ g.pairs, render true p.1 = .str m.1 ∧ render true p.2 = m.2 := by
  rw [Group.members, List.mem_filterMap]
  refine exists_congr fun p => and_congr_right fun _ => ?_
  rw [Group.member?, Option.map_eq_some_iff]
  constructor
  · rintro ⟨name, hname, rfl⟩
    refine ⟨?_, rfl⟩
    cases hp : render true p.1 with
    | str s => rw [hp] at hname; rw [Option.some.inj hname]
    | _ => rw [hp] at hname; cases hname
  · rintro ⟨hname, hvalue⟩
    exact ⟨m.1, by rw [hname]; rfl, Prod.ext rfl hvalue⟩

/-! ## What survives -/

theorem part_of_get? {i j k : Json} {name : String} (h : j.get? name = some k) (hk : Json.Part i k) : Json.Part i j := by
  cases j with
  | obj ms => exact .member (Members.mem_of_find? h) hk
  | _ => cases h

theorem get?_of_mem {sofar ms : Members Json} (hnodup : sofar.names.Nodup) {m : String × Json}
    (hm : m ∈ Members.putAll sofar ms) : (Json.obj (Members.putAll sofar ms)).get? m.1 = some m.2 :=
  Members.find?_of_mem (Members.nodup_names_putAll hnodup ms) hm

/-- What survives is in the rendering. -/
theorem Survives.part {g h : Group Snapshot} (hg : Survives g h) : Json.Part (shown g) (shown h) := by
  induction hg with
  | self => exact .self _
  | kept hh _ ih =>
    rw [shown_sequence]
    exact .item (List.mem_map_of_mem hh) ih
  | folded hh _ _ hget _ ih =>
    rw [shown_single] at ih
    rw [shown_sequence]
    exact .item (List.mem_map_of_mem hh) (part_of_get? hget ih)
  | key he hget _ ih =>
    rw [shown_single] at ih
    exact part_of_get? hget (.item (List.mem_map_of_mem he) (.item List.mem_cons_self ih))
  | value he hget _ ih =>
    rw [shown_single] at ih
    exact part_of_get? hget (.item (List.mem_map_of_mem he) (.item (List.mem_cons_of_mem _ List.mem_cons_self) ih))
  | field hf _ hget _ ih =>
    rw [shown_single] at ih
    exact part_of_get? hget ih

/-- Pairs are folded in lists only. -/
theorem Survives.of_pairs {g h : Group Snapshot} (hg : Survives g h) (hpairs : g.pairs ≠ []) :
    g = h ∨ ∃ items, Part (sequence items) h.kept ∧ g ∈ groups (render true) items := by
  induction hg with
  | self => exact .inl rfl
  | @kept items pairs h hh _ ih =>
    rcases ih with rfl | ⟨deeper, hdeeper, hg⟩
    · exact .inr ⟨items, .self _, hh⟩
    · exact .inr ⟨deeper, .item (mem_of_mem_groups hh).1 hdeeper, hg⟩
  | folded hh hp _ _ _ ih =>
    rcases ih with rfl | ⟨deeper, hdeeper, hg⟩
    · exact absurd rfl hpairs
    · exact .inr ⟨deeper, .item ((mem_of_mem_groups hh).2 _ hp).2 hdeeper, hg⟩
  | key he _ _ ih =>
    rcases ih with rfl | ⟨deeper, hdeeper, hg⟩
    · exact absurd rfl hpairs
    · exact .inr ⟨deeper, .key he hdeeper, hg⟩
  | value he _ _ ih =>
    rcases ih with rfl | ⟨deeper, hdeeper, hg⟩
    · exact absurd rfl hpairs
    · exact .inr ⟨deeper, .value he hdeeper, hg⟩
  | field hf _ _ _ ih =>
    rcases ih with rfl | ⟨deeper, hdeeper, hg⟩
    · exact absurd rfl hpairs
    · exact .inr ⟨deeper, .field hf hdeeper, hg⟩

theorem isList_of_shown {v : Snapshot} {pairs : List (Snapshot × Snapshot)} {items : List Json}
    (h : shown ⟨v, pairs⟩ = .arr items) : ∃ vs, v = sequence vs := by
  cases v with
  | sequence vs => exact ⟨vs, rfl⟩
  | integer n =>
    by_cases hsafe : n.natAbs ≤ 2 ^ 53 - 1
    · simp [shown, Group.folded, render, renderInteger_of_within hsafe] at h
    · simp [shown, Group.folded, render, renderInteger_of_beyond hsafe] at h
  | float x => cases hfinite : x.isFinite <;> simp [shown, Group.folded, render, renderFloat, hfinite] at h
  | _ => cases h

theorem not_part_of_leaf {v : Snapshot} (hholder : ¬ IsHolder v) (hlist : ∀ vs, v ≠ sequence vs)
    {pairs : List (Snapshot × Snapshot)} {ms : Members Json} : ¬ Json.Part (.obj ms) (shown ⟨v, pairs⟩) := by
  have hobject : ¬ IsObject (shown ⟨v, pairs⟩) := by rwa [isObject_folded, isObject_render_iff]
  intro h
  generalize hj : shown ⟨v, pairs⟩ = j at h hobject
  cases h with
  | self => exact hobject ⟨ms, rfl⟩
  | item =>
    obtain ⟨vs, hvs⟩ := isList_of_shown hj
    exact hlist vs hvs
  | member => exact hobject ⟨_, rfl⟩

/-- A member that is put into an object is one of its own or that of a pair. -/
theorem pair_of_member {g : Group Snapshot} {sofar : Members Json} (hnodup : sofar.names.Nodup)
    (hshown : shown g = .obj (Members.putAll sofar (g.members (render true)))) {m : String × Json}
    (hm : m ∈ Members.putAll sofar (g.members (render true))) :
    (shown g).get? m.1 = some m.2 ∧ (m ∈ sofar ∨ ∃ p ∈ g.pairs, render true p.1 = .str m.1 ∧ render true p.2 = m.2) := by
  refine ⟨hshown ▸ get?_of_mem hnodup hm, ?_⟩
  exact (Members.mem_putAll hm).imp_right mem_members_iff.mp

theorem exists_of_part_entryList {es : List (Snapshot × Snapshot)} {ms : Members Json}
    (h : Json.Part (.obj ms) (entryList es)) :
    ∃ e ∈ es, Json.Part (.obj ms) (render true e.1) ∨ Json.Part (.obj ms) (render true e.2) := by
  cases h with
  | item hj h =>
    obtain ⟨e, he, rfl⟩ := List.mem_map.mp hj
    refine ⟨e, he, ?_⟩
    cases h with
    | item hj h =>
      rw [List.mem_cons, List.mem_singleton] at hj
      rcases hj with rfl | rfl
      · exact .inl h
      · exact .inr h

/-- An object in what a value and its pairs come to is that of a survivor, or is in the value of a pair. -/
theorem survivor_of_part {ms : Members Json} (v : Snapshot) (pairs : List (Snapshot × Snapshot))
    (h : Json.Part (.obj ms) (shown ⟨v, pairs⟩)) :
    (∃ g, Survives g ⟨v, pairs⟩ ∧ IsHolder g.kept ∧ shown g = .obj ms) ∨
      ∃ p ∈ pairs, ∃ name, render true p.1 = .str name ∧
        (shown ⟨v, pairs⟩).get? name = some (render true p.2) ∧ Json.Part (.obj ms) (render true p.2) := by
  -- a value inside has no pairs of its own, so an object in it is that of a survivor
  have hsingle : ∀ u : Snapshot,
      (∀ qs, Json.Part (.obj ms) (shown ⟨u, qs⟩) → (∃ g, Survives g ⟨u, qs⟩ ∧ IsHolder g.kept ∧ shown g = .obj ms) ∨
        ∃ p ∈ qs, ∃ name, render true p.1 = .str name ∧
          (shown ⟨u, qs⟩).get? name = some (render true p.2) ∧ Json.Part (.obj ms) (render true p.2)) →
      Json.Part (.obj ms) (render true u) → ∃ g, Survives g ⟨u, []⟩ ∧ IsHolder g.kept ∧ shown g = .obj ms := by
    intro u hu hpart
    refine (hu [] (by rwa [shown_single])).resolve_right ?_
    rintro ⟨_, hp, _⟩
    cases hp
  -- over the value, with any pairs: what a list keeps has the pairs that were folded into it there
  induction v generalizing pairs with
  | sequence items ih =>
    rw [shown_sequence] at h
    cases h with
    | item hj h =>
      obtain ⟨g, hg, rfl⟩ := List.mem_map.mp hj
      have hmem := mem_of_mem_groups hg
      rcases ih g.kept hmem.1 g.pairs h with ⟨t, ht, hholder, hms⟩ | ⟨p, hp, name, hname, hget, h⟩
      · exact .inl ⟨t, .kept hg ht, hholder, hms⟩
      · obtain ⟨t, ht, hholder, hms⟩ := hsingle p.2 (ih p.2 (hmem.2 p hp).2) h
        exact .inl ⟨t, .folded hg hp hname hget ht, hholder, hms⟩
  | mapping es ih =>
    rw [shown_mapping] at h
    cases h with
    | self => exact .inl ⟨_, .self, trivial, shown_mapping es pairs⟩
    | @member m _ hm h =>
      obtain ⟨hget, hm | ⟨p, hp, hname, hvalue⟩⟩ := pair_of_member (nodup_names_tags es) (shown_mapping es pairs) hm
      · rw [tags, List.mem_cons, List.mem_singleton] at hm
        rcases hm with rfl | rfl
        · cases h
        · obtain ⟨e, he, h | h⟩ := exists_of_part_entryList h
          · obtain ⟨t, ht, hholder, hms⟩ := hsingle e.1 (ih e he).1 h
            exact .inl ⟨t, .key he hget ht, hholder, hms⟩
          · obtain ⟨t, ht, hholder, hms⟩ := hsingle e.2 (ih e he).2 h
            exact .inl ⟨t, .value he hget ht, hholder, hms⟩
      · exact .inr ⟨p, hp, m.1, hname, hvalue ▸ hget, hvalue ▸ h⟩
  | record fs ih =>
    rw [shown_record] at h
    cases h with
    | self => exact .inl ⟨_, .self, trivial, shown_record fs pairs⟩
    | @member m _ hm h =>
      obtain ⟨hget, hm | ⟨p, hp, hname, hvalue⟩⟩ :=
        pair_of_member (Members.nodup_names_merge _) (shown_record fs pairs) hm
      · obtain ⟨f, hf, rfl⟩ := List.mem_map.mp (Members.mem_merge hm)
        obtain ⟨hf, hkept⟩ := List.mem_filter.mp hf
        obtain ⟨t, ht, hholder, hms⟩ := hsingle f.2 (ih f hf) h
        exact .inl ⟨t, .field hf (by simpa using hkept) hget ht, hholder, hms⟩
      · exact .inr ⟨p, hp, m.1, hname, hvalue ▸ hget, hvalue ▸ h⟩
  | _ => exact absurd h (not_part_of_leaf id fun _ hvs => Snapshot.noConfusion hvs)

/-! ## Maps -/

/-- A map has its tag and its entries, and nothing else, exactly if the last pair under each name says so. -/
theorem shown_eq_tags_iff (es pairs : List (Snapshot × Snapshot)) :
    shown ⟨mapping es, pairs⟩ = .obj (tags es) ↔
      ∀ name j, Members.find? name (Group.members (render true) ⟨mapping es, pairs⟩).reverse = some j →
        name = "__type" ∧ j = .str "Map" ∨ name = "entries" ∧ j = entryList es := by
  rw [shown_mapping, Json.obj.injEq, Members.putAll_eq_self_iff (nodup_names_tags es)]
  refine forall₂_congr fun name j => imp_congr_right fun _ => ?_
  constructor
  · intro h
    have hmem := Members.mem_of_find? h
    rwa [tags, List.mem_cons, List.mem_singleton, Prod.mk.injEq, Prod.mk.injEq] at hmem
  · rintro (⟨rfl, rfl⟩ | ⟨rfl, rfl⟩)
    · exact Members.find?_of_mem (nodup_names_tags es) List.mem_cons_self
    · exact Members.find?_of_mem (nodup_names_tags es) (List.mem_cons_of_mem _ List.mem_cons_self)

/-- A map at the end of a list, or with something behind it that is no string, takes nothing in. -/
def Alone (items : List Snapshot) : Prop :=
  ∀ before es key value after, items = before ++ mapping es :: key :: value :: after →
    ∀ s, render true key ≠ .str s

theorem pairs_eq_nil_of_alone {items : List Snapshot} (halone : Alone items) {es pairs : List (Snapshot × Snapshot)}
    (hg : ⟨mapping es, pairs⟩ ∈ groups (render true) items) : pairs = [] := by
  cases pairs with
  | nil => rfl
  | cons p pairs =>
    obtain ⟨-, name, hname⟩ := of_mem_groups hg List.mem_cons_self
    obtain ⟨before, after, hitems⟩ := exists_eq_of_mem_groups hg
    exact absurd hname (halone before es p.1 p.2 (spread pairs ++ after) hitems name)

/-- **A map that survives stays as it was tagged, unless something else is folded into it.** The objects in a rendering are
those of the maps and records that survive, and whatever survives has its place there. A map has its tag and its entries,
one pair for each in the order of the wire, and no other member, exactly if among the pairs folded into it the last under
each name says one of these two again. Only what follows a map in a list is folded into it: if all maps inside the value
stand alone in their lists, each that survives stays as it was tagged. -/
theorem maps_stay_tagged_iff (v : Snapshot) :
    (∀ ms, Json.Part (.obj ms) (render true v) → ∃ g, Survives g ⟨v, []⟩ ∧ IsHolder g.kept ∧ shown g = .obj ms) ∧
    (∀ g, Survives g ⟨v, []⟩ → Json.Part (shown g) (render true v)) ∧
    (∀ es pairs, Survives ⟨mapping es, pairs⟩ ⟨v, []⟩ →
      (shown ⟨mapping es, pairs⟩ = .obj (tags es) ↔
        ∀ name j, Members.find? name (Group.members (render true) ⟨mapping es, pairs⟩).reverse = some j →
          name = "__type" ∧ j = .str "Map" ∨ name = "entries" ∧ j = entryList es)) ∧
    ((∀ items, Part (sequence items) v → Alone items) →
      ∀ es pairs, Survives ⟨mapping es, pairs⟩ ⟨v, []⟩ → shown ⟨mapping es, pairs⟩ = .obj (tags es)) := by
  rw [← shown_single v]
  refine ⟨fun ms h => ?_, fun g hg => hg.part, fun es pairs _ => shown_eq_tags_iff es pairs,
    fun halone es pairs hg => ?_⟩
  · refine (survivor_of_part v [] h).resolve_right ?_
    rintro ⟨_, hp, _⟩
    cases hp
  · have hpairs : pairs = [] := by
      by_contra hpairs
      rcases hg.of_pairs hpairs with h | ⟨items, hitems, hg⟩
      · exact hpairs (congrArg Group.pairs h)
      · exact hpairs (pairs_eq_nil_of_alone (halone items hitems) hg)
    subst hpairs
    exact shown_mapping es []

/-- A text and a number behind a map take the place of its entries. -/
theorem map_loses_its_entries :
    Survives ⟨mapping [(integer 1, nil)], [(text "entries", integer 5)]⟩
        ⟨sequence [mapping [(integer 1, nil)], text "entries", integer 5], []⟩ ∧
      render true (sequence [mapping [(integer 1, nil)], text "entries", integer 5]) =
        .arr [.obj [("__type", .str "Map"), ("entries", .int 5)]] ∧
      Json.arr [.obj [("__type", .str "Map"), ("entries", .int 5)]] ≠ .arr [.obj (tags [(integer 1, nil)])] := by
  refine ⟨.kept List.mem_cons_self .self, rfl, ?_⟩
  simp [tags, entryList]

end TransitLink.Snapshot
