import TransitLink.Proofs.Snapshot.Compaction
import TransitLink.Proofs.Snapshot.SafeNumbers

/-!
# What compaction takes for a name

* `IsHolder` : maps and records are rendered as objects.
* `Disguised` : octets, integers beyond the safe range and numbers that are not finite are no texts, but are rendered as
  strings.
* `Misread` : a list has one of these where a text would be the name of a member.
* `names_are_texts_iff` : only texts are taken for names exactly if nothing is misread.
-/

namespace TransitLink.Snapshot

set_option autoImplicit false

def IsHolder : Snapshot → Prop
  | mapping _ => True
  | record _ => True
  | _ => False

/-- Something that is no text, but is rendered as a string. -/
def Disguised : Snapshot → Prop
  | binary _ => True
  | integer n => ¬ n.natAbs ≤ 2 ^ 53 - 1
  | float x => x.isFinite = false
  | _ => False

/-- In a list, something that is no text stands where a name would: behind a map or a record, or behind the texts and
values that follow it in pairs, and ahead of one more item. -/
def Misread (items : List Snapshot) : Prop :=
  ∃ (before : List Snapshot) (holder : Snapshot) (pairs : List (Snapshot × Snapshot)) (key value : Snapshot)
    (after : List Snapshot), items = before ++ holder :: (spread pairs ++ key :: value :: after) ∧
      IsHolder holder ∧ (∀ p ∈ pairs, ∃ s, p.1 = text s) ∧ Disguised key

variable {compacting : Bool} {v : Snapshot}

theorem isObject_render_iff : IsObject (render compacting v) ↔ IsHolder v := by
  cases v with
  | mapping es => exact iff_of_true ⟨_, rfl⟩ trivial
  | record fs => exact iff_of_true ⟨_, rfl⟩ trivial
  | integer n =>
    refine iff_of_false ?_ id
    rintro ⟨ms, h⟩
    rw [render, renderInteger] at h
    split at h <;> cases h
  | float x =>
    refine iff_of_false ?_ id
    rintro ⟨ms, h⟩
    rw [render, renderFloat] at h
    split at h <;> cases h
  | _ =>
    refine iff_of_false ?_ id
    rintro ⟨ms, h⟩
    cases h

theorem exists_render_eq_str_iff :
    (∃ s, render compacting v = .str s) ↔ (∃ s, v = text s) ∨ Disguised v := by
  cases v with
  | text s => exact iff_of_true ⟨s, rfl⟩ (.inl ⟨s, rfl⟩)
  | binary bs => exact iff_of_true ⟨_, rfl⟩ (.inr trivial)
  | integer n =>
    rw [render]
    by_cases h : n.natAbs ≤ 2 ^ 53 - 1
    · rw [renderInteger_of_within h]
      simp [Disguised, h]
    · rw [renderInteger_of_beyond h]
      exact iff_of_true ⟨_, rfl⟩ (.inr h)
  | float x =>
    rw [render, renderFloat]
    cases h : x.isFinite with
    | true => simp [Disguised, h]
    | false => exact iff_of_true ⟨_, rfl⟩ (.inr h)
  | _ => simp [render, taggedMap, Disguised]

theorem not_text_of_disguised (h : Disguised v) (s : String) : v ≠ text s := by
  rintro rfl
  exact h

/-! ## Where a name is no text -/

/-- The first pair with a name that is no text shows where the list is misread. -/
theorem misread_of_name {items : List Snapshot} {g : Group Snapshot} (hg : g ∈ groups (render true) items)
    {p : Snapshot × Snapshot} (hp : p ∈ g.pairs) (hname : ¬ ∃ s, p.1 = text s) : Misread items := by
  classical
  obtain ⟨q, hq⟩ : ∃ q, (g.pairs.find? fun p => ¬ ∃ s, p.1 = text s) = some q := by
    rw [← Option.isSome_iff_exists, List.find?_isSome]
    exact ⟨p, hp, decide_eq_true hname⟩
  obtain ⟨hq, earlier, later, hpairs, hearlier⟩ := List.find?_eq_some_iff_append.mp hq
  have hmem : q ∈ g.pairs := by
    rw [hpairs]
    exact List.mem_append_right _ List.mem_cons_self
  obtain ⟨hkept, hstr⟩ := of_mem_groups hg hmem
  obtain ⟨before, after, hitems⟩ := exists_eq_of_mem_groups hg
  rw [Group.items, hpairs, spread_append] at hitems
  refine ⟨before, g.kept, earlier, q.1, q.2, spread later ++ after, ?_, isObject_render_iff.mp hkept, ?_, ?_⟩
  · rw [hitems]
    simp [spread]
  · intro r hr
    simpa using hearlier r hr
  · exact (exists_render_eq_str_iff.mp hstr).resolve_left (of_decide_eq_true hq)

/-- What is misread is taken for a name. -/
theorem name_of_misread {items : List Snapshot} (h : Misread items) :
    ∃ g ∈ groups (render true) items, ∃ p ∈ g.pairs, ¬ ∃ s, p.1 = text s := by
  obtain ⟨before, holder, pairs, key, value, after, rfl, hholder, htexts, hkey⟩ := h
  have hobject : IsObject (render true holder) := isObject_render_iff.mpr hholder
  obtain ⟨front, first, hfirst, hgroups⟩ := groups_of_holder hobject before (spread pairs ++ key :: value :: after)
  -- the pairs of texts are folded, so the next item is looked at as a name
  have hpairs : ∀ p ∈ pairs ++ [(key, value)], ∃ name, render true p.1 = .str name := by
    intro p hp
    rw [exists_render_eq_str_iff]
    rcases List.mem_append.mp hp with hp | hp
    · exact .inl (htexts p hp)
    · rw [List.mem_singleton.mp hp]
      exact .inr hkey
  have hrest := groupsAfter_pairs hfirst hpairs after
  rw [spread_append, List.append_assoc] at hrest
  obtain ⟨g, hg, -, hsub⟩ := exists_mem_groupsAfter ⟨first.kept, first.pairs ++ (pairs ++ [(key, value)])⟩ after
  rw [← hrest] at hg
  refine ⟨g, ?_, (key, value), hsub (by simp), fun ⟨s, hs⟩ => not_text_of_disguised hkey s hs⟩
  rw [hgroups]
  exact List.mem_append_right _ hg

/-- **Only texts are names, but where a list is misread.** A list falls into groups, in which every item has its place, and
each group comes to one item of the rendering: its first item, with the pairs that follow folded into it, the first of
each pair being the name. All names are texts exactly if the list is not misread: if behind no map or record, nor behind
pairs of a text and a value that follow one, there stands something else that is rendered as a string, with one more
item behind it. So a list without texts is rendered item by item exactly if it is not misread. -/
theorem names_are_texts_iff (items : List Snapshot) :
    render true (sequence items) = .arr ((groups (render true) items).map (Group.folded (render true))) ∧
    (groups (render true) items).flatMap Group.items = items ∧
    ((∀ g ∈ groups (render true) items, ∀ p ∈ g.pairs, ∃ s, p.1 = text s) ↔ ¬ Misread items) ∧
    ((∀ v ∈ items, ∀ s, v ≠ text s) →
      (render true (sequence items) = .arr (items.map (render true)) ↔ ¬ Misread items)) := by
  have hnames : (∀ g ∈ groups (render true) items, ∀ p ∈ g.pairs, ∃ s, p.1 = text s) ↔ ¬ Misread items := by
    constructor
    · intro h hmisread
      obtain ⟨g, hg, p, hp, hname⟩ := name_of_misread hmisread
      exact hname (h g hg p hp)
    · intro h g hg p hp
      by_contra hname
      exact h (misread_of_name hg hp hname)
  refine ⟨render_sequence items, groups_items items, hnames, fun htexts => ?_⟩
  rw [← hnames, render_sequence, Json.arr.injEq, map_folded_eq_map_iff]
  refine forall₂_congr fun g hg => ?_
  constructor
  · intro h p hp
    rw [h] at hp
    cases hp
  · intro h
    refine List.eq_nil_iff_forall_not_mem.mpr fun p hp => ?_
    obtain ⟨s, hs⟩ := h p hp
    exact htexts p.1 ((mem_of_mem_groups hg).2 p hp).1 s hs

/-- Two octets between a record and a number are taken for the name of a member. -/
theorem octets_become_a_name :
    (∀ v ∈ [record [("a", integer 1)], binary [1, 2], integer 3], ∀ s, v ≠ text s) ∧
      Misread [record [("a", integer 1)], binary [1, 2], integer 3] ∧
      render true (sequence [record [("a", integer 1)], binary [1, 2], integer 3]) =
        .arr [.obj [("a", .int 1), ("AQI=", .int 3)]] := by
  refine ⟨by simp, ⟨[], _, [], _, _, [], rfl, trivial, by simp, trivial⟩, ?_⟩
  rfl

end TransitLink.Snapshot
