import Mathlib.Logic.Relation
import TransitLink.Proofs.Snapshot.Rendering

/-!
# Records are rendered by name

* `isPlaceholder_iff` : the names that stand for objects.
* `DropsField` : the values that differ by one field that stands for an object, in a record anywhere inside.
* `render_eq_of_dropsField` : such a field does not show in the rendering.
* `bare` : the value without these fields. `drops_bare` : it is what is left when one after the other is dropped.
* `records_render_by_name` : the members of a rendered record, and what does not count for them.
-/

namespace TransitLink.Snapshot

open Relation (ReflTransGen)

set_option autoImplicit false

variable {compacting : Bool}

theorem isPlaceholder_iff {name : String} : isPlaceholder name = true ↔ ∃ rest, name = "[object " ++ rest := by
  rw [isPlaceholder, List.isPrefixOf_iff_prefix]
  constructor
  · rintro ⟨rest, hrest⟩
    refine ⟨String.ofList rest, ?_⟩
    change name = placeholderStart ++ String.ofList rest
    rw [← String.toList_inj, String.toList_append, String.toList_ofList]
    exact hrest.symm
  · rintro ⟨rest, rfl⟩
    exact ⟨rest.toList, String.toList_append.symm⟩

/-! ## The members of a record -/

/-- The names of a rendered record are those of its fields, each where it comes first. -/
theorem names_members (fs : List (String × Snapshot)) :
    (Members.merge ((fs.filter fun f => !isPlaceholder f.1).map fun f => (f.1, render compacting f.2))).names =
      ((fs.map Prod.fst).filter fun name => !isPlaceholder name).eraseDups := by
  rw [Members.names_merge, Members.names, List.map_map, List.filter_map]
  rfl

/-- The value under a name is that of the last field with this name. -/
theorem find?_members_of_last {before after : List (String × Snapshot)} {name : String}
    (hname : isPlaceholder name = false) (hlast : name ∉ after.map Prod.fst) (v : Snapshot) :
    Members.find? name (Members.merge (((before ++ (name, v) :: after).filter fun f => !isPlaceholder f.1).map
      fun f => (f.1, render compacting f.2))) = some (render compacting v) := by
  have hfresh : name ∉ Members.names ((after.filter fun f => !isPlaceholder f.1).map
      fun f => (f.1, render compacting f.2)) := by
    rw [Members.names, List.map_map]
    intro hmem
    obtain ⟨f, hf, rfl⟩ := List.mem_map.mp hmem
    exact hlast (List.mem_map_of_mem (List.mem_filter.mp hf).1)
  rw [Members.find?_merge, List.filter_append, List.filter_cons_of_pos (by rw [hname]; rfl), List.map_append,
    List.map_cons]
  exact Members.find?_reverse_of_last hfresh _

/-! ## Fields that are dropped -/

/-- `DropsField v w`: the value `w` is `v` without one field that stands for an object, in a record anywhere inside. -/
inductive DropsField : Snapshot → Snapshot → Prop where
  | here (before after : List (String × Snapshot)) (rest : String) (v : Snapshot) :
      DropsField (record (before ++ ("[object " ++ rest, v) :: after)) (record (before ++ after))
  | item {v w : Snapshot} (before after : List Snapshot) : DropsField v w →
      DropsField (sequence (before ++ v :: after)) (sequence (before ++ w :: after))
  | key {v w : Snapshot} (before after : List (Snapshot × Snapshot)) (u : Snapshot) : DropsField v w →
      DropsField (mapping (before ++ (v, u) :: after)) (mapping (before ++ (w, u) :: after))
  | value {v w : Snapshot} (before after : List (Snapshot × Snapshot)) (k : Snapshot) : DropsField v w →
      DropsField (mapping (before ++ (k, v) :: after)) (mapping (before ++ (k, w) :: after))
  | field {v w : Snapshot} (before after : List (String × Snapshot)) (name : String) : DropsField v w →
      DropsField (record (before ++ (name, v) :: after)) (record (before ++ (name, w) :: after))

variable {v w : Snapshot}

theorem render_eq_of_dropsField (h : DropsField v w) : render compacting v = render compacting w := by
  induction h with
  | here before after rest v =>
    have hplaceholder : isPlaceholder ("[object " ++ rest) = true := isPlaceholder_iff.mpr ⟨rest, rfl⟩
    rw [render_record, render_record, List.filter_append, List.filter_append,
      List.filter_cons_of_neg (by simp [hplaceholder])]
  | item before after _ ih =>
    rw [render, render, renderItems_eq_map, renderItems_eq_map, List.map_append, List.map_append, List.map_cons,
      List.map_cons, ih]
  | key before after u _ ih | value before after k _ ih =>
    rw [render, render, renderEntries_eq_map, renderEntries_eq_map, List.map_append, List.map_append, List.map_cons,
      List.map_cons, ih]
  | field before after name _ ih =>
    rw [render_record, render_record, List.filter_append, List.filter_append, List.filter_cons, List.filter_cons,
      List.map_append, List.map_append]
    split
    · rw [List.map_cons, List.map_cons, ih]
    · rfl

theorem render_eq_of_drops (h : ReflTransGen DropsField v w) : render compacting v = render compacting w := by
  induction h with
  | refl => rfl
  | tail _ hdrops ih => exact ih.trans (render_eq_of_dropsField hdrops)

/-! ## Values without such fields -/

mutual

/-- The value without the fields, in records anywhere inside, that stand for objects. -/
def bare : Snapshot → Snapshot
  | sequence items => sequence (bareItems items)
  | mapping es => mapping (bareEntries es)
  | record fs => record (bareFields fs)
  | v => v

def bareItems : List Snapshot → List Snapshot
  | [] => []
  | v :: vs => bare v :: bareItems vs

def bareEntries : List (Snapshot × Snapshot) → List (Snapshot × Snapshot)
  | [] => []
  | (k, v) :: es => (bare k, bare v) :: bareEntries es

def bareFields : List (String × Snapshot) → List (String × Snapshot)
  | [] => []
  | (name, v) :: fs => if isPlaceholder name then bareFields fs else (name, bare v) :: bareFields fs

end

theorem bareItems_eq_map (items : List Snapshot) : bareItems items = items.map bare := by
  induction items with
  | nil => rfl
  | cons v vs ih => rw [bareItems, ih, List.map_cons]

theorem bareEntries_eq_map (es : List (Snapshot × Snapshot)) : bareEntries es = es.map fun e => (bare e.1, bare e.2) := by
  induction es with
  | nil => rfl
  | cons e es ih => rw [bareEntries, ih, List.map_cons]

theorem bareFields_eq_flatMap (fs : List (String × Snapshot)) :
    bareFields fs = fs.flatMap fun f => if isPlaceholder f.1 then [] else [(f.1, bare f.2)] := by
  induction fs with
  | nil => rfl
  | cons f fs ih =>
    rw [bareFields, ih, List.flatMap_cons]
    split <;> rfl

/-- What is done to the members of a list one after the other is done to the list. -/
theorem drops_flatMap {α : Type} {hold : List α → Snapshot} {f : α → List α} {xs : List α}
    (h : ∀ before x after, x ∈ xs →
      ReflTransGen DropsField (hold (before ++ x :: after)) (hold (before ++ (f x ++ after)))) :
    ReflTransGen DropsField (hold xs) (hold (xs.flatMap f)) := by
  -- what is done already stands ahead of the members that are left
  suffices hfrom : ∀ done, ReflTransGen DropsField (hold (done ++ xs)) (hold (done ++ xs.flatMap f)) from hfrom []
  induction xs with
  | nil => exact fun done => .refl
  | cons x xs ih =>
    intro done
    have hrest := ih (fun before y after hy => h before y after (List.mem_cons_of_mem _ hy)) (done ++ f x)
    rw [List.append_assoc, List.append_assoc, ← List.flatMap_cons] at hrest
    exact (h done x xs List.mem_cons_self).trans hrest

theorem drops_bare (v : Snapshot) : ReflTransGen DropsField v (bare v) := by
  induction v with
  | sequence items ih =>
    rw [bare, bareItems_eq_map, List.map_eq_flatMap]
    refine drops_flatMap fun before v after hv => ?_
    exact ReflTransGen.lift (fun w => sequence (before ++ w :: after))
      (fun _ _ h => DropsField.item before after h) _ _ (ih v hv)
  | mapping es ih =>
    rw [bare, bareEntries_eq_map, List.map_eq_flatMap]
    refine drops_flatMap fun before e after he => ?_
    have hkey := ReflTransGen.lift (fun w => mapping (before ++ (w, e.2) :: after))
      (fun _ _ h => DropsField.key before after e.2 h) _ _ (ih e he).1
    have hvalue := ReflTransGen.lift (fun w => mapping (before ++ (bare e.1, w) :: after))
      (fun _ _ h => DropsField.value before after (bare e.1) h) _ _ (ih e he).2
    exact hkey.trans hvalue
  | record fs ih =>
    rw [bare, bareFields_eq_flatMap]
    refine drops_flatMap fun before f after hf => ?_
    split
    · rename_i hplaceholder
      obtain ⟨name, v⟩ := f
      obtain ⟨rest, rfl⟩ := isPlaceholder_iff.mp hplaceholder
      exact .single (.here before after rest v)
    · exact ReflTransGen.lift (fun w => record (before ++ (f.1, w) :: after))
        (fun _ _ h => DropsField.field before after f.1 h) _ _ (ih f hf)
  | _ => exact .refl

/-- No record inside a bare value has a field that stands for an object. -/
theorem not_isPlaceholder_of_bare {fs : List (String × Snapshot)} (h : Part (record fs) (bare v)) :
    ∀ f ∈ fs, isPlaceholder f.1 = false := by
  induction v with
  | sequence items ih =>
    rw [bare, bareItems_eq_map] at h
    cases h with
    | item hw hpart =>
      obtain ⟨v, hv, rfl⟩ := List.mem_map.mp hw
      exact ih v hv hpart
  | mapping es ih =>
    rw [bare, bareEntries_eq_map] at h
    cases h with
    | key he hpart =>
      obtain ⟨e, hmem, rfl⟩ := List.mem_map.mp he
      exact (ih e hmem).1 hpart
    | value he hpart =>
      obtain ⟨e, hmem, rfl⟩ := List.mem_map.mp he
      exact (ih e hmem).2 hpart
  | record gs ih =>
    rw [bare, bareFields_eq_flatMap] at h
    have hkept : ∀ f ∈ gs.flatMap (fun g => if isPlaceholder g.1 then [] else [(g.1, bare g.2)]),
        ∃ g ∈ gs, isPlaceholder g.1 = false ∧ f = (g.1, bare g.2) := by
      intro f hf
      obtain ⟨g, hg, hf⟩ := List.mem_flatMap.mp hf
      split at hf
      · cases hf
      · exact ⟨g, hg, eq_false_of_ne_true ‹_›, List.mem_singleton.mp hf⟩
    cases h with
    | self =>
      intro f hf
      obtain ⟨g, -, hg, rfl⟩ := hkept f hf
      exact hg
    | field hf hpart =>
      obtain ⟨g, hg, -, rfl⟩ := hkept _ hf
      exact ih g hg hpart
  | _ => cases h

/-- **Records are rendered by name.** Whatever fields a record has, it is rendered as an object. Its names are those of the
fields, without the names that begin as that of an object without a text of its own, each once and where it comes first;
and the value under a name is the rendering of the value of the last field with this name. The fields that are left out
leave no trace: when such fields are dropped one after the other, in records anywhere inside a value, the rendering of the
whole stays the same, up to the value in which there is none left. -/
theorem records_render_by_name (compacting : Bool) :
    (∀ fs, ∃ ms, render compacting (record fs) = .obj ms ∧
      Members.names ms = ((fs.map Prod.fst).filter fun name => !isPlaceholder name).eraseDups ∧
      ∀ before name v after, fs = before ++ (name, v) :: after → isPlaceholder name = false →
        name ∉ after.map Prod.fst → Members.find? name ms = some (render compacting v)) ∧
    (∀ name, isPlaceholder name = true ↔ ∃ rest, name = "[object " ++ rest) ∧
    (∀ v w, ReflTransGen DropsField v w → render compacting v = render compacting w) ∧
    ∀ v, ReflTransGen DropsField v (bare v) ∧
      ∀ fs, Part (record fs) (bare v) → ∀ f ∈ fs, isPlaceholder f.1 = false := by
  refine ⟨fun fs => ⟨_, render_record fs, names_members fs, ?_⟩, fun _ => isPlaceholder_iff,
    fun _ _ => render_eq_of_drops, fun v => ⟨drops_bare v, fun _ => not_isPlaceholder_of_bare⟩⟩
  rintro before name v after rfl hname hlast
  exact find?_members_of_last hname hlast v

example : render true (record [("b", nil), ("[object Object]", text "x"), ("a", nil), ("b", text "y")]) =
    .obj [("b", .str "y"), ("a", .null)] := rfl

end TransitLink.Snapshot
