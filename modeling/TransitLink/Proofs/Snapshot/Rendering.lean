import TransitLink.Proofs.Json.Parts
import TransitLink.Snapshot.Render
import TransitLink.Proofs.Snapshot.Parts

/-!
# Rendering part by part

* `renderItems_eq_map`, `renderEntries_eq_map`, `render_record` : lists and maps are rendered value by value; a record's
  members are those of its fields that stand for no object, merged.
* `exists_compactAfter` : what compaction does to the first item of a list.
* `mapLeaves` : a value with its leaves, that is all values inside that hold no others, replaced.
* `render_mapLeaves` : if the rendering of no leaf changes, neither does that of the value.
-/

namespace TransitLink.Snapshot

set_option autoImplicit false

variable {compacting : Bool}

theorem renderItems_eq_map (items : List Snapshot) : renderItems compacting items = items.map (render compacting) := by
  induction items with
  | nil => rfl
  | cons v vs ih => rw [renderItems, ih, List.map_cons]

theorem renderEntries_eq_map (es : List (Snapshot × Snapshot)) :
    renderEntries compacting es = es.map fun e => .arr [render compacting e.1, render compacting e.2] := by
  induction es with
  | nil => rfl
  | cons e es ih => rw [renderEntries, ih, List.map_cons]

theorem renderFields_eq_putAll (sofar : Members Json) (fs : List (String × Snapshot)) :
    renderFields compacting sofar fs =
      sofar.putAll ((fs.filter fun f => !isPlaceholder f.1).map fun f => (f.1, render compacting f.2)) := by
  induction fs generalizing sofar with
  | nil => rfl
  | cons f fs ih =>
    rw [renderFields, ih, List.filter_cons]
    cases isPlaceholder f.1 <;> rfl

theorem render_record (fs : List (String × Snapshot)) : render compacting (record fs) =
    .obj (Members.merge ((fs.filter fun f => !isPlaceholder f.1).map fun f => (f.1, render compacting f.2))) := by
  rw [render, renderFields_eq_putAll]
  rfl

/-- The first item of a list stays what it is, but that an object may take members in. -/
theorem exists_compactAfter (last : Json) (items : List Json) : ∃ j tail, compactAfter last items = j :: tail ∧
    (j = last ∨ ∃ ms ms', last = .obj ms ∧ j = .obj ms') := by
  fun_induction compactAfter last items with
  | case1 last => exact ⟨last, [], rfl, .inl rfl⟩
  | case2 last item => exact ⟨last, [item], rfl, .inl rfl⟩
  | case3 next items ms name ih =>
    obtain ⟨j, tail, hcompact, hj⟩ := ih
    refine ⟨j, tail, hcompact, .inr ?_⟩
    rcases hj with rfl | ⟨_, ms', -, rfl⟩
    · exact ⟨ms, _, rfl, rfl⟩
    · exact ⟨ms, ms', rfl, rfl⟩
  | case4 last item next items hkeep ih => exact ⟨last, _, rfl, .inl rfl⟩

/-! ## Leaves -/

mutual

/-- The value with every leaf `u` as `f u`. -/
def mapLeaves (f : Snapshot → Snapshot) : Snapshot → Snapshot
  | sequence items => sequence (mapLeavesItems f items)
  | mapping es => mapping (mapLeavesEntries f es)
  | record fs => record (mapLeavesFields f fs)
  | v => f v

def mapLeavesItems (f : Snapshot → Snapshot) : List Snapshot → List Snapshot
  | [] => []
  | v :: vs => mapLeaves f v :: mapLeavesItems f vs

def mapLeavesEntries (f : Snapshot → Snapshot) : List (Snapshot × Snapshot) → List (Snapshot × Snapshot)
  | [] => []
  | (k, v) :: es => (mapLeaves f k, mapLeaves f v) :: mapLeavesEntries f es

def mapLeavesFields (f : Snapshot → Snapshot) : List (String × Snapshot) → List (String × Snapshot)
  | [] => []
  | (k, v) :: fs => (k, mapLeaves f v) :: mapLeavesFields f fs

end

variable {f : Snapshot → Snapshot}

theorem mapLeaves_sequence (items : List Snapshot) : mapLeaves f (sequence items) = sequence (items.map (mapLeaves f)) := by
  have hitems : mapLeavesItems f items = items.map (mapLeaves f) := by
    induction items with
    | nil => rfl
    | cons v vs ih => rw [mapLeavesItems, ih, List.map_cons]
  rw [mapLeaves, hitems]

theorem mapLeaves_mapping (es : List (Snapshot × Snapshot)) :
    mapLeaves f (mapping es) = mapping (es.map fun e => (mapLeaves f e.1, mapLeaves f e.2)) := by
  have hentries : mapLeavesEntries f es = es.map fun e => (mapLeaves f e.1, mapLeaves f e.2) := by
    induction es with
    | nil => rfl
    | cons e es ih => rw [mapLeavesEntries, ih, List.map_cons]
  rw [mapLeaves, hentries]

theorem mapLeaves_record (fs : List (String × Snapshot)) :
    mapLeaves f (record fs) = record (fs.map fun x => (x.1, mapLeaves f x.2)) := by
  have hfields : mapLeavesFields f fs = fs.map fun x => (x.1, mapLeaves f x.2) := by
    induction fs with
    | nil => rfl
    | cons x fs ih => rw [mapLeavesFields, ih, List.map_cons]
  rw [mapLeaves, hfields]

/-- **A value is rendered by its leaves.** -/
theorem render_mapLeaves (hf : ∀ u, render compacting (f u) = render compacting u) (v : Snapshot) :
    render compacting (mapLeaves f v) = render compacting v := by
  induction v with
  | sequence items ih =>
    have hitems : (items.map (mapLeaves f)).map (render compacting) = items.map (render compacting) := by
      rw [List.map_map]
      exact List.map_congr_left ih
    rw [mapLeaves_sequence, render, render, renderItems_eq_map, renderItems_eq_map, hitems]
  | mapping es ih =>
    have hentries : renderEntries compacting (es.map fun e => (mapLeaves f e.1, mapLeaves f e.2)) =
        renderEntries compacting es := by
      rw [renderEntries_eq_map, renderEntries_eq_map, List.map_map]
      refine List.map_congr_left fun e he => ?_
      rw [Function.comp_apply, (ih e he).1, (ih e he).2]
    rw [mapLeaves_mapping, render, render, hentries]
  | record fs ih =>
    have hfields : ((fs.map fun x => (x.1, mapLeaves f x.2)).filter fun x => !isPlaceholder x.1).map
        (fun x => (x.1, render compacting x.2)) =
        (fs.filter fun x => !isPlaceholder x.1).map fun x => (x.1, render compacting x.2) := by
      rw [List.filter_map, List.map_map]
      refine List.map_congr_left fun x hx => ?_
      rw [Function.comp_apply, ih x (List.mem_filter.mp hx).1]
    rw [mapLeaves_record, render_record, render_record, hfields]
  | nil => exact hf nil
  | boolean b => exact hf (boolean b)
  | integer n => exact hf (integer n)
  | float x => exact hf (float x)
  | text s => exact hf (text s)
  | binary bs => exact hf (binary bs)

end TransitLink.Snapshot
