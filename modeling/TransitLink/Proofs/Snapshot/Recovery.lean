import Mathlib
import TransitLink.Proofs.Base64.Decoding
import TransitLink.Proofs.Snapshot.Rendering

/-!
# What a rendering tells of a value

* `shape` : a value with its leaves blanked, and `quieted` : with every NaN as one.
* `renderInteger_injective`, `renderFloat_eq_iff` : integers and doubles are told apart by their rendering, but for NaNs.
* `Distinct` : records repeat no name and have no field that is dropped.
* `render_tells_apart` : of values of one shape, the rendering without compaction tells all, but for NaNs.
-/

namespace TransitLink.Snapshot

set_option autoImplicit false

/-! ## Shapes -/

/-- A leaf with nothing in it but its kind. -/
def blank : Snapshot → Snapshot
  | boolean _ => boolean false
  | integer _ => integer 0
  | float _ => float ⟨0⟩
  | text _ => text ""
  | binary _ => binary []
  | v => v

/-- The value with all leaves blanked: the kinds, the lengths, and the names of fields in their order. -/
def shape (v : Snapshot) : Snapshot := mapLeaves blank v

def plainNaN : Double := ⟨0x7ff8000000000000⟩

def quiet : Snapshot → Snapshot
  | float x => float (if x.isNaN then plainNaN else x)
  | v => v

def quieted (v : Snapshot) : Snapshot := mapLeaves quiet v

/-- In every record, names are pairwise different and none is one that is dropped. -/
def Distinct (v : Snapshot) : Prop :=
  ∀ fs, Part (record fs) v → (fs.map Prod.fst).Nodup ∧ ∀ name ∈ fs.map Prod.fst, ¬ "[object ".toList <+: name.toList

theorem render_distinct {fs : List (String × Snapshot)} (hnodup : (fs.map Prod.fst).Nodup)
    (hnames : ∀ name ∈ fs.map Prod.fst, ¬ "[object ".toList <+: name.toList) (compacting : Bool) :
    render compacting (record fs) = .obj (fs.map fun f => (f.1, render compacting f.2)) := by
  have hkept : (fs.filter fun f => !isPlaceholder f.1) = fs := by
    rw [List.filter_eq_self]
    intro f hf
    have hname : isPlaceholder f.1 ≠ true :=
      fun hprefix => hnames f.1 (List.mem_map_of_mem hf) (List.isPrefixOf_iff_prefix.mp hprefix)
    simpa using hname
  rw [render_record, hkept, Members.merge_of_nodup]
  rw [Members.names, List.map_map]
  exact hnodup

theorem shape_sequence_eq {us : List Snapshot} {v : Snapshot} (h : shape (sequence us) = shape v) :
    ∃ vs, v = sequence vs ∧ us.map shape = vs.map shape := by
  unfold shape at h
  rw [mapLeaves_sequence] at h
  cases v with
  | sequence vs =>
    rw [mapLeaves_sequence, sequence.injEq] at h
    exact ⟨vs, rfl, h⟩
  | _ => cases h

theorem shape_mapping_eq {es : List (Snapshot × Snapshot)} {v : Snapshot} (h : shape (mapping es) = shape v) :
    ∃ ds, v = mapping ds ∧ (es.map fun e => (shape e.1, shape e.2)) = ds.map fun e => (shape e.1, shape e.2) := by
  unfold shape at h
  rw [mapLeaves_mapping] at h
  cases v with
  | mapping ds =>
    rw [mapLeaves_mapping, mapping.injEq] at h
    exact ⟨ds, rfl, h⟩
  | _ => cases h

theorem shape_record_eq {fs : List (String × Snapshot)} {v : Snapshot} (h : shape (record fs) = shape v) :
    ∃ gs, v = record gs ∧ (fs.map fun f => (f.1, shape f.2)) = gs.map fun f => (f.1, shape f.2) := by
  unfold shape at h
  rw [mapLeaves_record] at h
  cases v with
  | record gs =>
    rw [mapLeaves_record, record.injEq] at h
    exact ⟨gs, rfl, h⟩
  | _ => cases h

/-! ## Leaves -/

theorem renderInteger_injective {m n : Int} (h : renderInteger m = renderInteger n) : m = n := by
  unfold renderInteger at h
  split at h <;> split at h
  · exact Json.int.inj h
  · cases h
  · cases h
  · exact Int.repr_inj.mp (Json.str.inj h)

theorem eq_infinity {x : Double} (hfinite : x.isFinite = false) (hnan : x.isNaN = false) :
    x = Double.infinity x.isNegative := by
  have hfield : x.field = 2047 := by simpa [Double.isFinite] using hfinite
  have hfraction : x.fraction = 0 := by simpa [Double.isNaN, hfield] using hnan
  have hbits := x.bits.toNat_lt
  -- the sign, the exponent and the fraction make up the bits
  have hparts : x.bits.toNat = Double.signBit x.isNegative + 2047 * 2 ^ 52 := by
    unfold Double.field at hfield
    unfold Double.fraction at hfraction
    unfold Double.isNegative Double.signBit
    by_cases hsign : 2 ^ 63 ≤ x.bits.toNat
    · rw [decide_eq_true hsign, if_pos rfl]
      omega
    · rw [decide_eq_false hsign, if_neg Bool.false_ne_true]
      omega
  cases x
  rw [Double.infinity, ← hparts, UInt64.ofNat_toNat]

/-- Doubles are rendered alike only if they are the same, but for NaNs. -/
theorem quiet_of_renderFloat {x y : Double} (h : renderFloat x = renderFloat y) : quiet (float x) = quiet (float y) := by
  unfold renderFloat at h
  cases hx : x.isFinite <;> cases hy : y.isFinite <;> simp only [hx, hy, reduceCtorEq, if_true, if_false,
    Bool.false_eq_true, Json.str.injEq, Json.float.injEq] at h
  · -- neither is finite: the names are those of NaN and of the two infinities
    cases hnx : x.isNaN <;> cases hny : y.isNaN <;> simp only [hnx, hny, if_true, if_false, Bool.false_eq_true] at h
    · have hsign : x.isNegative = y.isNegative := by
        cases hsx : x.isNegative <;> cases hsy : y.isNegative <;> simp [hsx, hsy] at h ⊢
      rw [eq_infinity hx hnx, eq_infinity hy hny, hsign]
    · cases hsx : x.isNegative <;> simp [hsx] at h
    · cases hsy : y.isNegative <;> simp [hsy] at h
    · rw [quiet, quiet, hnx, hny]
      rfl
  · rw [h]

/-! ## Values -/

theorem map_eq_map_of {α β γ δ : Type} {f : α → β} {g : α → γ} {h : α → δ} {xs ys : List α} (hf : xs.map f = ys.map f)
    (hg : xs.map g = ys.map g) (hstep : ∀ x ∈ xs, ∀ y ∈ ys, f x = f y → g x = g y → h x = h y) :
    xs.map h = ys.map h := by
  induction xs generalizing ys with
  | nil =>
    rw [List.map_nil, eq_comm, List.map_eq_nil_iff] at hf
    rw [hf]
  | cons x xs ih =>
    cases ys with
    | nil => cases hf
    | cons y ys =>
      rw [List.map_cons, List.map_cons, List.cons.injEq] at hf hg
      have hhead := hstep x List.mem_cons_self y List.mem_cons_self hf.1 hg.1
      have htail := ih hf.2 hg.2 fun x hx y hy => hstep x (List.mem_cons_of_mem _ hx) y (List.mem_cons_of_mem _ hy)
      rw [List.map_cons, List.map_cons, hhead, htail]

theorem render_quiet {compacting : Bool} (u : Snapshot) : render compacting (quiet u) = render compacting u := by
  cases u with
  | float x =>
    cases hnan : x.isNaN with
    | false => simp [quiet, hnan]
    | true =>
      have hfinite : x.isFinite = false := by
        simp only [Double.isNaN, Bool.and_eq_true, beq_iff_eq] at hnan
        simp [Double.isFinite, hnan.1]
      have hplain : renderFloat plainNaN = .str "NaN" := rfl
      rw [quiet, hnan, if_pos rfl, render, render, hplain, renderFloat, hfinite, hnan]
      rfl
  | _ => rfl

theorem quieted_of_render {u v : Snapshot} (hshape : shape u = shape v) (hdistinct : Distinct u)
    (h : render false u = render false v) : quieted u = quieted v := by
  -- over the one value; the shape says of which kind the other is, so that the two are taken apart together
  induction u generalizing v with
  | nil =>
    cases v with
    | nil => rfl
    | _ => cases hshape
  | boolean b =>
    cases v with
    | boolean c => rw [Json.bool.inj h]
    | _ => cases hshape
  | integer n =>
    cases v with
    | integer m => rw [renderInteger_injective h]
    | _ => cases hshape
  | float x =>
    cases v with
    | float y => exact quiet_of_renderFloat h
    | _ => cases hshape
  | text s =>
    cases v with
    | text t => rw [Json.str.inj h]
    | _ => cases hshape
  | binary bs =>
    cases v with
    | binary cs => rw [Base64.encodeText_injective (Json.str.inj h)]
    | _ => cases hshape
  | sequence us ih =>
    obtain ⟨vs, rfl, hshapes⟩ := shape_sequence_eq hshape
    have hrenders : us.map (render false) = vs.map (render false) := by
      rw [render, render, renderItems_eq_map, renderItems_eq_map] at h
      exact Json.arr.inj h
    rw [quieted, quieted, mapLeaves_sequence, mapLeaves_sequence, sequence.injEq]
    exact map_eq_map_of hshapes hrenders fun u hu v _ hs hr => ih u hu hs (fun fs hfs => hdistinct fs (.item hu hfs)) hr
  | mapping es ih =>
    obtain ⟨ds, rfl, hshapes⟩ := shape_mapping_eq hshape
    have hrenders : (es.map fun e => Json.arr [render false e.1, render false e.2]) =
        ds.map fun e => Json.arr [render false e.1, render false e.2] := by
      rw [render, render, renderEntries_eq_map, renderEntries_eq_map, taggedMap, taggedMap] at h
      simpa using h
    rw [quieted, quieted, mapLeaves_mapping, mapLeaves_mapping, mapping.injEq]
    refine map_eq_map_of hshapes hrenders fun e he d _ hs hr => ?_
    rw [Prod.mk.injEq] at hs
    rw [Json.arr.injEq, List.cons.injEq, List.cons.injEq] at hr
    have hkey := (ih e he).1 hs.1 (fun fs hfs => hdistinct fs (.key he hfs)) hr.1
    have hvalue := (ih e he).2 hs.2 (fun fs hfs => hdistinct fs (.value he hfs)) hr.2.1
    exact Prod.ext hkey hvalue
  | record fs ih =>
    obtain ⟨gs, rfl, hshapes⟩ := shape_record_eq hshape
    obtain ⟨hnodup, hnames⟩ := hdistinct fs (.self _)
    -- the other record has the same names, so none of its fields is merged or dropped either
    have hsame : fs.map Prod.fst = gs.map Prod.fst := by
      have hfirst := congrArg (List.map Prod.fst) hshapes
      rwa [List.map_map, List.map_map] at hfirst
    rw [render_distinct hnodup hnames, render_distinct (hsame ▸ hnodup) (hsame ▸ hnames), Json.obj.injEq] at h
    rw [quieted, quieted, mapLeaves_record, mapLeaves_record, record.injEq]
    refine map_eq_map_of hshapes h fun f hf g _ hs hr => ?_
    rw [Prod.mk.injEq] at hs hr
    exact Prod.ext hs.1 (ih f hf hs.2 (fun fs hfs => hdistinct fs (.field hf hfs)) hr.2)

/-- **Rendering without compaction loses nothing.** Take two values of one shape: of the same kind at every position, with
the same lengths, and with the same names of fields in the same order, where no record repeats a name or has one that
stands for an object without a text. They are rendered alike exactly if they are the same, all NaNs being one: integers
of any size, doubles to their bits, texts, octets and the entries of maps can be had back from the rendering. -/
theorem render_tells_apart (u v : Snapshot) (hshape : shape u = shape v) (hdistinct : Distinct u) :
    render false u = render false v ↔ quieted u = quieted v := by
  constructor
  · exact quieted_of_render hshape hdistinct
  · intro h
    rw [← render_mapLeaves render_quiet u, ← render_mapLeaves render_quiet v]
    exact congrArg (render false) h

/-- Two integers that no double tells apart, as keys of maps that hold two NaNs. -/
theorem neighbours_are_told_apart :
    shape (record [("id", mapping [(integer 9007199254740992, float ⟨0x7ff8000000000001⟩)])]) =
        shape (record [("id", mapping [(integer 9007199254740993, float ⟨0xfff8000000000000⟩)])]) ∧
      Distinct (record [("id", mapping [(integer 9007199254740992, float ⟨0x7ff8000000000001⟩)])]) ∧
      render false (record [("id", mapping [(integer 9007199254740992, float ⟨0x7ff8000000000001⟩)])]) ≠
        render false (record [("id", mapping [(integer 9007199254740993, float ⟨0xfff8000000000000⟩)])]) := by
  have hshape : shape (record [("id", mapping [(integer 9007199254740992, float ⟨0x7ff8000000000001⟩)])]) =
      shape (record [("id", mapping [(integer 9007199254740993, float ⟨0xfff8000000000000⟩)])]) := rfl
  have hdistinct : Distinct (record [("id", mapping [(integer 9007199254740992, float ⟨0x7ff8000000000001⟩)])]) := by
    intro fs hfs
    cases hfs with
    | self => decide
    | field hf hfs =>
      rw [List.mem_singleton] at hf
      subst hf
      -- neither the key nor the value is a record
      cases hfs with
      | key he hfs =>
        rw [List.mem_singleton] at he
        subst he
        cases hfs
      | value he hfs =>
        rw [List.mem_singleton] at he
        subst he
        cases hfs
  refine ⟨hshape, hdistinct, fun h => ?_⟩
  have hquieted := (render_tells_apart _ _ hshape hdistinct).mp h
  simp [quieted, mapLeaves, mapLeavesFields, mapLeavesEntries, quiet] at hquieted

end TransitLink.Snapshot
