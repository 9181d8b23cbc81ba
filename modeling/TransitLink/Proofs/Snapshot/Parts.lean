import TransitLink.Snapshot.Pack

/-!
# Parts of a snapshot

* `Snapshot.induct` : what holds of a value whenever it holds of the values right inside it holds of all values.
* `Part` : the value itself, and everything inside it, keys of maps included.
* `nesting` : how deep containers nest. `Sized` : all lengths fit four octets.
* `canonicalItems_eq_map`, `itemsOctets_eq_flatMap` and the like : what is done to the values inside one after the other.
* `fields?_eq_some_iff` : the maps that are records.
* `unpackable?_eq_none_iff` : a value can be written if every integer inside can be held.
-/

namespace TransitLink.Snapshot

set_option autoImplicit false

@[elab_as_elim, induction_eliminator]
theorem induct {motive : Snapshot → Prop} (nil : motive .nil) (boolean : ∀ b, motive (.boolean b))
    (integer : ∀ n, motive (.integer n)) (float : ∀ x, motive (.float x)) (text : ∀ s, motive (.text s))
    (binary : ∀ bs, motive (.binary bs)) (sequence : ∀ items, (∀ v ∈ items, motive v) → motive (.sequence items))
    (mapping : ∀ es, (∀ e ∈ es, motive e.1 ∧ motive e.2) → motive (.mapping es))
    (record : ∀ fs, (∀ f ∈ fs, motive f.2) → motive (.record fs)) (v : Snapshot) : motive v :=
  -- of a list of values it is said that all in it have the property
  @Snapshot.rec motive (fun items => ∀ v ∈ items, motive v) (fun es => ∀ e ∈ es, motive e.1 ∧ motive e.2)
    (fun fs => ∀ f ∈ fs, motive f.2) (fun e => motive e.1 ∧ motive e.2) (fun f => motive f.2)
    nil boolean integer float text binary sequence mapping record
    (fun _ h => absurd h List.not_mem_nil) (fun _ _ hv hvs => List.forall_mem_cons.mpr ⟨hv, hvs⟩)
    (fun _ h => absurd h List.not_mem_nil) (fun _ _ he hes => List.forall_mem_cons.mpr ⟨he, hes⟩)
    (fun _ h => absurd h List.not_mem_nil) (fun _ _ hf hfs => List.forall_mem_cons.mpr ⟨hf, hfs⟩)
    (fun _ _ hk hv => ⟨hk, hv⟩) (fun _ _ hv => hv) v

/-! ## Parts -/

/-- `Part u v`: the value `u` is `v` itself or stands anywhere inside it, as an item, a key, a value or a field. -/
inductive Part : Snapshot → Snapshot → Prop where
  | self (v : Snapshot) : Part v v
  | item {u v : Snapshot} {items : List Snapshot} : v ∈ items → Part u v → Part u (sequence items)
  | key {u : Snapshot} {e : Snapshot × Snapshot} {es : List (Snapshot × Snapshot)} : e ∈ es → Part u e.1 →
      Part u (mapping es)
  | value {u : Snapshot} {e : Snapshot × Snapshot} {es : List (Snapshot × Snapshot)} : e ∈ es → Part u e.2 →
      Part u (mapping es)
  | field {u : Snapshot} {f : String × Snapshot} {fs : List (String × Snapshot)} : f ∈ fs → Part u f.2 →
      Part u (record fs)

mutual

/-- How deep containers nest: a value without any has none. -/
def nesting : Snapshot → Nat
  | sequence items => nestingItems items + 1
  | mapping es => nestingEntries es + 1
  | record fs => nestingFields fs + 1
  | _ => 0

def nestingItems : List Snapshot → Nat
  | [] => 0
  | v :: vs => max (nesting v) (nestingItems vs)

def nestingEntries : List (Snapshot × Snapshot) → Nat
  | [] => 0
  | (k, v) :: es => max (max (nesting k) (nesting v)) (nestingEntries es)

def nestingFields : List (String × Snapshot) → Nat
  | [] => 0
  | (_, v) :: fs => max (nesting v) (nestingFields fs)

end

theorem nestingItems_le_iff {items : List Snapshot} {depth : Nat} :
    nestingItems items ≤ depth ↔ ∀ v ∈ items, nesting v ≤ depth := by
  induction items with
  | nil => simp [nestingItems]
  | cons v vs ih => rw [nestingItems, Nat.max_le, ih, List.forall_mem_cons]

theorem nestingEntries_le_iff {es : List (Snapshot × Snapshot)} {depth : Nat} :
    nestingEntries es ≤ depth ↔ ∀ e ∈ es, nesting e.1 ≤ depth ∧ nesting e.2 ≤ depth := by
  induction es with
  | nil => simp [nestingEntries]
  | cons e es ih => rw [nestingEntries, Nat.max_le, Nat.max_le, ih, List.forall_mem_cons]

theorem nestingFields_le_iff {fs : List (String × Snapshot)} {depth : Nat} :
    nestingFields fs ≤ depth ↔ ∀ f ∈ fs, nesting f.2 ≤ depth := by
  induction fs with
  | nil => simp [nestingFields]
  | cons f fs ih => rw [nestingFields, Nat.max_le, ih, List.forall_mem_cons]

/-! ## Lengths -/

/-- The lengths in the value's own header, and in those of its field names, fit four octets. -/
def Fits : Snapshot → Prop
  | text s => (Bytes.ofText s).length < 2 ^ 32
  | binary bs => bs.length < 2 ^ 32
  | sequence items => items.length < 2 ^ 32
  | mapping es => es.length < 2 ^ 32
  | record fs => fs.length < 2 ^ 32 ∧ ∀ f ∈ fs, (Bytes.ofText f.1).length < 2 ^ 32
  | _ => True

/-- All texts, octets and containers in the value have lengths that fit four octets. -/
def Sized (v : Snapshot) : Prop := ∀ u, Part u v → Fits u

theorem sized_sequence_iff {items : List Snapshot} :
    Sized (sequence items) ↔ items.length < 2 ^ 32 ∧ ∀ v ∈ items, Sized v := by
  constructor
  · intro h
    exact ⟨h _ (.self _), fun v hv u hu => h u (.item hv hu)⟩
  · rintro ⟨hlength, hitems⟩ u hu
    cases hu with
    | self => exact hlength
    | item hv hu => exact hitems _ hv u hu

theorem sized_mapping_iff {es : List (Snapshot × Snapshot)} :
    Sized (mapping es) ↔ es.length < 2 ^ 32 ∧ ∀ e ∈ es, Sized e.1 ∧ Sized e.2 := by
  constructor
  · intro h
    exact ⟨h _ (.self _), fun e he => ⟨fun u hu => h u (.key he hu), fun u hu => h u (.value he hu)⟩⟩
  · rintro ⟨hlength, hentries⟩ u hu
    cases hu with
    | self => exact hlength
    | key he hu => exact (hentries _ he).1 u hu
    | value he hu => exact (hentries _ he).2 u hu

theorem sized_record_iff {fs : List (String × Snapshot)} :
    Sized (record fs) ↔ fs.length < 2 ^ 32 ∧ ∀ f ∈ fs, (Bytes.ofText f.1).length < 2 ^ 32 ∧ Sized f.2 := by
  constructor
  · intro h
    have hfits : Fits (record fs) := h _ (.self _)
    exact ⟨hfits.1, fun f hf => ⟨hfits.2 f hf, fun u hu => h u (.field hf hu)⟩⟩
  · rintro ⟨hlength, hfields⟩ u hu
    cases hu with
    | self => exact ⟨hlength, fun f hf => (hfields f hf).1⟩
    | field hf hu => exact (hfields _ hf).2 u hu

/-! ## One after the other -/

theorem canonicalItems_eq_map (items : List Snapshot) : canonicalItems items = items.map canonical := by
  induction items with
  | nil => rfl
  | cons v vs ih => rw [canonicalItems, ih, List.map_cons]

theorem canonicalEntries_eq_map (es : List (Snapshot × Snapshot)) :
    canonicalEntries es = es.map fun e => (canonical e.1, canonical e.2) := by
  induction es with
  | nil => rfl
  | cons e es ih => rw [canonicalEntries, ih, List.map_cons]

theorem canonicalFields_eq_map (fs : List (String × Snapshot)) :
    canonicalFields fs = fs.map fun f => (f.1, canonical f.2) := by
  induction fs with
  | nil => rfl
  | cons f fs ih => rw [canonicalFields, ih, List.map_cons]

theorem itemsOctets_eq_flatMap (items : List Snapshot) : itemsOctets items = items.flatMap octets := by
  induction items with
  | nil => rfl
  | cons v vs ih => rw [itemsOctets, ih, List.flatMap_cons]

theorem entriesOctets_eq_flatMap (es : List (Snapshot × Snapshot)) :
    entriesOctets es = es.flatMap fun e => octets e.1 ++ octets e.2 := by
  induction es with
  | nil => rfl
  | cons e es ih => rw [entriesOctets, ih, List.flatMap_cons, List.append_assoc]

theorem fieldsOctets_eq_flatMap (fs : List (String × Snapshot)) :
    fieldsOctets fs = fs.flatMap fun f => textOctets f.1 ++ octets f.2 := by
  induction fs with
  | nil => rfl
  | cons f fs ih => rw [fieldsOctets, ih, List.flatMap_cons, List.append_assoc]

/-- A map is a record if its keys are the names of the fields. -/
theorem fields?_eq_some_iff {es : List (Snapshot × Snapshot)} {fs : List (String × Snapshot)} :
    fields? es = some fs ↔ es = fs.map fun f => (text f.1, f.2) := by
  fun_induction fields? es generalizing fs with
  | case1 => cases fs <;> simp
  | case2 k v es ih =>
    rw [Option.map_eq_some_iff]
    constructor
    · rintro ⟨fs', hfs, rfl⟩
      rw [List.map_cons, ih.mp hfs]
    · intro h
      cases fs with
      | nil => cases h
      | cons f fs =>
        rw [List.map_cons, List.cons.injEq, Prod.mk.injEq, text.injEq] at h
        obtain ⟨⟨rfl, rfl⟩, hes⟩ := h
        exact ⟨fs, ih.mpr hes, rfl⟩
  | case3 e es hkey =>
    refine ⟨fun h => (by cases h), fun h => ?_⟩
    cases fs with
    | nil => cases h
    | cons f fs =>
      rw [List.map_cons, List.cons.injEq] at h
      exact absurd h.1 (hkey f.1 f.2)

theorem ofEntries_texts (fs : List (String × Snapshot)) : ofEntries (fs.map fun f => (text f.1, f.2)) = record fs := by
  rw [ofEntries, fields?_eq_some_iff.mpr rfl]

/-! ## Integers -/

theorem holdable_iff {n : Int} : holdable n = true ↔ -2 ^ 63 ≤ n ∧ n < 2 ^ 64 := by
  rw [holdable, Bool.and_eq_true, decide_eq_true_eq, decide_eq_true_eq]

theorem unpackableInItems?_eq_none_iff {items : List Snapshot} :
    unpackableInItems? items = none ↔ ∀ v ∈ items, unpackable? v = none := by
  induction items with
  | nil => simp [unpackableInItems?]
  | cons v vs ih => rw [unpackableInItems?, Option.or_eq_none_iff, ih, List.forall_mem_cons]

theorem unpackableInEntries?_eq_none_iff {es : List (Snapshot × Snapshot)} :
    unpackableInEntries? es = none ↔ ∀ e ∈ es, unpackable? e.1 = none ∧ unpackable? e.2 = none := by
  induction es with
  | nil => simp [unpackableInEntries?]
  | cons e es ih =>
    rw [unpackableInEntries?, Option.or_eq_none_iff, Option.or_eq_none_iff, ih, List.forall_mem_cons, and_assoc]

theorem unpackableInFields?_eq_none_iff {fs : List (String × Snapshot)} :
    unpackableInFields? fs = none ↔ ∀ f ∈ fs, unpackable? f.2 = none := by
  induction fs with
  | nil => simp [unpackableInFields?]
  | cons f fs ih => rw [unpackableInFields?, Option.or_eq_none_iff, ih, List.forall_mem_cons]

theorem unpackable?_eq_none_iff {v : Snapshot} :
    unpackable? v = none ↔ ∀ n, Part (integer n) v → holdable n = true := by
  induction v with
  | integer n =>
    rw [unpackable?]
    constructor
    · intro h m hm
      cases hm
      by_cases hn : holdable n = true
      · exact hn
      · rw [if_neg hn] at h
        cases h
    · intro h
      rw [if_pos (h n (.self _))]
  | sequence items ih =>
    rw [unpackable?, unpackableInItems?_eq_none_iff]
    constructor
    · intro h n hn
      cases hn with
      | item hv hn => exact (ih _ hv).mp (h _ hv) n hn
    · intro h v hv
      exact (ih v hv).mpr fun n hn => h n (.item hv hn)
  | mapping es ih =>
    rw [unpackable?, unpackableInEntries?_eq_none_iff]
    constructor
    · intro h n hn
      cases hn with
      | key he hn => exact (ih _ he).1.mp (h _ he).1 n hn
      | value he hn => exact (ih _ he).2.mp (h _ he).2 n hn
    · intro h e he
      exact ⟨(ih e he).1.mpr fun n hn => h n (.key he hn), (ih e he).2.mpr fun n hn => h n (.value he hn)⟩
  | record fs ih =>
    rw [unpackable?, unpackableInFields?_eq_none_iff]
    constructor
    · intro h n hn
      cases hn with
      | field hf hn => exact (ih _ hf).mp (h _ hf) n hn
    · intro h f hf
      exact (ih f hf).mpr fun n hn => h n (.field hf hn)
  | _ => exact ⟨fun _ n hn => (by cases hn), fun _ => rfl⟩

end TransitLink.Snapshot
