import TransitLink.Proofs.Outcome
import TransitLink.Proofs.Snapshot.RoundTrip

/-!
# What has been read can be written and read again

* `Legible depth v` : the value can be written, and what is written is read as the value itself, by a reader that lets
  containers nest `depth` deep. Lists and maps take one level (`legible_sequence`, `legible_ofEntries`).
* `Marker.isSound` : a marker announces integers of the 64-bit ranges and lengths of four octets.
* `legible_of_read` : every value that is read is legible, in whichever of its forms it was met.
* `unpack_canonical` : so reading, writing and reading again changes nothing.
-/

namespace TransitLink.Snapshot

set_option autoImplicit false

/-! ## Canonical values -/

theorem map_eq_self_iff {α : Type} {f : α → α} {xs : List α} : xs.map f = xs ↔ ∀ x ∈ xs, f x = x := by
  have h := List.map_inj_left (l := xs) (f := f) (g := id)
  rwa [List.map_id] at h

theorem fields?_eq_none_iff {es : List (Snapshot × Snapshot)} : fields? es = none ↔ ∃ e ∈ es, ∀ s, e.1 ≠ text s := by
  fun_induction fields? es with
  | case1 => simp
  | case2 k v es ih => simp [ih]
  | case3 e es hkey =>
    refine ⟨fun _ => ⟨e, List.mem_cons_self, fun s hs => ?_⟩, fun _ => rfl⟩
    exact hkey s e.2 (Prod.ext hs rfl)

theorem canonical_sequence_eq_self_iff {items : List Snapshot} :
    canonical (sequence items) = sequence items ↔ ∀ v ∈ items, canonical v = v := by
  rw [canonical, canonicalItems_eq_map, sequence.injEq, map_eq_self_iff]

theorem canonical_mapping_eq_self_iff {es : List (Snapshot × Snapshot)} :
    canonical (mapping es) = mapping es ↔ fields? es = none ∧ ∀ e ∈ es, canonical e.1 = e.1 ∧ canonical e.2 = e.2 := by
  have hpairs : (es.map fun e => (canonical e.1, canonical e.2)) = es ↔
      ∀ e ∈ es, canonical e.1 = e.1 ∧ canonical e.2 = e.2 := by
    simp only [map_eq_self_iff, Prod.ext_iff]
  rw [canonical, ofEntries, canonicalEntries_eq_map, ← hpairs]
  constructor
  · intro h
    split at h
    · cases h
    · rename_i hnone
      rw [mapping.injEq] at h
      rw [h] at hnone
      exact ⟨hnone, h⟩
  · rintro ⟨hnone, hes⟩
    rw [hes, hnone]

theorem canonical_record_eq_self_iff {fs : List (String × Snapshot)} :
    canonical (record fs) = record fs ↔ ∀ f ∈ fs, canonical f.2 = f.2 := by
  simp only [canonical, canonicalFields_eq_map, record.injEq, map_eq_self_iff, Prod.ext_iff, true_and]

theorem Part.canonical_eq_self {u v : Snapshot} (hu : Part u v) (hv : canonical v = v) : canonical u = u := by
  induction hu with
  | self => exact hv
  | item hmem _ ih => exact ih (canonical_sequence_eq_self_iff.mp hv _ hmem)
  | key hmem _ ih => exact ih ((canonical_mapping_eq_self_iff.mp hv).2 _ hmem).1
  | value hmem _ ih => exact ih ((canonical_mapping_eq_self_iff.mp hv).2 _ hmem).2
  | field hmem _ ih => exact ih (canonical_record_eq_self_iff.mp hv _ hmem)

/-! ## Legible values -/

/-- The value can be written, and reading gives it back as it is where containers may nest `depth` deep. -/
structure Legible (depth : Nat) (v : Snapshot) : Prop where
  stable : canonical v = v
  sized : Sized v
  held : unpackable? v = none
  shallow : nesting v ≤ depth

theorem Legible.read_octets {depth : Nat} {v : Snapshot} (h : Legible depth v) (rest : Bytes) :
    read depth (octets v ++ rest) = .ok (v, rest) := by
  rw [Snapshot.read_octets v h.sized h.held depth h.shallow, h.stable]

theorem legible_leaf {depth : Nat} {v : Snapshot} (hpart : ∀ u, Part u v → u = v) (hfits : Fits v)
    (hstable : canonical v = v) (hheld : unpackable? v = none) (hnesting : nesting v = 0) : Legible depth v := by
  refine ⟨hstable, fun u hu => ?_, hheld, ?_⟩
  · rw [hpart u hu]
    exact hfits
  · rw [hnesting]
    exact Nat.zero_le depth

theorem legible_integer {depth : Nat} {n : Int} (h : holdable n = true) : Legible depth (integer n) := by
  have hheld : unpackable? (integer n) = none := by rw [unpackable?, if_pos h]
  exact legible_leaf (by rintro _ ⟨⟩; rfl) trivial rfl hheld rfl

theorem legible_text {depth : Nat} {s : String} (h : (Bytes.ofText s).length < 2 ^ 32) : Legible depth (text s) :=
  legible_leaf (by rintro _ ⟨⟩; rfl) h rfl rfl rfl

theorem legible_binary {depth : Nat} {bs : Bytes} (h : bs.length < 2 ^ 32) : Legible depth (binary bs) :=
  legible_leaf (by rintro _ ⟨⟩; rfl) h rfl rfl rfl

theorem legible_ofContent {depth : Nat} {bs : Bytes} (h : bs.length < 2 ^ 32) : Legible depth (ofContent bs) := by
  unfold ofContent
  split
  · rename_i s hs
    rw [← Bytes.ofText_of_text? hs] at h
    exact legible_text h
  · exact legible_binary h

theorem legible_sequence {depth : Nat} {items : List Snapshot} (hlength : items.length < 2 ^ 32)
    (hitems : ∀ v ∈ items, Legible depth v) : Legible (depth + 1) (sequence items) where
  stable := canonical_sequence_eq_self_iff.mpr fun v hv => (hitems v hv).stable
  sized := sized_sequence_iff.mpr ⟨hlength, fun v hv => (hitems v hv).sized⟩
  held := unpackableInItems?_eq_none_iff.mpr fun v hv => (hitems v hv).held
  shallow := Nat.succ_le_succ (nestingItems_le_iff.mpr fun v hv => (hitems v hv).shallow)

theorem legible_ofEntries {depth : Nat} {es : List (Snapshot × Snapshot)} (hlength : es.length < 2 ^ 32)
    (hes : ∀ e ∈ es, Legible depth e.1 ∧ Legible depth e.2) : Legible (depth + 1) (ofEntries es) := by
  unfold ofEntries
  split
  · -- the keys are texts, so what is known of them is that their lengths fit
    rename_i fs hfs
    rw [fields?_eq_some_iff] at hfs
    subst hfs
    rw [List.length_map] at hlength
    have hfields : ∀ f ∈ fs, Legible depth (text f.1) ∧ Legible depth f.2 :=
      fun f hf => hes _ (List.mem_map_of_mem hf)
    exact
      { stable := canonical_record_eq_self_iff.mpr fun f hf => (hfields f hf).2.stable
        sized := sized_record_iff.mpr ⟨hlength, fun f hf => ⟨(hfields f hf).1.sized _ (.self _), (hfields f hf).2.sized⟩⟩
        held := unpackableInFields?_eq_none_iff.mpr fun f hf => (hfields f hf).2.held
        shallow := Nat.succ_le_succ (nestingFields_le_iff.mpr fun f hf => (hfields f hf).2.shallow) }
  · rename_i hnone
    exact
      { stable := canonical_mapping_eq_self_iff.mpr ⟨hnone, fun e he => ⟨(hes e he).1.stable, (hes e he).2.stable⟩⟩
        sized := sized_mapping_iff.mpr ⟨hlength, fun e he => ⟨(hes e he).1.sized, (hes e he).2.sized⟩⟩
        held := unpackableInEntries?_eq_none_iff.mpr fun e he => ⟨(hes e he).1.held, (hes e he).2.held⟩
        shallow := Nat.succ_le_succ
          (nestingEntries_le_iff.mpr fun e he => ⟨(hes e he).1.shallow, (hes e he).2.shallow⟩) }

/-! ## What markers announce -/

def Extent.isShort : Extent → Bool
  | .known n => n < 2 ^ 32
  | .field width => width ≤ 4

/-- Integers are in the 64-bit ranges, and lengths have at most four octets. -/
def Marker.isSound : Marker → Bool
  | .small n => holdable n
  | .natural width => width ≤ 8
  | .signed width => width = 1 ∨ width = 2 ∨ width = 4 ∨ width = 8
  | .text size => size.isShort
  | .binary size => size.isShort
  | .list count => count.isShort
  | .map count => count.isShort
  | .extension size => size.isShort
  | _ => true

set_option maxRecDepth 4096 in
theorem Marker.isSound_ofOctet (b : UInt8) : (Marker.ofOctet b).isSound = true :=
  Bytes.forall_octet (p := fun b => (Marker.ofOctet b).isSound = true) (by decide) b

theorem lt_of_readNatural {width n : Nat} {bs rest : Bytes} (h : readNatural width bs = .ok (n, rest)) :
    n < 256 ^ width := by
  unfold readNatural at h
  rw [Bytes.split?_eq] at h
  by_cases hle : width ≤ bs.length
  · simp only [if_pos hle, Except.ok.injEq, Prod.mk.injEq] at h
    have hlt := Bytes.ofBigEndian_lt (bs.take width)
    rwa [h.1, List.length_take, Nat.min_eq_left hle] at hlt
  · simp [if_neg hle] at h

theorem lt_of_readExtent {size : Extent} {n : Nat} {bs rest : Bytes} (hsize : size.isShort = true)
    (h : readExtent size bs = .ok (n, rest)) : n < 2 ^ 32 := by
  cases size with
  | known m =>
    cases h
    simpa [Extent.isShort] using hsize
  | field width =>
    have hwidth : width ≤ 4 := by simpa [Extent.isShort] using hsize
    calc n < 256 ^ width := lt_of_readNatural h
      _ ≤ 256 ^ 4 := Nat.pow_le_pow_right (by decide) hwidth

theorem length_of_readContent {n : Nat} {bs ds rest : Bytes} (h : readContent n bs = .ok (ds, rest)) : ds.length = n := by
  unfold readContent at h
  rw [Bytes.split?_eq] at h
  by_cases hle : n ≤ bs.length
  · simp only [if_pos hle, Except.ok.injEq, Prod.mk.injEq] at h
    rw [← h.1, List.length_take, Nat.min_eq_left hle]
  · simp [if_neg hle] at h

theorem length_lt_of_readContent {size : Extent} {n : Nat} {bs bs' ds rest : Bytes}
    (hsize : size.isShort = true) (hn : readExtent size bs = .ok (n, bs')) {cs : Bytes}
    (hds : readContent n cs = .ok (ds, rest)) : ds.length < 2 ^ 32 := by
  rw [length_of_readContent hds]
  exact lt_of_readExtent hsize hn

theorem of_readMany {α : Type} {item : Reader α} {p : α → Prop} (hitem : ∀ bs x rest, item bs = .ok (x, rest) → p x)
    {n : Nat} {done xs : List α} {bs rest : Bytes} (h : readMany item done n bs = .ok (xs, rest)) :
    ∃ new, xs = done.reverse ++ new ∧ new.length = n ∧ ∀ x ∈ new, p x := by
  induction n generalizing done bs with
  | zero =>
    cases h
    exact ⟨[], by simp⟩
  | succ n ih =>
    rw [readMany] at h
    cases hx : item bs with
    | error e => simp [hx] at h
    | ok read =>
      obtain ⟨x, bs'⟩ := read
      simp only [hx] at h
      obtain ⟨new, rfl, hlength, hnew⟩ := ih h
      refine ⟨x :: new, by simp, by simp [hlength], ?_⟩
      exact List.forall_mem_cons.mpr ⟨hitem bs x bs' hx, hnew⟩

theorem holdable_natural {width n : Nat} (hwidth : width ≤ 8) (h : n < 256 ^ width) : holdable n = true := by
  have hlt : n < 256 ^ 8 := Nat.lt_of_lt_of_le h (Nat.pow_le_pow_right (by decide) hwidth)
  rw [holdable_iff]
  omega

theorem holdable_signed {width n : Nat} (hwidth : width = 1 ∨ width = 2 ∨ width = 4 ∨ width = 8)
    (h : n < 256 ^ width) : holdable (Bytes.signed (8 * width) n) = true := by
  rw [holdable_iff]
  rcases hwidth with rfl | rfl | rfl | rfl <;> (unfold Bytes.signed; split <;> omega)

/-! ## What is read -/

theorem legible_of_readAfter {item : Option (Reader Snapshot)} {depth : Nat}
    (hitem : ∀ r, item = some r → ∃ d, depth = d + 1 ∧ ∀ bs v rest, r bs = .ok (v, rest) → Legible d v)
    {marker : Marker} (hmarker : marker.isSound = true) {bs rest : Bytes} {v : Snapshot}
    (h : readAfter item marker bs = .ok (v, rest)) : Legible depth v := by
  cases marker with
  | nil =>
    cases h
    exact legible_leaf (by rintro _ ⟨⟩; rfl) trivial rfl rfl rfl
  | boolean b =>
    cases h
    exact legible_leaf (by rintro _ ⟨⟩; rfl) trivial rfl rfl rfl
  | small n =>
    cases h
    exact legible_integer hmarker
  | natural width =>
    obtain ⟨⟨n, bs⟩, hn, h⟩ := bind_eq_ok_iff.mp h
    cases h
    exact legible_integer (holdable_natural (by simpa [Marker.isSound] using hmarker) (lt_of_readNatural hn))
  | signed width =>
    obtain ⟨⟨n, bs⟩, hn, h⟩ := bind_eq_ok_iff.mp h
    cases h
    exact legible_integer (holdable_signed (by simpa [Marker.isSound] using hmarker) (lt_of_readNatural hn))
  | single | double =>
    obtain ⟨⟨n, bs⟩, -, h⟩ := bind_eq_ok_iff.mp h
    cases h
    exact legible_leaf (by rintro _ ⟨⟩; rfl) trivial rfl rfl rfl
  | text size =>
    obtain ⟨⟨n, bs⟩, hn, h⟩ := bind_eq_ok_iff.mp h
    obtain ⟨⟨ds, bs⟩, hds, h⟩ := bind_eq_ok_iff.mp h
    cases h
    exact legible_ofContent (length_lt_of_readContent hmarker hn hds)
  | binary size =>
    obtain ⟨⟨n, bs⟩, hn, h⟩ := bind_eq_ok_iff.mp h
    obtain ⟨⟨ds, bs⟩, hds, h⟩ := bind_eq_ok_iff.mp h
    cases h
    exact legible_binary (length_lt_of_readContent hmarker hn hds)
  | list count =>
    obtain ⟨⟨n, bs⟩, hn, h⟩ := bind_eq_ok_iff.mp h
    cases item with
    | none => cases h
    | some r =>
      obtain ⟨d, rfl, hr⟩ := hitem r rfl
      obtain ⟨⟨items, bs⟩, hitems, h⟩ := bind_eq_ok_iff.mp h
      cases h
      obtain ⟨_, rfl, hlength, hlegible⟩ := of_readMany hr hitems
      apply legible_sequence
      · rw [hlength]
        exact lt_of_readExtent hmarker hn
      · exact hlegible
  | map count =>
    obtain ⟨⟨n, bs⟩, hn, h⟩ := bind_eq_ok_iff.mp h
    cases item with
    | none => cases h
    | some r =>
      obtain ⟨d, rfl, hr⟩ := hitem r rfl
      obtain ⟨⟨es, bs⟩, hes, h⟩ := bind_eq_ok_iff.mp h
      cases h
      have hentry : ∀ bs (e : Snapshot × Snapshot) rest, readEntry r bs = .ok (e, rest) →
          Legible d e.1 ∧ Legible d e.2 := by
        intro bs e rest he
        obtain ⟨⟨k, bs'⟩, hk, he⟩ := bind_eq_ok_iff.mp he
        obtain ⟨⟨v, bs''⟩, hv, he⟩ := bind_eq_ok_iff.mp he
        cases he
        exact ⟨hr _ _ _ hk, hr _ _ _ hv⟩
      obtain ⟨_, rfl, hlength, hlegible⟩ := of_readMany hentry hes
      apply legible_ofEntries
      · rw [hlength]
        exact lt_of_readExtent hmarker hn
      · exact hlegible
  | extension size =>
    obtain ⟨⟨n, bs⟩, hn, h⟩ := bind_eq_ok_iff.mp h
    cases item with
    | none => cases h
    | some r =>
      obtain ⟨d, rfl, -⟩ := hitem r rfl
      obtain ⟨⟨type, bs⟩, htype, h⟩ := bind_eq_ok_iff.mp h
      obtain ⟨⟨ds, bs⟩, hds, h⟩ := bind_eq_ok_iff.mp h
      cases h
      have hinteger : holdable (Bytes.signed (8 * 1) type) = true :=
        holdable_signed (.inl rfl) (lt_of_readNatural htype)
      apply legible_sequence
      · rw [List.length_cons, List.length_singleton]
        decide
      · rw [List.forall_mem_cons, List.forall_mem_singleton]
        exact ⟨legible_integer hinteger, legible_binary (length_lt_of_readContent hmarker hn hds)⟩
  | reserved => cases h

theorem legible_of_readWith {item : Option (Reader Snapshot)} {depth : Nat}
    (hitem : ∀ r, item = some r → ∃ d, depth = d + 1 ∧ ∀ bs v rest, r bs = .ok (v, rest) → Legible d v)
    {bs rest : Bytes} {v : Snapshot} (h : readWith item bs = .ok (v, rest)) : Legible depth v := by
  cases bs with
  | nil => cases h
  | cons b bs => exact legible_of_readAfter hitem (Marker.isSound_ofOctet b) h

/-- **What is read can be written and read again.** -/
theorem legible_of_read {depth : Nat} {bs rest : Bytes} {v : Snapshot} (h : read depth bs = .ok (v, rest)) :
    Legible depth v := by
  -- over the depth, since that is what the reader recurses on: a container hands one level less to the values inside
  induction depth generalizing bs rest v with
  | zero =>
    rw [read] at h
    exact legible_of_readWith (by simp) h
  | succ depth ih =>
    rw [read] at h
    refine legible_of_readWith (fun r hr => ⟨depth, rfl, ?_⟩) h
    cases hr
    exact fun _ _ _ => ih

/-- **What is read is canonical.** Whatever octets give a value, in whichever forms its integers, lengths and doubles
were written and whatever follows it: no map inside has texts for all its keys, no integer inside, keys of maps included,
is outside the 64-bit ranges, writing the value succeeds, and reading what is written gives the same value, to the bits of
doubles. -/
theorem unpack_canonical (bs : Bytes) (v : Snapshot) (h : unpack bs = .ok v) :
    (∀ es, Part (mapping es) v → ∃ e ∈ es, ∀ s, e.1 ≠ text s) ∧
    (∀ n, Part (integer n) v → -2 ^ 63 ≤ n ∧ n < 2 ^ 64) ∧
    ∃ again, pack v = .ok again ∧ ∀ rest, unpack (again ++ rest) = .ok v := by
  have hlegible : Legible maxDepth v := by
    unfold unpack at h
    cases hread : read maxDepth bs with
    | error e => simp [hread, Except.map] at h
    | ok result =>
      simp only [hread, Except.map, Except.ok.injEq] at h
      rw [← h]
      exact legible_of_read hread
  refine ⟨fun es hes => ?_, fun n hn => ?_, octets v, ?_, fun rest => ?_⟩
  · exact fields?_eq_none_iff.mp (canonical_mapping_eq_self_iff.mp (hes.canonical_eq_self hlegible.stable)).1
  · exact holdable_iff.mp (unpackable?_eq_none_iff.mp hlegible.held n hn)
  · rw [pack, hlegible.held]
  · rw [unpack, hlegible.read_octets]
    rfl

/-- A key that is no UTF-8, a count and an integer in longer forms than needed, a signalling NaN of single precision, an
extension, and one octet too many. -/
theorem odd_forms_are_reread :
    unpack [0x81, 0xd9, 1, 0xff, 0xdc, 0, 3, 0xcf, 0, 0, 0, 0, 0, 0, 0, 5, 0xca, 0x7f, 0xa0, 0, 0, 0xd4, 0xfe, 0xab, 0xc1] =
        .ok (mapping [(binary [0xff],
          sequence [integer 5, float ⟨0x7ffc000000000000⟩, sequence [integer (-2), binary [0xab]]])]) ∧
      ∃ again, pack (mapping [(binary [0xff],
          sequence [integer 5, float ⟨0x7ffc000000000000⟩, sequence [integer (-2), binary [0xab]]])]) = .ok again ∧
        ∀ rest, unpack (again ++ rest) = .ok (mapping [(binary [0xff],
          sequence [integer 5, float ⟨0x7ffc000000000000⟩, sequence [integer (-2), binary [0xab]]])]) := by
  have hread : unpack [0x81, 0xd9, 1, 0xff, 0xdc, 0, 3, 0xcf, 0, 0, 0, 0, 0, 0, 0, 5, 0xca, 0x7f, 0xa0, 0, 0, 0xd4, 0xfe,
      0xab, 0xc1] = .ok (mapping [(binary [0xff],
        sequence [integer 5, float ⟨0x7ffc000000000000⟩, sequence [integer (-2), binary [0xab]]])]) := rfl
  exact ⟨hread, (unpack_canonical _ _ hread).2.2⟩

end TransitLink.Snapshot
