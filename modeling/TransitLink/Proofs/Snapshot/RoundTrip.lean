import TransitLink.Proofs.Snapshot.Headers
import TransitLink.Proofs.Snapshot.Parts

/-!
# Snapshots read back

* `read_octets` : a value that can be written is read back, maps of texts as records, and nothing after it is touched.
* `pack_unpack` : when writing fails, and what reading gives when it does not.
-/

namespace TransitLink.Snapshot

set_option autoImplicit false

/-! ## Values without values inside -/

theorem readAfter_text {item : Option (Reader Snapshot)} (s : String) (rest : Bytes) :
    readAfter item (.text (.known (Bytes.ofText s).length)) (Bytes.ofText s ++ rest) = .ok (text s, rest) := by
  simp only [readAfter, readExtent, bind, Except.bind, readContent_append, ofContent, Bytes.text?_ofText]

theorem readAfter_binary {item : Option (Reader Snapshot)} (bs rest : Bytes) :
    readAfter item (.binary (.known bs.length)) (bs ++ rest) = .ok (binary bs, rest) := by
  simp only [readAfter, readExtent, bind, Except.bind, readContent_append]

theorem readWith_textOctets {item : Option (Reader Snapshot)} {s : String} (hs : (Bytes.ofText s).length < 2 ^ 32)
    (rest : Bytes) : readWith item (textOctets s ++ rest) = .ok (text s, rest) := by
  rw [textOctets, List.append_assoc, readWith_textHeader hs, readAfter_text]

theorem readWith_float {item : Option (Reader Snapshot)} (x : Double) (rest : Bytes) :
    readWith item (octet 0xcb ++ Bytes.toBigEndian 8 x.bits.toNat ++ rest) = .ok (float x, rest) := by
  have hbits : x.bits.toNat < 256 ^ 8 := x.bits.toNat_lt
  have hmarker : Marker.ofOctet (.ofNat 0xcb) = .double := by decide
  rw [List.append_assoc, readWith_octet, hmarker]
  simp only [readAfter, bind, Except.bind, readNatural_toBigEndian hbits, UInt64.ofNat_toNat]

/-! ## Containers -/

theorem readAfter_list {item : Reader Snapshot} {items : List Snapshot} {f : Snapshot → Snapshot}
    (h : ∀ v ∈ items, ∀ rest, item (octets v ++ rest) = .ok (f v, rest)) (rest : Bytes) :
    readAfter (some item) (.list (.known items.length)) (items.flatMap octets ++ rest) =
      .ok (sequence (items.map f), rest) := by
  simp only [readAfter, readExtent, bind, Except.bind, readMany_flatMap h, List.reverse_nil, List.nil_append]

theorem readAfter_map {α : Type} {item : Reader Snapshot} {xs : List α} {writeKey writeValue : α → Bytes}
    {key value : α → Snapshot}
    (hkey : ∀ x ∈ xs, ∀ rest, item (writeKey x ++ rest) = .ok (key x, rest))
    (hvalue : ∀ x ∈ xs, ∀ rest, item (writeValue x ++ rest) = .ok (value x, rest)) (rest : Bytes) :
    readAfter (some item) (.map (.known xs.length)) (xs.flatMap (fun x => writeKey x ++ writeValue x) ++ rest) =
      .ok (ofEntries (xs.map fun x => (key x, value x)), rest) := by
  have hentry : ∀ x ∈ xs, ∀ rest, readEntry item (writeKey x ++ writeValue x ++ rest) = .ok ((key x, value x), rest) := by
    intro x hx rest
    simp only [readEntry, bind, Except.bind, List.append_assoc, hkey x hx, hvalue x hx]
  simp only [readAfter, readExtent, bind, Except.bind, readMany_flatMap hentry, List.reverse_nil, List.nil_append]

theorem read_of_leaf {depth : Nat} {bs : Bytes} {x : Except UnpackFault (Snapshot × Bytes)}
    (h : ∀ item, readWith item bs = x) : read depth bs = x := by
  cases depth with
  | zero => exact h none
  | succ depth => exact h (some (read depth))

/-- **What is written is read back.** -/
theorem read_octets (v : Snapshot) (hsized : Sized v) (hheld : unpackable? v = none) (depth : Nat)
    (hdepth : nesting v ≤ depth) (rest : Bytes) : read depth (octets v ++ rest) = .ok (canonical v, rest) := by
  -- over the value; a container uses up one level, so the values inside are read with one less
  induction v generalizing depth rest with
  | nil => exact read_of_leaf fun _ => rfl
  | boolean b => cases b <;> exact read_of_leaf fun _ => rfl
  | integer n => exact read_of_leaf fun _ => readWith_integerOctets (unpackable?_eq_none_iff.mp hheld n (.self _)) rest
  | float x => exact read_of_leaf fun _ => readWith_float x rest
  | text s => exact read_of_leaf fun _ => readWith_textOctets (hsized _ (.self _)) rest
  | binary bs =>
    apply read_of_leaf
    intro item
    rw [octets, List.append_assoc, readWith_binaryHeader (hsized _ (.self _)), readAfter_binary]
    rfl
  | sequence items ih =>
    obtain ⟨hlength, hitems⟩ := sized_sequence_iff.mp hsized
    rw [unpackable?, unpackableInItems?_eq_none_iff] at hheld
    rw [nesting] at hdepth
    obtain ⟨depth, rfl⟩ : ∃ d, depth = d + 1 := ⟨depth - 1, by omega⟩
    have hread : ∀ v ∈ items, ∀ rest, read depth (octets v ++ rest) = .ok (canonical v, rest) := by
      intro v hv rest
      have hle := nestingItems_le_iff.mp (Nat.le_refl _) v hv
      exact ih v hv (hitems v hv) (hheld v hv) depth (by omega) rest
    rw [read, octets, itemsOctets_eq_flatMap, List.append_assoc, readWith_listHeader hlength, readAfter_list hread, canonical,
      canonicalItems_eq_map]
  | mapping es ih =>
    obtain ⟨hlength, hentries⟩ := sized_mapping_iff.mp hsized
    rw [unpackable?, unpackableInEntries?_eq_none_iff] at hheld
    rw [nesting] at hdepth
    obtain ⟨depth, rfl⟩ : ∃ d, depth = d + 1 := ⟨depth - 1, by omega⟩
    have hkey : ∀ e ∈ es, ∀ rest, read depth (octets e.1 ++ rest) = .ok (canonical e.1, rest) := by
      intro e he rest
      have hle := (nestingEntries_le_iff.mp (Nat.le_refl _) e he).1
      exact (ih e he).1 (hentries e he).1 (hheld e he).1 depth (by omega) rest
    have hvalue : ∀ e ∈ es, ∀ rest, read depth (octets e.2 ++ rest) = .ok (canonical e.2, rest) := by
      intro e he rest
      have hle := (nestingEntries_le_iff.mp (Nat.le_refl _) e he).2
      exact (ih e he).2 (hentries e he).2 (hheld e he).2 depth (by omega) rest
    rw [read, octets, entriesOctets_eq_flatMap, List.append_assoc, readWith_mapHeader hlength, readAfter_map hkey hvalue,
      canonical, canonicalEntries_eq_map]
  | record fs ih =>
    obtain ⟨hlength, hfields⟩ := sized_record_iff.mp hsized
    rw [unpackable?, unpackableInFields?_eq_none_iff] at hheld
    rw [nesting] at hdepth
    obtain ⟨depth, rfl⟩ : ∃ d, depth = d + 1 := ⟨depth - 1, by omega⟩
    have hkey : ∀ f ∈ fs, ∀ rest, read depth (textOctets f.1 ++ rest) = .ok (text f.1, rest) := by
      intro f hf rest
      exact read_of_leaf fun _ => readWith_textOctets (hfields f hf).1 rest
    have hvalue : ∀ f ∈ fs, ∀ rest, read depth (octets f.2 ++ rest) = .ok (canonical f.2, rest) := by
      intro f hf rest
      have hle := nestingFields_le_iff.mp (Nat.le_refl _) f hf
      exact ih f hf (hfields f hf).2 (hheld f hf) depth (by omega) rest
    -- a map whose keys are texts is a record again
    have hrecord : ofEntries (fs.map fun f => (text f.1, canonical f.2)) = record (canonicalFields fs) := by
      rw [canonicalFields_eq_map, ← ofEntries_texts, List.map_map]
      rfl
    rw [read, octets, fieldsOctets_eq_flatMap, List.append_assoc, readWith_mapHeader hlength, readAfter_map hkey hvalue,
      hrecord, canonical]

/-- **Snapshots survive writing and reading.** Let the lengths of all texts, octets and containers in a value fit four
octets. Writing it fails exactly if some integer anywhere inside, keys of maps included, is outside the 64-bit ranges.
If it does not fail and containers nest at most 1023 deep, reading gives the value back whatever follows it, with every
map whose keys are all texts as the record of the same entries, and everything else as it was, to the bits of doubles. -/
theorem pack_unpack (v : Snapshot) (hsized : Sized v) :
    ((∃ fault, pack v = .error fault) ↔ ∃ n, Part (integer n) v ∧ ¬ (-2 ^ 63 ≤ n ∧ n < 2 ^ 64)) ∧
    ∀ bs, pack v = .ok bs → nesting v ≤ 1023 → ∀ rest, unpack (bs ++ rest) = .ok (canonical v) := by
  refine ⟨?_, ?_⟩
  · have hfault : (∃ fault, pack v = .error fault) ↔ unpackable? v ≠ none := by
      unfold pack
      cases unpackable? v <;> simp
    rw [hfault, ne_eq, unpackable?_eq_none_iff]
    simp only [holdable_iff, Classical.not_forall, exists_prop]
  · intro bs hbs hnesting rest
    unfold pack at hbs
    split at hbs
    · cases hbs
    · rename_i hheld
      cases hbs
      rw [unpack, read_octets v hsized hheld maxDepth hnesting rest]
      rfl

/-- A map with a key that is itself a map of texts: the key comes back as a record, the map around it stays a map. -/
theorem key_comes_back_as_record :
    Sized (mapping [(mapping [(text "k", nil)], integer 18446744073709551615)]) ∧
      nesting (mapping [(mapping [(text "k", nil)], integer 18446744073709551615)]) ≤ 1023 ∧
      ∃ bs, pack (mapping [(mapping [(text "k", nil)], integer 18446744073709551615)]) = .ok bs ∧
        unpack (bs ++ [0xc1]) = .ok (mapping [(record [("k", nil)], integer 18446744073709551615)]) := by
  have hletter : (Bytes.ofText "k").length < 2 ^ 32 := by decide
  have hk : Sized (text "k") := by
    intro u hu
    cases hu
    exact hletter
  have hnil : Sized nil := by
    intro u hu
    cases hu
    trivial
  have hinteger : Sized (integer 18446744073709551615) := by
    intro u hu
    cases hu
    trivial
  have hinner : Sized (mapping [(text "k", nil)]) :=
    sized_mapping_iff.mpr ⟨by decide, List.forall_mem_singleton.mpr ⟨hk, hnil⟩⟩
  have hsized : Sized (mapping [(mapping [(text "k", nil)], integer 18446744073709551615)]) :=
    sized_mapping_iff.mpr ⟨by decide, List.forall_mem_singleton.mpr ⟨hinner, hinteger⟩⟩
  have hnesting : nesting (mapping [(mapping [(text "k", nil)], integer 18446744073709551615)]) ≤ 1023 := by decide
  exact ⟨hsized, hnesting, _, rfl, (pack_unpack _ hsized).2 _ rfl hnesting [0xc1]⟩

end TransitLink.Snapshot
