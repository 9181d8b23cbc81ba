import TransitLink.Proofs.Base64.Standard
import TransitLink.Proofs.Snapshot.RoundTrip
import TransitLink.Proofs.Text.Blank
import TransitLink.Snapshot.Blob

/-!
# Blobs carry snapshots

* `octets_eq_ok_iff` : the octets of a blob are those of which its text, trimmed, is the base64.
* `Packable` : the values that have a packed form.
* `blobs_carry_snapshots` : the way of a value into a blob and back, and what a failure on the way is.
-/

namespace TransitLink

set_option autoImplicit false

namespace Snapshot

/-! ## Texts and octets -/

theorem isBlank_standard (bs : Bytes) : ∀ c ∈ Base64.standard bs, Text.isBlank c = false := by
  rw [← Base64.toList_encodeText, Base64.encodeText, String.toList_ofList, List.forall_mem_map]
  exact Base64.forall_mem_encode (by decide) (by decide) bs

theorem Blob.octets_eq_ok_iff {t : String} {bs : Bytes} :
    Blob.octets ⟨t⟩ = .ok bs ↔ (Text.trim t).toList = Base64.standard bs := by
  rw [Blob.octets, mapError_eq_ok_iff, Base64.decode_eq_ok_iff, Base64.ofText_eq_encode_iff, ← Base64.toList_encodeText,
    String.toList_inj]

theorem Blob.octets_surrounded {before after : List Char} (hbefore : ∀ c ∈ before, Text.isBlank c = true)
    (hafter : ∀ c ∈ after, Text.isBlank c = true) (bs : Bytes) :
    Blob.octets ⟨String.ofList (before ++ Base64.standard bs ++ after)⟩ = .ok bs := by
  rw [Blob.octets_eq_ok_iff, Text.trim, String.toList_ofList, String.toList_ofList,
    Text.trimChars_surrounded hbefore (isBlank_standard bs) hafter]

/-! ## Failures -/

theorem Blob.octets_eq_error {b : Blob} {e : Failure} (h : b.octets = .error e) : ∃ reason, e = .snapshotDecode reason := by
  obtain ⟨fault, -, rfl⟩ := mapError_eq_error_iff.mp h
  exact ⟨_, rfl⟩

theorem Blob.decode_eq_error {b : Blob} {e : Failure} (h : b.decode = .error e) : ∃ reason, e = .snapshotDecode reason := by
  rcases bind_eq_error_iff.mp h with h | ⟨bs, -, h⟩
  · exact Blob.octets_eq_error h
  · obtain ⟨fault, -, rfl⟩ := mapError_eq_error_iff.mp h
    exact ⟨_, rfl⟩

theorem Blob.toJson_eq_error {b : Blob} {compacting : Bool} {e : Failure} (h : b.toJson compacting = .error e) :
    ∃ reason, e = .snapshotDecode reason := by
  rcases bind_eq_error_iff.mp h with h | ⟨v, -, h⟩
  · exact Blob.decode_eq_error h
  · cases h

/-! ## Values -/

/-- The value has a packed form: its integers are in the 64-bit ranges, and its lengths fit four octets. -/
structure Packable (v : Snapshot) : Prop where
  held : ∀ n, Part (integer n) v → -2 ^ 63 ≤ n ∧ n < 2 ^ 64
  sized : Sized v

theorem Packable.unpackable? {v : Snapshot} (h : Packable v) : unpackable? v = none :=
  unpackable?_eq_none_iff.mpr fun n hn => holdable_iff.mpr (h.held n hn)

theorem Packable.unpack_octets {v : Snapshot} (h : Packable v) (hnesting : nesting v ≤ maxDepth) :
    unpack (octets v) = .ok (canonical v) := by
  have hread := read_octets v h.sized h.unpackable? maxDepth hnesting []
  rw [List.append_nil] at hread
  rw [unpack, hread]
  rfl

/-- **Blobs carry snapshots.** The octets of a text are those of which the text, without the blanks around it, is the
padded standard base64, and no others. A value that has a packed form and nests at most 1023 deep is packed, and from the
base64 of the packed form, with any blanks around it, come the value's canonical form and the rendering of that form,
compacted or not. Whatever fails on the way from a text fails as a snapshot that cannot be decoded. -/
theorem blobs_carry_snapshots :
    (∀ (t : String) (bs : Bytes), Blob.octets ⟨t⟩ = .ok bs ↔ (Text.trim t).toList = Base64.standard bs) ∧
    (∀ v, Packable v → nesting v ≤ 1023 → ∃ bs, pack v = .ok bs ∧
      ∀ before after : List Char, (∀ c ∈ before, Text.isBlank c = true) → (∀ c ∈ after, Text.isBlank c = true) →
        Blob.decode ⟨String.ofList (before ++ Base64.standard bs ++ after)⟩ = .ok (canonical v) ∧
        ∀ compacting, Blob.toJson ⟨String.ofList (before ++ Base64.standard bs ++ after)⟩ compacting =
          .ok (render compacting (canonical v))) ∧
    ∀ (b : Blob) (e : Failure),
      (b.octets = .error e ∨ b.decode = .error e ∨ ∃ compacting, b.toJson compacting = .error e) →
        ∃ reason, e = .snapshotDecode reason := by
  refine ⟨fun t bs => Blob.octets_eq_ok_iff, fun v hv hnesting => ?_, fun b e h => ?_⟩
  · refine ⟨octets v, ?_, fun before after hbefore hafter => ?_⟩
    · rw [pack, hv.unpackable?]
    · have hdecode : Blob.decode ⟨String.ofList (before ++ Base64.standard (octets v) ++ after)⟩ = .ok (canonical v) := by
        refine bind_eq_ok_iff.mpr ⟨octets v, Blob.octets_surrounded hbefore hafter _, ?_⟩
        exact mapError_eq_ok_iff.mpr (hv.unpack_octets hnesting)
      refine ⟨hdecode, fun compacting => ?_⟩
      rw [Blob.toJson, hdecode]
      rfl
  · rcases h with h | h | ⟨compacting, h⟩
    · exact Blob.octets_eq_error h
    · exact Blob.decode_eq_error h
    · exact Blob.toJson_eq_error h

/-- A map of one text to nothing, between an ideographic space and a next-line character. -/
theorem blob_between_blanks :
    Packable (mapping [(text "k", nil)]) ∧ nesting (mapping [(text "k", nil)]) ≤ 1023 ∧
      Blob.decode ⟨"\u3000gaFrwA==\u0085"⟩ = .ok (record [("k", nil)]) := by
  have hletter : (Bytes.ofText "k").length < 2 ^ 32 := by decide
  have hsized : Sized (mapping [(text "k", nil)]) := by
    refine sized_mapping_iff.mpr ⟨by decide, List.forall_mem_singleton.mpr ⟨?_, ?_⟩⟩
    · rintro u ⟨⟩
      exact hletter
    · rintro u ⟨⟩
      trivial
  have hpackable : Packable (mapping [(text "k", nil)]) := by
    refine ⟨fun n hn => ?_, hsized⟩
    exact holdable_iff.mp (unpackable?_eq_none_iff.mp rfl n hn)
  obtain ⟨bs, hbs, hblob⟩ := blobs_carry_snapshots.2.1 _ hpackable (by decide)
  cases hbs
  have hbefore : ∀ c ∈ ['\u3000'], Text.isBlank c = true := List.forall_mem_singleton.mpr rfl
  have hafter : ∀ c ∈ ['\u0085'], Text.isBlank c = true := List.forall_mem_singleton.mpr rfl
  exact ⟨hpackable, by decide, (hblob ['\u3000'] ['\u0085'] hbefore hafter).1⟩

end Snapshot
end TransitLink
