import TransitLink.Link.Connection
import TransitLink.Proofs.Link.News
import TransitLink.Proofs.Message.Classification

/-!
# Frames that are no objects

* `IsObject frame` : the octets are the text of a JSON object. `EnvelopeText.isObject_iff` : so is an envelope, if it is
  UTF-8.
* `ListText frame type body` : the octets are the text of a list that holds a type and at most a body. `decode_of_list` :
  it is taken for an envelope. `decode_eq_ok_iff` : nothing but these lists and objects is.
* `messages_without_object` : what is no object and yet a message is such a list, or an envelope that is no UTF-8.
-/

namespace TransitLink.Inbound

set_option autoImplicit false

open Json

/-- The octets are the text of a JSON object, in UTF-8 and with blanks around it. -/
def IsObject (frame : Bytes) : Prop :=
  (∃ text, frame = Bytes.ofText text) ∧
    ∃ ws t ws', Blank ws ∧ Blank ws' ∧ frame = ws ++ 0x7b :: (t ++ ws') ∧ Form (0x7b :: t)

/-- The octets are the text of a list that holds a type, a string, and behind it a body or nothing. -/
def ListText (frame : Bytes) (type : String) (body : Json) : Prop :=
  ∃ ws t ws' u us, frame = ws ++ 0x5b :: (t ++ ws') ∧ Blank ws ∧ Blank ws' ∧ Parts 0x5d t (u :: us) ∧
    StringText u type ∧ BodyText us body

/-! ## Envelopes are objects -/

theorem mem_textsOf {f : String × Bytes} {fields : List (String × Bytes)} (h : f ∈ fields) : f.2 ∈ textsOf f.1 fields := by
  refine List.mem_map_of_mem (List.mem_filter.mpr ⟨h, ?_⟩)
  simp

theorem BodyText.form {us : List Bytes} {body : Json} (h : BodyText us body) : ∀ u ∈ us, Form u := by
  unfold BodyText at h
  split at h
  · simp
  · obtain ⟨j, hj, -⟩ := h
    simpa using hj.form
  · cases h

theorem EnvelopeText.isObject_iff {frame : Bytes} {type : String} {body : Json} (h : EnvelopeText frame type body) :
    IsObject frame ↔ ∃ text, frame = Bytes.ofText text := by
  refine ⟨And.left, fun htext => ⟨htext, ?_⟩⟩
  obtain ⟨fields, ⟨ws, t, us, ws', rfl, hws, hws', ht, hus⟩, ⟨u, hu, htype⟩, hbody, hforms⟩ := h
  have hall : ∀ f ∈ fields, Form f.2 := by
    intro f hf
    have hmem := mem_textsOf hf
    by_cases hname : f.1 = "type" ∨ f.1 = "body"
    · rcases hname with hname | hname
      · rw [hname, hu, List.mem_singleton] at hmem
        exact hmem ▸ htype.form
      · rw [hname] at hmem
        exact hbody.form _ hmem
    · exact hforms f hf hname
  have hparts := List.forall₂_map_right_iff.mpr (hus.imp fun u f hu => MemberText.form hu)
  exact ⟨ws, t, ws', hws, hws', rfl, Form.container (c := .object) ht hparts (List.forall_mem_map.mpr hall)⟩

/-! ## Lists that are taken for envelopes -/

/-- A list of values has a type in front, and behind it a body or nothing. -/
theorem items_iff {us : List Bytes} {ms : Members Json} :
    Items (fun f => FieldText (maxDepth - 1) f.name) envelopeShape.fields us ms ↔
      ∃ u vs type body, us = u :: vs ∧ StringText u type ∧ BodyText vs body ∧
        ms = ("type", .str type) :: vs.map fun _ => ("body", body) := by
  constructor
  · intro h
    rcases h with hnone | ⟨⟨type, htype, rfl⟩, hrest⟩
    · exact absurd rfl (hnone _ List.mem_cons_self)
    · rcases hrest with - | ⟨hbody, hrest⟩
      · exact ⟨_, [], type, .null, rfl, htype, rfl, rfl⟩
      · cases hrest
        exact ⟨_, [_], type, _, rfl, htype, hbody, rfl⟩
  · rintro ⟨u, vs, type, body, rfl, htype, hbody, rfl⟩
    refine .next ⟨type, htype, rfl⟩ ?_
    unfold BodyText at hbody
    split at hbody
    · exact .done (by simp)
    · exact .next hbody (.done (by simp))
    · cases hbody

theorem parse_list_iff {ws bs : Bytes} (hws : Blank ws) {ms : Members Json} :
    envelopeShape.parse (ws ++ 0x5b :: bs) = .ok ms ↔ ∃ t us ws', bs = t ++ ws' ∧ Blank ws' ∧ Parts 0x5d t us ∧
      Items (fun f => FieldText (maxDepth - 1) f.name) envelopeShape.fields us ms := by
  have hread : envelopeShape.read maxDepth (ws ++ 0x5b :: bs) =
      envelopeShape.readItems (maxDepth - 1) 0 envelopeShape.fields bs := by
    unfold Shape.read
    rw [skipSpace_blank_cons hws (by decide)]
    rfl
  unfold Shape.parse
  rw [complete_eq_ok_iff, hread]
  have hiff : ∀ ws', envelopeShape.readItems (maxDepth - 1) 0 envelopeShape.fields bs = .ok (ms, ws') ↔ _ := fun ws' =>
    readItems_eq_ok_iff fun f hf => field_accepts hf
  simp only [hiff]
  constructor
  · rintro ⟨ws', hws', t, us, hbs, ht, hus⟩
    exact ⟨t, us, ws', hbs, hws', ht, hus⟩
  · rintro ⟨t, us, ws', hbs, hws', ht, hus⟩
    exact ⟨ws', hws', t, us, hbs, ht, hus⟩

theorem decode_of_parse {frame : Bytes} {ms : Members Json} (h : envelopeShape.parse frame = .ok ms) :
    decode frame = classify ((ms.text? "type").getD "") ((ms.find? "body").getD .null) := by
  unfold decode
  rw [h]

theorem decode_of_list {frame : Bytes} {type : String} {body : Json} (h : ListText frame type body) :
    decode frame = classify type body := by
  obtain ⟨ws, t, ws', u, us, rfl, hws, hws', ht, htype, hbody⟩ := h
  have hitems := items_iff.mpr ⟨u, us, type, body, rfl, htype, hbody, rfl⟩
  have hgiven : (Members.find? "body" (("type", .str type) :: us.map fun _ => ("body", body))).getD .null = body := by
    unfold BodyText at hbody
    split at hbody
    · exact hbody.symm
    · rfl
    · cases hbody
  rw [decode_of_parse ((parse_list_iff hws).mpr ⟨t, u :: us, ws', rfl, hws', ht, hitems⟩), hgiven]
  rfl

/-- What begins like a list and is read as an envelope is a list with a type in front. -/
theorem list_of_parse {ws bs : Bytes} (hws : Blank ws) {ms : Members Json}
    (h : envelopeShape.parse (ws ++ 0x5b :: bs) = .ok ms) : ∃ type body, ListText (ws ++ 0x5b :: bs) type body := by
  obtain ⟨t, us, ws', rfl, hws', ht, hitems⟩ := (parse_list_iff hws).mp h
  obtain ⟨u, vs, type, body, rfl, htype, hbody, -⟩ := items_iff.mp hitems
  exact ⟨type, body, ws, t, ws', u, vs, rfl, hws, hws', ht, htype, hbody⟩

/-! ## Messages without an object -/

/-- What is read as an envelope begins with a brace or a bracket. -/
theorem begins_of_parse {frame : Bytes} {ms : Members Json} (h : envelopeShape.parse frame = .ok ms) :
    ∃ ws bs, Blank ws ∧ (frame = ws ++ 0x7b :: bs ∨ frame = ws ++ 0x5b :: bs) := by
  unfold Shape.parse at h
  obtain ⟨ws', -, hread⟩ := complete_eq_ok_iff.mp h
  unfold Shape.read at hread
  split at hread
  · cases hread
  · rename_i b bs hskip
    obtain ⟨ws, hws, rfl⟩ := skipSpace_eq_cons hskip
    split at hread
    · rename_i hb
      rcases hb with rfl | ⟨rfl, -⟩
      · exact ⟨ws, bs, hws, .inl rfl⟩
      · exact ⟨ws, bs, hws, .inr rfl⟩
    · cases hread

/-- The frame holds an envelope of this type and body, as an object or as a list. -/
def Holds (frame : Bytes) (type : String) (body : Json) : Prop :=
  EnvelopeText frame type body ∨ ListText frame type body

theorem Holds.decode {frame : Bytes} {type : String} {body : Json} (h : Holds frame type body) :
    decode frame = classify type body := h.elim decode_of_text decode_of_list

/-- **Which frames are messages.** -/
theorem decode_eq_ok_iff {frame : Bytes} {m : Inbound} :
    decode frame = .ok m ↔ ∃ type body, Holds frame type body ∧ classify type body = .ok m := by
  constructor
  · intro hm
    have hholds : ∃ type body, Holds frame type body := by
      unfold Inbound.decode at hm
      split at hm
      · rename_i ms hparse
        obtain ⟨ws, bs, hws, rfl | rfl⟩ := begins_of_parse hparse
        · obtain ⟨type, -, htext⟩ := text_of_parse hws hparse
          exact ⟨type, _, .inl htext⟩
        · obtain ⟨type, body, hlist⟩ := list_of_parse hws hparse
          exact ⟨type, body, .inr hlist⟩
      · cases hm
    obtain ⟨type, body, hholds⟩ := hholds
    exact ⟨type, body, hholds, hholds.decode ▸ hm⟩
  · rintro ⟨type, body, hholds, hm⟩
    rw [hholds.decode, hm]

/-- **Which messages are no objects.** A frame that is not the text of a JSON object is a message exactly if it is a list
with a type and at most a body, or the text of an envelope with octets that are no UTF-8 where nobody looks, and in either
case its type and body mean one. Every other such frame is a violation of the protocol, and a connection that receives it
stays as it is and tells nobody anything. -/
theorem messages_without_object {frame : Bytes} (h : ¬IsObject frame) :
    (∀ m, decode frame = .ok m ↔
      ∃ type body, (ListText frame type body ∨ (¬∃ text, frame = Bytes.ofText text) ∧ EnvelopeText frame type body) ∧
        classify type body = .ok m) ∧
    ∀ e, decode frame = .error e → (∃ reason, e = .protocolViolation reason) ∧
      ∀ c w, (Connection.step c w (.frame frame)).1 = c ∧ news (Connection.step c w (.frame frame)).2 = [] := by
  refine ⟨fun m => ⟨fun hm => ?_, ?_⟩, fun e he => ⟨decode_error he, fun c w => ?_⟩⟩
  · obtain ⟨type, body, htext | hlist, hclassify⟩ := decode_eq_ok_iff.mp hm
    · exact ⟨type, body, .inr ⟨fun hutf8 => h (htext.isObject_iff.mpr hutf8), htext⟩, hclassify⟩
    · exact ⟨type, body, .inl hlist, hclassify⟩
  · rintro ⟨type, body, hlist | ⟨-, htext⟩, hclassify⟩
    · exact decode_eq_ok_iff.mpr ⟨type, body, .inr hlist, hclassify⟩
    · exact decode_eq_ok_iff.mpr ⟨type, body, .inl htext, hclassify⟩
  · unfold Connection.step
    split
    · exact ⟨rfl, rfl⟩
    · show (c.onFrame w frame).1 = c ∧ news (c.onFrame w frame).2 = []
      unfold Connection.onFrame
      rw [he]
      exact ⟨rfl, rfl⟩

/-- A list with one string is a sign of life. -/
theorem list_passes_for_pong :
    ¬IsObject (Bytes.ofText "[\"pong\"]") ∧ decode (Bytes.ofText "[\"pong\"]") = .ok .pong := by
  refine ⟨?_, rfl⟩
  rintro ⟨-, ws, t, ws', hws, -, hframe, -⟩
  have hskip := skipSpace_blank_cons hws (by decide : isSpace 0x7b = false) (t ++ ws')
  rw [← hframe] at hskip
  cases hskip

/-- An envelope with a broken character in a field that nobody reads is a sign of life. -/
theorem broken_text_passes_for_pong :
    (¬∃ text, Bytes.ofText "\x7b\"type\":\"pong\",\"x\":\"" ++ 0xc3 :: Bytes.ofText "(\"\x7d" = Bytes.ofText text) ∧
      ∃ type body, EnvelopeText (Bytes.ofText "\x7b\"type\":\"pong\",\"x\":\"" ++ 0xc3 :: Bytes.ofText "(\"\x7d") type body ∧
        classify type body = .ok .pong := by
  have htext : ¬∃ text, Bytes.ofText "\x7b\"type\":\"pong\",\"x\":\"" ++ 0xc3 :: Bytes.ofText "(\"\x7d" =
      Bytes.ofText text := by
    rintro ⟨text, htext⟩
    have hnone : Bytes.text? (Bytes.ofText "\x7b\"type\":\"pong\",\"x\":\"" ++ 0xc3 :: Bytes.ofText "(\"\x7d") = none := by
      decide +kernel
    rw [htext, Bytes.text?_ofText] at hnone
    cases hnone
  refine ⟨htext, ?_⟩
  obtain ⟨hmessages, -⟩ := messages_without_object fun hobject => htext hobject.1
  obtain ⟨type, body, ⟨ws, t, ws', -, -, hframe, hws, -⟩ | ⟨-, henvelope⟩, hclassify⟩ := (hmessages .pong).mp rfl
  · have hskip := skipSpace_blank_cons hws (by decide : isSpace 0x5b = false) (t ++ ws')
    rw [← hframe] at hskip
    cases hskip
  · exact ⟨type, body, henvelope, hclassify⟩

end TransitLink.Inbound
