import TransitLink.Proofs.Json.ReadBack
import TransitLink.Proofs.Message.Bodies
import TransitLink.Proofs.Message.NoObjects

/-!
# Bodies that survive the wire

* `Carries frame kind body` : the frame holds an envelope of this kind with this body. `Carries.decode` : it is taken for
  what the kind makes of the body. `Carries.fits` : the body nests less deep than the frame may.
* `Carries.of_toBytes` : the text of an envelope carries its body, if the body fits and its doubles are read back.
* `bodies_are_recovered` : what is read of a body is kept, and what is written of it is read again.
-/

namespace TransitLink.Inbound

set_option autoImplicit false

open Json

/-! ## Frames that carry a body -/

/-- The frame holds an envelope of this kind with this body. -/
def Carries (frame : Bytes) (kind : MessageKind) (body : Json) : Prop :=
  ∃ type, kind.wireName.toList = MessageKind.lowered type ∧ Holds frame type body

section
variable {frame : Bytes} {kind : MessageKind} {body : Json}

theorem Carries.decode (h : Carries frame kind body) : decode frame = ofBody kind (bodyOf body) := by
  obtain ⟨type, hkind, hholds⟩ := h
  rw [hholds.decode]
  unfold classify
  rw [MessageKind.ofWireName?_eq_some_iff.mpr hkind]

theorem Carries.message (h : Carries frame kind body) {m : Inbound} (hm : Means kind (bodyOf body) m) :
    TransitLink.Inbound.decode frame = .ok m := by
  rw [h.decode]
  exact ofBody_eq_ok_iff.mpr hm

theorem BodyText.fits {us : List Bytes} (h : BodyText us body) : Fits (maxDepth - 1) body := by
  unfold BodyText at h
  split at h
  · rw [h]
    trivial
  · obtain ⟨j, hj, rfl⟩ := h
    exact hj.fits
  · cases h

theorem Carries.fits (h : Carries frame kind body) : Fits (maxDepth - 1) body := by
  obtain ⟨type, -, ⟨fields, -, -, hbody, -⟩ | ⟨ws, t, ws', u, us, -, -, -, -, -, hbody⟩⟩ := h
  · exact hbody.fits
  · exact hbody.fits

end

/-! ## Envelopes that are written -/

theorem form_of_int (n : Int) : Form (toBytes (.int n)) := by
  cases n with
  | ofNat m => exact .scalar (.positive (numeralText_decimal false m))
  | negSucc m =>
    have htext : toBytes (.int (.negSucc m)) = 0x2d :: decimal (m + 1) := ofText_negSucc m
    rw [htext]
    exact .scalar (.negative (numeralText_decimal true (m + 1)))

theorem lowered_wireName (kind : MessageKind) : kind.wireName.toList = MessageKind.lowered kind.wireName := by
  cases kind <;> decide +kernel

theorem objectText_toBytes (ms : Members Json) :
    ObjectText (toBytes (.obj ms)) (ms.map fun m => (m.1, toBytes m.2)) := by
  rw [toBytes_obj]
  refine ⟨[], joined [] (ms.map memberBytes) ++ [0x7d], ms.map memberBytes, [], ?_, blank_nil, blank_nil, ?_, ?_⟩
  · rw [List.append_nil, List.nil_append]
  · exact parts_joined 0x7d blank_nil blank_nil _
  · exact memberText_memberBytes ms

/-- **The text of an envelope carries its body,** whatever its time and its connection. -/
theorem Carries.of_toBytes {e : Envelope} (hfits : Fits (maxDepth - 1) e.body) (hx : DoublesGivenBack e.body) :
    Carries e.toBytes e.kind e.body := by
  have htype : StringText (toBytes (.str e.kind.wireName)) e.kind.wireName := stringText_spelled _
  have hbody : BodyText [toBytes e.body] e.body := ⟨e.body, textOf_toBytes hfits hx, hfits.merged.symm⟩
  refine ⟨e.kind.wireName, lowered_wireName _, .inl ?_⟩
  refine ⟨_, objectText_toBytes _, ⟨_, ?_, htype⟩, ?_, ?_⟩
  · cases e.connectionId <;> simp [textsOf, optionalMember]
  · have hone : textsOf "body" (([("type", Json.str e.kind.wireName), ("timestamp", .int e.timestamp)] ++
        optionalMember "connectionId" e.connectionId .str ++ [("body", e.body)]).map fun m => (m.1, toBytes m.2)) =
          [toBytes e.body] := by
      cases e.connectionId <;> simp [textsOf, optionalMember]
    rw [hone]
    exact hbody
  · simp only [List.forall_mem_map, List.forall_mem_append, List.forall_mem_cons, forall_mem_optionalMember]
    refine ⟨⟨⟨?_, ?_, List.forall_mem_nil _⟩, fun id _ _ => ?_⟩, ?_, List.forall_mem_nil _⟩
    · exact fun h => absurd (.inl trivial) h
    · exact fun _ => form_of_int _
    · exact (stringText_spelled id).form
    · exact fun h => absurd (.inr trivial) h

/-! ## Bodies of plain fields -/

def IsField (j : Json) : Prop := (∃ s, j = .str s) ∨ j = .null ∨ ∃ n : Nat, n < 2 ^ 64 ∧ j = .ofNat n

theorem IsField.fits {j : Json} (h : IsField j) (depth : Nat) : Fits depth j := by
  rcases h with ⟨s, rfl⟩ | rfl | ⟨n, hn, rfl⟩
  · cases depth <;> trivial
  · cases depth <;> trivial
  · have hrange : -2 ^ 63 ≤ (n : Int) ∧ (n : Int) < 2 ^ 64 := by omega
    cases depth <;> exact hrange

theorem IsField.doubles {j : Json} (h : IsField j) : DoublesGivenBack j := by
  intro x hpart
  rcases h with ⟨s, rfl⟩ | rfl | ⟨n, hn, rfl⟩ <;> cases hpart

/-- An object of plain fields with distinct names is read back. -/
theorem fields_fit {ms : Members Json} (hnodup : ms.names.Nodup) (h : ∀ m ∈ ms, IsField m.2) :
    Fits (maxDepth - 1) (.obj ms) ∧ DoublesGivenBack (.obj ms) := by
  refine ⟨⟨hnodup, fun m hm => (h m hm).fits _⟩, fun x hpart => ?_⟩
  cases hpart with
  | member hm hpart => exact (h _ hm).doubles x hpart

theorem acknowledgement_fits {a : Acknowledgement} (hversion : ∀ n, a.protocolVersion = some n → n < 2 ^ 32)
    (hheartbeat : ∀ n, a.heartbeatSeconds = some n → n < 2 ^ 64) :
    Fits (maxDepth - 1) a.toJson ∧ DoublesGivenBack a.toJson := by
  refine fields_fit ?_ ?_
  · simp only [Members.names, List.map_append]
    have hfirst : (List.map Prod.fst [("connectionId", Json.str a.connectionId), ("serverName", .str a.serverName),
        ("modVersion", .str a.modVersion)]).Sublist ["connectionId", "serverName", "modVersion"] := List.Sublist.refl _
    have hall := ((hfirst.append (names_optionalMember_sublist "protocolVersion" a.protocolVersion .ofNat)).append
      (names_optionalMember_sublist "heartbeatIntervalSeconds" a.heartbeatSeconds .ofNat)).append
        (names_optionalMember_sublist "message" a.message .str)
    exact hall.nodup (by decide)
  · simp only [List.forall_mem_append, List.forall_mem_cons, forall_mem_optionalMember]
    refine ⟨⟨⟨⟨.inl ⟨_, rfl⟩, .inl ⟨_, rfl⟩, .inl ⟨_, rfl⟩, List.forall_mem_nil _⟩, fun n hn => ?_⟩, fun n hn => ?_⟩,
      fun s _ => ?_⟩
    · have hlt := hversion n hn
      exact .inr (.inr ⟨n, by omega, rfl⟩)
    · exact .inr (.inr ⟨n, hheartbeat n hn, rfl⟩)
    · exact .inl ⟨s, rfl⟩

theorem refusal_fits (r : Refusal) : Fits (maxDepth - 1) r.toJson ∧ DoublesGivenBack r.toJson := by
  have hfield : ∀ v : Option String, IsField ((v.map .str).getD .null) := by
    rintro (_ | s)
    · exact .inr (.inl rfl)
    · exact .inl ⟨s, rfl⟩
  refine fields_fit (by simp [Members.names]) ?_
  simp only [List.forall_mem_cons]
  exact ⟨hfield _, hfield _, List.forall_mem_nil _⟩

/-! ## Responses that are received -/

/-- A response has an object for a body. -/
theorem exists_carries {frame : Bytes} {r : Response} (h : decode frame = .ok (.response r)) :
    ∃ ms, Carries frame .response (.obj ms) := by
  obtain ⟨type, body, hholds, hclassify⟩ := decode_eq_ok_iff.mp h
  obtain ⟨kind, hkind, hmeans⟩ := classify_eq_ok_iff.mp hclassify
  cases hmeans with
  | response hr =>
    cases body with
    | obj ms => exact ⟨ms, type, hkind, hholds⟩
    | _ => cases hr

theorem ofBody_response_iff {ms : Members Json} {r : Response} :
    ofBody .response (bodyOf (.obj ms)) = .ok (.response r) ↔ Response.ofJson (.obj ms) = .ok r := by
  rw [ofBody_eq_ok_iff]
  constructor
  · rintro ⟨⟩
    assumption
  · exact .response

/-- What is read of a response is kept, and small enough to be read again. -/
theorem Carries.keeps {frame : Bytes} {ms : Members Json} {r : Response} (hcarries : Carries frame .response (.obj ms))
    (h : TransitLink.Inbound.decode frame = .ok (.response r)) :
    r.Distinct ∧ r.Keeps ms ∧ Fits (maxDepth - 1) r.toJson := by
  obtain ⟨hnodup, hms⟩ := hcarries.fits
  rw [hcarries.decode, ofBody_response_iff] at h
  obtain ⟨hdistinct, hkeeps⟩ := Response.keeps_of_ofJson hnodup h
  refine ⟨hdistinct, hkeeps, ?_⟩
  rw [Response.toJson_eq]
  refine ⟨hdistinct.nodup, List.forall_mem_append.mpr ⟨fun m hm => ?_, fun m hm => ?_⟩⟩
  · exact hms m ((hkeeps.mem_known_iff m).mp hm).1
  · rw [hkeeps.extra] at hm
    exact hms m (List.mem_filter.mp hm).1

/-! ## There and back -/

/-- **Bodies that are delivered.**

* A response has an object for a body. It is written with the members that were received, except that a null in place of a
  result or a message is left out, with the four known names first; and every frame that carries what is written is the same
  response, that of a writer among them if the digits of every double are read as that double.
* Every acknowledgement with numbers of 32 and 64 bits and every refusal is recovered from what is written of it.
* So is every response whose other names are distinct and not those of its fields, if it nests no deeper than a body may and
  the digits of every double are read as that double. -/
theorem bodies_are_recovered :
    (∀ (frame : Bytes) (r : Response), decode frame = .ok (.response r) →
      (∃ ms, Carries frame .response (.obj ms)) ∧
      (∀ ms, Carries frame .response (.obj ms) → r.Keeps ms) ∧
      (∀ again, Carries again .response r.toJson → decode again = .ok (.response r)) ∧
      (DoublesGivenBack r.toJson →
        ∀ time id, decode (Envelope.toBytes ⟨.response, time, id, r.toJson⟩) = .ok (.response r))) ∧
    (∀ a : Acknowledgement, (∀ n, a.protocolVersion = some n → n < 2 ^ 32) →
      (∀ n, a.heartbeatSeconds = some n → n < 2 ^ 64) →
      (∀ frame, Carries frame .handshakeAck a.toJson → decode frame = .ok (.acknowledgement a)) ∧
      ∀ time id, decode (Envelope.toBytes ⟨.handshakeAck, time, id, a.toJson⟩) = .ok (.acknowledgement a)) ∧
    (∀ r : Refusal, (∀ frame, Carries frame .error r.toJson → decode frame = .ok (.refusal r)) ∧
      ∀ time id, decode (Envelope.toBytes ⟨.error, time, id, r.toJson⟩) = .ok (.refusal r)) ∧
    ∀ r : Response, r.Distinct → (∀ frame, Carries frame .response r.toJson → decode frame = .ok (.response r)) ∧
      (Fits (maxDepth - 1) r.toJson → DoublesGivenBack r.toJson →
        ∀ time id, decode (Envelope.toBytes ⟨.response, time, id, r.toJson⟩) = .ok (.response r)) := by
  have hresponse : ∀ r : Response, r.Distinct → ∀ frame, Carries frame .response r.toJson →
      decode frame = .ok (.response r) := fun r hr frame h => h.message (.response (Response.ofJson_toJson hr))
  refine ⟨fun frame r h => ?_, fun a hversion hheartbeat => ?_, fun r => ?_, fun r hr => ?_⟩
  · obtain ⟨ms, hms⟩ := exists_carries h
    obtain ⟨hdistinct, -, hfits⟩ := hms.keeps h
    refine ⟨⟨ms, hms⟩, fun ms hms => (hms.keeps h).2.1, hresponse r hdistinct, fun hx time id => ?_⟩
    exact hresponse r hdistinct _ (.of_toBytes (e := ⟨.response, time, id, r.toJson⟩) hfits hx)
  · have hall : ∀ frame, Carries frame .handshakeAck a.toJson → decode frame = .ok (.acknowledgement a) := fun frame h =>
      h.message (.acknowledgement (Acknowledgement.ofJson_toJson hversion hheartbeat))
    obtain ⟨hfits, hx⟩ := acknowledgement_fits hversion hheartbeat
    exact ⟨hall, fun time id => hall _ (.of_toBytes (e := ⟨.handshakeAck, time, id, a.toJson⟩) hfits hx)⟩
  · have hall : ∀ frame, Carries frame .error r.toJson → decode frame = .ok (.refusal r) := fun frame h =>
      h.message (.refusal (Refusal.ofJson_toJson r))
    obtain ⟨hfits, hx⟩ := refusal_fits r
    exact ⟨hall, fun time id => hall _ (.of_toBytes (e := ⟨.error, time, id, r.toJson⟩) hfits hx)⟩
  · refine ⟨hresponse r hr, fun hfits hx time id => ?_⟩
    exact hresponse r hr _ (.of_toBytes (e := ⟨.response, time, id, r.toJson⟩) hfits hx)

theorem recovered_with_large_double :
    ∃ r : Response, r.Distinct ∧ Fits (maxDepth - 1) r.toJson ∧ DoublesGivenBack r.toJson ∧
      decode (Envelope.toBytes ⟨.response, 0, none, r.toJson⟩) = .ok (.response r) ∧
      (∃ ms, Carries (Envelope.toBytes ⟨.response, 0, none, r.toJson⟩) .response (.obj ms) ∧ r.Keeps ms) ∧
      decode (Envelope.toBytes ⟨.handshakeAck, 0, some "c", Acknowledgement.toJson ⟨"c", "s", "m", some 1, some 30, none⟩⟩) =
        .ok (.acknowledgement ⟨"c", "s", "m", some 1, some 30, none⟩) := by
  obtain ⟨hreceived, hacknowledgements, -, hresponses⟩ := bodies_are_recovered
  let r : Response := ⟨"r", none, none, some (.float ⟨0x4341C37937E08000⟩), [("n", .int 1)]⟩
  have hdistinct : r.Distinct := ⟨by decide, by decide⟩
  have hfits : Fits (maxDepth - 1) r.toJson := by
    refine ⟨by decide, ?_⟩
    rintro m (_ | ⟨_, _ | ⟨_, _ | ⟨_, ⟨⟩⟩⟩⟩)
    · trivial
    · trivial
    · exact ⟨by decide, by decide⟩
  have hx : DoublesGivenBack r.toJson := by
    intro x hpart
    cases hpart with
    | member hm hpart =>
      rcases hm with _ | ⟨_, _ | ⟨_, _ | ⟨_, ⟨⟩⟩⟩⟩ <;> cases hpart
      exact givenBack_of_large
  have hdecode := (hresponses r hdistinct).2 hfits hx 0 none
  obtain ⟨⟨ms, hms⟩, hkeeps, -⟩ := hreceived _ r hdecode
  exact ⟨r, hdistinct, hfits, hx, hdecode, ⟨ms, hms, hkeeps ms hms⟩,
    (hacknowledgements ⟨"c", "s", "m", some 1, some 30, none⟩ (by decide) (by decide)).2 0 (some "c")⟩

/-! ## What does not survive -/

def nested : Nat → Json
  | 0 => .arr []
  | n + 1 => .arr [nested n]

theorem fits_nested_iff {depth n : Nat} : Fits depth (nested n) ↔ n < depth := by
  induction depth generalizing n with
  | zero => cases n <;> exact iff_of_false id (Nat.not_lt_zero _)
  | succ depth ih =>
    cases n with
    | zero => exact iff_of_true (List.forall_mem_nil _) (Nat.zero_lt_succ depth)
    | succ n => simpa [nested, Fits] using ih

/-- The body of a frame that is a response, as it is written again. -/
def rewritten? (frame : Bytes) : Option String :=
  match decode frame with
  | .ok (.response r) => some r.toJson.compact
  | _ => none

theorem rewritten?_eq_some_iff {frame : Bytes} {s : String} :
    rewritten? frame = some s ↔ ∃ r, decode frame = .ok (.response r) ∧ r.toJson.compact = s := by
  unfold rewritten?
  split
  · rename_i r hr
    simp [hr]
  · rename_i hr
    refine iff_of_false (Option.some_ne_none s).symm ?_
    rintro ⟨r, hdecode, -⟩
    exact hr r hdecode

/-- A large double is written in digits that are not read as that double, and a deep list is not read at all. -/
theorem not_everything_survives :
    (∃ r r' : Response,
      decode (Bytes.ofText
        "\x7b\"type\":\"response\",\"body\":\x7b\"requestId\":\"r\",\"payload\":300000000000000000000000\x7d\x7d") =
          .ok (.response r) ∧
      decode (Envelope.toBytes ⟨.response, 0, none, r.toJson⟩) = .ok (.response r') ∧
      r.toJson.compact = "\x7b\"requestId\":\"r\",\"payload\":3e+23\x7d" ∧
      r'.toJson.compact = "\x7b\"requestId\":\"r\",\"payload\":2.9999999999999997e+23\x7d") ∧
    ∃ r : Response, r.Distinct ∧ ∀ frame, decode frame ≠ .ok (.response r) := by
  refine ⟨?_, ⟨"r", none, none, some (nested 125), []⟩, ⟨List.nodup_nil, List.forall_mem_nil _⟩, fun frame h => ?_⟩
  · obtain ⟨r, hr, hwritten⟩ := rewritten?_eq_some_iff.mp (by decide +kernel : rewritten? (Bytes.ofText
      "\x7b\"type\":\"response\",\"body\":\x7b\"requestId\":\"r\",\"payload\":300000000000000000000000\x7d\x7d") =
        some "\x7b\"requestId\":\"r\",\"payload\":3e+23\x7d")
    have htext : Envelope.toBytes ⟨.response, 0, none, r.toJson⟩ =
        Bytes.ofText ("\x7b\"type\":\"response\",\"timestamp\":0,\"body\":" ++ r.toJson.compact ++ "\x7d") := by
      show Bytes.ofText _ = _
      congr 1
      show "\x7b" ++ compactMembers [("type", .str "response"), ("timestamp", .int 0), ("body", r.toJson)] ++ "\x7d" = _
      simp only [compactMembers, String.append_assoc]
      rfl
    obtain ⟨r', hr', hagain⟩ := rewritten?_eq_some_iff.mp (by decide +kernel : rewritten? (Bytes.ofText
      ("\x7b\"type\":\"response\",\"timestamp\":0,\"body\":" ++ "\x7b\"requestId\":\"r\",\"payload\":3e+23\x7d" ++ "\x7d")) =
        some "\x7b\"requestId\":\"r\",\"payload\":2.9999999999999997e+23\x7d")
    rw [← hwritten, ← htext] at hr'
    exact ⟨r, r', hr, hr', hwritten, hagain⟩
  · obtain ⟨ms, hms⟩ := exists_carries h
    obtain ⟨-, hfits⟩ := (hms.keeps h).2.2
    have hpayload : Fits 125 (nested 125) := hfits ("payload", nested 125) (by simp [optionalMember])
    exact Nat.lt_irrefl 125 (fits_nested_iff.mp hpayload)

end TransitLink.Inbound
