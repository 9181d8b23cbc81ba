import TransitLink.Message.Body
import TransitLink.Proofs.Json.Parts
import TransitLink.Proofs.Json.Records

/-!
# Bodies that are read back

* `Acknowledgement.ofJson_toJson`, `Refusal.ofJson_toJson`, `Response.ofJson_toJson` : a body is recovered from its JSON.
* `Response.Keeps r ms` : the response is written with the members `ms`. `Response.keeps_of_ofJson` : it keeps those that it
  was read from.
-/

namespace TransitLink

set_option autoImplicit false

open Json

/-! ## Members that may be missing -/

section
variable {α : Type}

theorem mem_optionalMember_iff {name : String} {v : Option α} {write : α → Json} {m : String × Json} :
    m ∈ optionalMember name v write ↔ ∃ x, v = some x ∧ m = (name, write x) := by
  cases v <;> simp [optionalMember]

theorem forall_mem_optionalMember {p : String × Json → Prop} {name : String} {v : Option α} {write : α → Json} :
    (∀ m ∈ optionalMember name v write, p m) ↔ ∀ x, v = some x → p (name, write x) := by
  cases v <;> simp [optionalMember]

@[simp] theorem find?_optionalMember (other name : String) (v : Option α) (write : α → Json) :
    Members.find? other (optionalMember name v write) = if name = other then v.map write else none := by
  cases v with
  | none => simp [optionalMember, Members.find?]
  | some x => simp [optionalMember, Members.find?]

end

theorem names_optionalMember_sublist {α : Type} (name : String) (v : Option α) (write : α → Json) :
    (optionalMember name v write).names.Sublist [name] := by
  cases v with
  | none => exact List.nil_sublist _
  | some x => exact List.Sublist.refl _

theorem takes_append {s : Shape} {ms ns : Members Json} : s.Takes (ms ++ ns) ↔ s.Takes ms ∧ s.Takes ns :=
  List.forall_mem_append

theorem takes_cons {s : Shape} {m : String × Json} {ms : Members Json} :
    s.Takes (m :: ms) ↔ (∀ f, s.field? m.1 = some f → f.ofJson m.2 = .ok m.2) ∧ s.Takes ms :=
  List.forall_mem_cons

theorem takes_optionalMember {α : Type} {s : Shape} {name : String} {v : Option α} {write : α → Json} :
    s.Takes (optionalMember name v write) ↔
      ∀ x, v = some x → ∀ f, s.field? name = some f → f.ofJson (write x) = .ok (write x) :=
  forall_mem_optionalMember

theorem ofJson_natural {name : String} {bits n : Nat} (h : n < 2 ^ bits) :
    Field.ofJson ⟨name, .natural bits, .nullable⟩ (.ofNat n) = .ok (.ofNat n) := by
  have hfits : 0 ≤ (n : Int) ∧ (n : Int) < 2 ^ bits := ⟨Int.natCast_nonneg n, by exact_mod_cast h⟩
  unfold Field.ofJson Kind.ofJson asNatural Json.ofNat
  simp only [hfits]
  rfl

/-! ## Acknowledgements -/

namespace Acknowledgement

theorem ofJson_toJson {a : Acknowledgement} (hversion : ∀ n, a.protocolVersion = some n → n < 2 ^ 32)
    (hheartbeat : ∀ n, a.heartbeatSeconds = some n → n < 2 ^ 64) : ofJson a.toJson = .ok a := by
  unfold ofJson toJson
  rw [ofJson_obj_of_kept (kept_of_known ?known) ?takes ?required]
  case known =>
    simp only [List.forall_mem_append, List.forall_mem_cons, forall_mem_optionalMember]
    exact ⟨⟨⟨⟨rfl, rfl, rfl, nofun⟩, fun _ _ => rfl⟩, fun _ _ => rfl⟩, fun _ _ => rfl⟩
  case takes =>
    simp only [takes_append, takes_cons, takes_optionalMember]
    refine ⟨⟨⟨⟨?_, ?_, ?_, nofun⟩, fun n hn => ?_⟩, fun n hn => ?_⟩, fun s hs => ?_⟩
    all_goals rintro f ⟨⟩
    · rfl
    · rfl
    · rfl
    · exact ofJson_natural (hversion n hn)
    · exact ofJson_natural (hheartbeat n hn)
    · rfl
  case required => simp [shape, Members.find?, Members.find?_append]
  · obtain ⟨connectionId, serverName, modVersion, protocolVersion, heartbeatSeconds, message⟩ := a
    cases protocolVersion <;> cases heartbeatSeconds <;> cases message <;> rfl

end Acknowledgement

/-! ## Refusals -/

namespace Refusal

theorem ofJson_toJson (r : Refusal) : ofJson r.toJson = .ok r := by
  obtain ⟨errorCode, message⟩ := r
  cases errorCode <;> cases message <;> rfl

end Refusal

/-! ## Responses -/

namespace Response

def known (r : Response) : Members Json :=
  [("requestId", .str r.requestId)] ++ optionalMember "result" r.result .str ++
    optionalMember "message" r.message .str ++ optionalMember "payload" r.payload? id

theorem toJson_eq (r : Response) : r.toJson = .obj (r.known ++ r.extra) := rfl

def knownNames : List String := ["requestId", "result", "message", "payload"]

theorem field?_eq_none_iff {name : String} : shape.field? name = none ↔ name ∉ knownNames := by
  unfold Shape.field?
  rw [List.find?_eq_none]
  simp [shape, knownNames, eq_comm]

theorem known_sublist (r : Response) : r.known.names.Sublist knownNames := by
  unfold known
  simp only [Members.names, List.map_append]
  have hid : (List.map Prod.fst [("requestId", Json.str r.requestId)]).Sublist ["requestId"] := List.Sublist.refl _
  exact ((hid.append (names_optionalMember_sublist _ _ _)).append (names_optionalMember_sublist _ _ _)).append
    (names_optionalMember_sublist _ _ _)

/-- A response whose other fields have names of their own. -/
def Distinct (r : Response) : Prop := r.extra.names.Nodup ∧ ∀ name ∈ r.extra.names, name ∉ knownNames

theorem Distinct.nodup {r : Response} (h : r.Distinct) : (Members.names (r.known ++ r.extra)).Nodup := by
  rw [Members.names, List.map_append]
  refine List.nodup_append.mpr ⟨(known_sublist r).nodup (by decide), h.1, ?_⟩
  rintro name hknown _ hextra rfl
  exact h.2 name hextra ((known_sublist r).subset hknown)

/-- The others are those with names that the protocol does not know. -/
theorem Distinct.filter_eq {r : Response} (h : r.Distinct) :
    (r.known ++ r.extra).filter (fun m => (shape.field? m.1).isNone) = r.extra := by
  have hknown : r.known.filter (fun m => (shape.field? m.1).isNone) = [] := by
    refine List.filter_eq_nil_iff.mpr fun m hm hnone => ?_
    rw [Option.isNone_iff_eq_none, field?_eq_none_iff] at hnone
    exact hnone ((known_sublist r).subset (List.mem_map_of_mem hm))
  have hextra : r.extra.filter (fun m => (shape.field? m.1).isNone) = r.extra := by
    refine List.filter_eq_self.mpr fun m hm => ?_
    rw [Option.isNone_iff_eq_none, field?_eq_none_iff]
    exact h.2 m.1 (List.mem_map_of_mem hm)
  rw [List.filter_append, hknown, hextra, List.nil_append]

theorem Distinct.find? {r : Response} (h : r.Distinct) {name : String} (hname : name ∈ knownNames) :
    Members.find? name (r.known ++ r.extra) = r.known.find? name := by
  have hextra : r.extra.find? name = none := Members.find?_eq_none_iff.mpr fun hmem => h.2 name hmem hname
  rw [Members.find?_append, hextra, Option.or_none]

theorem takes_known (r : Response) : shape.Takes r.known := by
  unfold known
  simp only [takes_append, takes_cons, takes_optionalMember]
  refine ⟨⟨⟨⟨?_, nofun⟩, fun s hs => ?_⟩, fun s hs => ?_⟩, fun j hj => ?_⟩
  all_goals
    rintro f ⟨⟩
    rfl

theorem ofJson_toJson {r : Response} (h : r.Distinct) : ofJson r.toJson = .ok r := by
  rw [toJson_eq]
  unfold ofJson
  rw [ofJson_obj_of_kept (kept_of_isOpen rfl _) ?takes ?required]
  case takes =>
    refine takes_append.mpr ⟨takes_known r, fun m hm f hf => ?_⟩
    rw [field?_eq_none_iff.mpr (h.2 m.1 (List.mem_map_of_mem hm))] at hf
    cases hf
  case required =>
    simp only [shape, List.forall_mem_cons]
    refine ⟨fun _ => ?_, nofun, nofun, nofun, nofun⟩
    rw [h.find? (by decide)]
    rfl
  · show Except.ok (ofMembers (r.known ++ r.extra)) = .ok r
    unfold ofMembers Members.text?
    rw [h.find? (by decide), h.find? (by decide), h.find? (by decide), h.find? (by decide), h.filter_eq,
      Members.merge_of_nodup h.1]
    obtain ⟨requestId, result, message, payload?, extra⟩ := r
    cases result <;> cases message <;> cases payload? <;> rfl

/-! ## What is read is kept -/

/-- The response has the members that were received, each name once. -/
structure Keeps (r : Response) (ms : Members Json) : Prop where
  received : ms.names.Nodup
  /-- The fields that are known come first, then the others as they were received. -/
  written : r.toJson = .obj (r.known ++ ms.filter fun m => m.1 ∉ knownNames)
  order : r.known.names.Sublist knownNames
  /-- Only a null that stands for no result or no message is left out. -/
  mem_known_iff : ∀ m, m ∈ r.known ↔
    m ∈ ms ∧ m.1 ∈ knownNames ∧ ¬((m.1 = "result" ∨ m.1 = "message") ∧ m.2 = .null)
  payload : r.payload? = ms.find? "payload"

theorem asText_eq_ok {j v : Json} (h : asText j = .ok v) : ∃ s, j = .str s := by
  unfold asText at h
  split at h
  · exact ⟨_, rfl⟩
  · cases h

theorem nullableText_eq_ok {name : String} {j v : Json} (h : Field.ofJson ⟨name, .text, .nullable⟩ j = .ok v) :
    j = .null ∨ ∃ s, j = .str s := by
  unfold Field.ofJson at h
  split at h
  · exact .inl rfl
  · exact .inr (asText_eq_ok h)

section
variable {ms : Members Json}

theorem Keeps.extra {r : Response} (h : r.Keeps ms) : r.extra = ms.filter fun m => m.1 ∉ knownNames := by
  have hwritten := h.written
  rw [toJson_eq, Json.obj.injEq] at hwritten
  exact List.append_cancel_left hwritten

theorem find?_eq_some_iff (hnodup : ms.names.Nodup) {name : String} {j : Json} :
    ms.find? name = some j ↔ (name, j) ∈ ms :=
  ⟨Members.mem_of_find?, fun h => Members.find?_of_mem hnodup h⟩

theorem text?_eq_some_iff {name s : String} : ms.text? name = some s ↔ ms.find? name = some (.str s) := by
  unfold Members.text?
  cases ms.find? name with
  | none => simp
  | some j => cases j <;> simp [Json.text?]

/-- A text that may be null is left out if it is. -/
theorem mem_optionalText_iff {name : String} (hfit : ∀ j, ms.find? name = some j → j = .null ∨ ∃ s, j = .str s)
    {m : String × Json} :
    m ∈ optionalMember name (ms.text? name) .str ↔ m.1 = name ∧ ms.find? name = some m.2 ∧ m.2 ≠ .null := by
  rw [mem_optionalMember_iff]
  constructor
  · rintro ⟨s, hs, rfl⟩
    exact ⟨rfl, text?_eq_some_iff.mp hs, nofun⟩
  · rintro ⟨rfl, hfind, hne⟩
    obtain ⟨s, hs⟩ := (hfit _ hfind).resolve_left hne
    exact ⟨s, text?_eq_some_iff.mpr (hs ▸ hfind), Prod.ext rfl hs⟩

/-- What it takes to be a response. -/
theorem fields_of_ofJson (hnodup : ms.names.Nodup) {r : Response} (h : ofJson (.obj ms) = .ok r) :
    r = ofMembers ms ∧ (∃ s, ms.find? "requestId" = some (.str s)) ∧
      (∀ j, ms.find? "result" = some j → j = .null ∨ ∃ s, j = .str s) ∧
      ∀ j, ms.find? "message" = some j → j = .null ∨ ∃ s, j = .str s := by
  unfold ofJson at h
  cases hshape : shape.ofJson (.obj ms) with
  | error f =>
    rw [hshape] at h
    cases h
  | ok found =>
    rw [hshape] at h
    obtain ⟨htakes, hrequired, rfl⟩ := ofJson_obj_eq_ok_iff.mp hshape
    rw [kept_of_isOpen rfl] at h hrequired
    have hfind : ∀ name j, ms.find? name = some j → (name, j) ∈ ms := fun name j => (find?_eq_some_iff hnodup).mp
    obtain ⟨j, hj⟩ := Option.isSome_iff_exists.mp (hrequired _ List.mem_cons_self rfl)
    obtain ⟨s, rfl⟩ := asText_eq_ok (htakes _ (hfind _ _ hj) ⟨"requestId", .text, .required⟩ rfl)
    refine ⟨(Except.ok.inj h).symm, ⟨s, hj⟩, fun j hj => ?_, fun j hj => ?_⟩
    · exact nullableText_eq_ok (htakes _ (hfind _ _ hj) ⟨"result", .text, .nullable⟩ rfl)
    · exact nullableText_eq_ok (htakes _ (hfind _ _ hj) ⟨"message", .text, .nullable⟩ rfl)

theorem extra_ofMembers (hnodup : ms.names.Nodup) : (ofMembers ms).extra = ms.filter fun m => m.1 ∉ knownNames := by
  have hfilter : ms.filter (fun m => (shape.field? m.1).isNone) = ms.filter fun m => m.1 ∉ knownNames := by
    refine List.filter_congr fun m _ => ?_
    rw [Bool.eq_iff_iff, Option.isNone_iff_eq_none, field?_eq_none_iff, decide_eq_true_eq]
  have hnames : (Members.names (ms.filter fun m => m.1 ∉ knownNames)).Nodup :=
    (List.filter_sublist.map _).nodup hnodup
  unfold ofMembers
  rw [hfilter, Members.merge_of_nodup hnames]

theorem mem_known_ofMembers_iff (hid : ∃ s, ms.find? "requestId" = some (.str s))
    (hresult : ∀ j, ms.find? "result" = some j → j = .null ∨ ∃ s, j = .str s)
    (hmessage : ∀ j, ms.find? "message" = some j → j = .null ∨ ∃ s, j = .str s) {m : String × Json} :
    m ∈ (ofMembers ms).known ↔
      ms.find? m.1 = some m.2 ∧ m.1 ∈ knownNames ∧ ¬((m.1 = "result" ∨ m.1 = "message") ∧ m.2 = .null) := by
  obtain ⟨requestId, hid⟩ := hid
  have hgiven : (ofMembers ms).requestId = requestId := by
    unfold ofMembers
    rw [text?_eq_some_iff.mpr hid]
    rfl
  have hpayload : m ∈ optionalMember "payload" (ofMembers ms).payload? id ↔
      ∃ j, ms.find? "payload" = some j ∧ m = ("payload", j) := mem_optionalMember_iff
  have hresult := mem_optionalText_iff (m := m) hresult
  have hmessage := mem_optionalText_iff (m := m) hmessage
  unfold known
  rw [hgiven, List.mem_append, List.mem_append, List.mem_append, List.mem_singleton, hpayload]
  constructor
  · rintro (((rfl | hm) | hm) | ⟨j, hj, rfl⟩)
    · exact ⟨hid, by simp [knownNames], by simp⟩
    · obtain ⟨hname, hfind, hne⟩ := hresult.mp hm
      exact ⟨hname ▸ hfind, by simp [hname, knownNames], fun h => hne h.2⟩
    · obtain ⟨hname, hfind, hne⟩ := hmessage.mp hm
      exact ⟨hname ▸ hfind, by simp [hname, knownNames], fun h => hne h.2⟩
    · exact ⟨hj, by simp [knownNames], by simp⟩
  · rintro ⟨hm, hname, hnull⟩
    obtain ⟨name, j⟩ := m
    simp only [knownNames, List.mem_cons, List.not_mem_nil, or_false] at hname
    rcases hname with rfl | rfl | rfl | rfl
    · rw [hid] at hm
      cases hm
      exact .inl (.inl (.inl rfl))
    · exact .inl (.inl (.inr (hresult.mpr ⟨rfl, hm, fun h => hnull ⟨.inl rfl, h⟩⟩)))
    · exact .inl (.inr (hmessage.mpr ⟨rfl, hm, fun h => hnull ⟨.inr rfl, h⟩⟩))
    · exact .inr ⟨j, hm, rfl⟩

/-- **What is read of a response is kept.** -/
theorem keeps_of_ofJson (hnodup : ms.names.Nodup) {r : Response} (h : ofJson (.obj ms) = .ok r) :
    r.Distinct ∧ r.Keeps ms := by
  obtain ⟨rfl, hid, hresult, hmessage⟩ := fields_of_ofJson hnodup h
  have hextra := extra_ofMembers hnodup
  refine ⟨⟨?_, fun name hname => ?_⟩, hnodup, ?_, known_sublist _, fun m => ?_, rfl⟩
  · rw [hextra]
    exact (List.filter_sublist.map _).nodup hnodup
  · rw [hextra] at hname
    obtain ⟨m, hm, rfl⟩ := List.mem_map.mp hname
    simpa using (List.mem_filter.mp hm).2
  · rw [toJson_eq, hextra]
  · rw [mem_known_ofMembers_iff hid hresult hmessage, find?_eq_some_iff hnodup]

end
end Response
end TransitLink
