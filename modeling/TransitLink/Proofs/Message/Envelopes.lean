import TransitLink.Message.Envelope
import TransitLink.Proofs.Json.Parts
import TransitLink.Proofs.Json.Records
import TransitLink.Proofs.Json.Skipping

/-!
# Texts of envelopes

* `EnvelopeText frame type body` : the frame is the text of an object with one type, a string, and at most one body.
  Whatever else it holds only has to have the form of JSON.
* `Inbound.decode_of_text`, `Inbound.text_of_parse` : these are the objects that are read as envelopes, and what becomes
  of them rests on the two alone.
-/

namespace TransitLink

set_option autoImplicit false

open Json

namespace Inbound

/-- The text of a field that matters to the receiver, and the value that is kept of it. -/
def FieldText (depth : Nat) (name : String) (t : Bytes) (v : Json) : Prop :=
  if name = "type" then ∃ s, StringText t s ∧ v = .str s else ∃ j, TextOf depth t j ∧ v = merged j

/-- What a member makes of the fields found so far. -/
def Step (depth : Nat) (sofar : Members Json) (name : String) (t : Bytes) (next : Members Json) : Prop :=
  if name = "type" ∨ name = "body" then
    sofar.find? name = none ∧ ∃ v, FieldText depth name t v ∧ next = (name, v) :: sofar
  else Form t ∧ next = sofar

theorem field_accepts {depth : Nat} {f : Field} (hf : f ∈ envelopeShape.fields) :
    Accepts (f.read depth) (FieldText depth f.name) := by
  simp only [envelopeShape, List.mem_cons, List.not_mem_nil, or_false] at hf
  rcases hf with rfl | rfl
  · exact ((readText_accepts Kind.text.wanted).map Json.str).afterSpace
  · exact ((value_accepts depth).map merged).afterSpace

/-- The fields of an envelope are the two with these names. -/
theorem field?_cases (name : String) :
    (name = "type" ∨ name = "body") ∧ (∃ f ∈ envelopeShape.fields, f.name = name ∧ envelopeShape.field? name = some f) ∨
      ¬(name = "type" ∨ name = "body") ∧ envelopeShape.field? name = none := by
  by_cases htype : name = "type"
  · subst htype
    exact .inl ⟨.inl rfl, _, List.mem_cons_self, rfl, rfl⟩
  by_cases hbody : name = "body"
  · subst hbody
    exact .inl ⟨.inr rfl, _, List.mem_cons_of_mem _ List.mem_cons_self, rfl, rfl⟩
  · refine .inr ⟨by simp [htype, hbody], ?_⟩
    simp [Shape.field?, envelopeShape, Ne.symm htype, Ne.symm hbody]

theorem member_admits (depth : Nat) : Admits (envelopeShape.member depth) (Step depth) := by
  intro sofar name
  unfold Shape.member Step
  rcases field?_cases name with ⟨hname, f, hf, rfl, hfield⟩ | ⟨hname, hfield⟩
  · simp only [hfield, hname, if_true]
    cases hfound : sofar.find? f.name with
    | some v => exact .inr ⟨⟨_, rfl⟩, fun t next h => nomatch h.1⟩
    | none =>
      refine .inl ⟨_, rfl, ?_⟩
      simp only [true_and]
      exact (field_accepts hf).map fun v => (f.name, v) :: sofar
  · simp only [hfield, hname, if_false]
    refine .inl ⟨_, rfl, ?_⟩
    exact skipValue_accepts sofar

/-! ## Fields that are found -/

def textsOf (name : String) (fields : List (String × Bytes)) : List Bytes :=
  (fields.filter fun f => f.1 = name).map Prod.snd

theorem textsOf_cons_same (f : String × Bytes) (fields : List (String × Bytes)) :
    textsOf f.1 (f :: fields) = f.2 :: textsOf f.1 fields := by
  simp [textsOf]

theorem textsOf_cons_other {name : String} {f : String × Bytes} (h : f.1 ≠ name) (fields : List (String × Bytes)) :
    textsOf name (f :: fields) = textsOf name fields := by
  simp [textsOf, h]

theorem find?_reverse_eq_none_iff {ms : Members Json} {name : String} :
    Members.find? name ms.reverse = none ↔ ms.find? name = none := by
  rw [Members.find?_eq_none_iff, Members.find?_eq_none_iff, Members.names, Members.names, List.map_reverse,
    List.mem_reverse]

theorem find?_reverse_cons (name : String) (m : String × Json) (ms : Members Json) :
    Members.find? name (m :: ms).reverse = (Members.find? name ms.reverse).or (if m.1 = name then some m.2 else none) := by
  rw [List.reverse_cons, Members.find?_append]
  rfl

section
variable {depth : Nat} {fields : List (String × Bytes)} {a c : Members Json}

/-- A field that matters is found at most once, and its value is kept. -/
theorem texts_of_folds (h : Folds (Step depth) a fields c) {name : String} (hname : name = "type" ∨ name = "body") :
    textsOf name fields = [] ∧ Members.find? name c.reverse = Members.find? name a.reverse ∨
      a.find? name = none ∧ ∃ t v, textsOf name fields = [t] ∧ FieldText depth name t v ∧
        Members.find? name c.reverse = some v := by
  induction h with
  | nil a => exact .inl ⟨rfl, rfl⟩
  | @cons a b c f fields hstep _ ih =>
    unfold Step at hstep
    by_cases hf : f.1 = name
    · subst hf
      rw [if_pos hname] at hstep
      obtain ⟨hfresh, v, hv, rfl⟩ := hstep
      have hput : Members.find? f.1 ((f.1, v) :: a).reverse = some v := by
        rw [find?_reverse_cons, find?_reverse_eq_none_iff.mpr hfresh, if_pos rfl, Option.none_or]
      rcases ih with ⟨hnone, hc⟩ | ⟨hagain, -⟩
      · exact .inr ⟨hfresh, f.2, v, by rw [textsOf_cons_same, hnone], hv, hc.trans hput⟩
      · rw [find?_reverse_eq_none_iff.mpr hagain] at hput
        cases hput
    · have hb : b.find? name = a.find? name ∧ Members.find? name b.reverse = Members.find? name a.reverse := by
        split at hstep
        · obtain ⟨-, v, -, rfl⟩ := hstep
          refine ⟨by rw [Members.find?, if_neg hf], ?_⟩
          rw [find?_reverse_cons, if_neg hf, Option.or_none]
        · obtain ⟨-, rfl⟩ := hstep
          exact ⟨rfl, rfl⟩
      rw [textsOf_cons_other hf, ← hb.1, ← hb.2]
      exact ih

theorem form_of_folds (h : Folds (Step depth) a fields c) {f : String × Bytes} (hf : f ∈ fields)
    (hname : ¬(f.1 = "type" ∨ f.1 = "body")) : Form f.2 := by
  induction h with
  | nil => cases hf
  | cons hstep _ ih =>
    rcases List.mem_cons.mp hf with rfl | hf
    · unfold Step at hstep
      rw [if_neg hname] at hstep
      exact hstep.1
    · exact ih hf

theorem exists_folds (hforms : ∀ f ∈ fields, ¬(f.1 = "type" ∨ f.1 = "body") → Form f.2)
    (htexts : ∀ name, name = "type" ∨ name = "body" → textsOf name fields = [] ∨
      a.find? name = none ∧ ∃ t v, textsOf name fields = [t] ∧ FieldText depth name t v) :
    ∃ c, Folds (Step depth) a fields c := by
  induction fields generalizing a with
  | nil => exact ⟨a, .nil a⟩
  | cons f fields ih =>
    obtain ⟨hform, hforms⟩ := List.forall_mem_cons.mp hforms
    by_cases hname : f.1 = "type" ∨ f.1 = "body"
    · rcases htexts f.1 hname with hnone | ⟨hfresh, t, v, ht, hv⟩
      · rw [textsOf_cons_same] at hnone
        cases hnone
      · rw [textsOf_cons_same, List.cons.injEq] at ht
        obtain ⟨rfl, hrest⟩ := ht
        obtain ⟨c, hc⟩ := ih (a := (f.1, v) :: a) hforms fun name hname' => by
          by_cases hf : f.1 = name
          · exact .inl (hf ▸ hrest)
          · have h := htexts name hname'
            rwa [textsOf_cons_other hf, ← show Members.find? name ((f.1, v) :: a) = a.find? name by
              rw [Members.find?, if_neg hf]] at h
        have hstep : Step depth a f.1 f.2 ((f.1, v) :: a) := by
          unfold Step
          rw [if_pos hname]
          exact ⟨hfresh, v, hv, rfl⟩
        exact ⟨c, .cons hstep hc⟩
    · obtain ⟨c, hc⟩ := ih (a := a) hforms fun name hname' => by
        have hf : f.1 ≠ name := fun hf => hname (hf ▸ hname')
        rw [← textsOf_cons_other hf]
        exact htexts name hname'
      have hstep : Step depth a f.1 f.2 a := by
        unfold Step
        rw [if_neg hname]
        exact ⟨hform hname, rfl⟩
      exact ⟨c, .cons hstep hc⟩

end

/-! ## Envelopes -/

/-- The frame is the text of an object, with these names and texts of values. -/
def ObjectText (frame : Bytes) (fields : List (String × Bytes)) : Prop :=
  ∃ ws t us ws', frame = ws ++ 0x7b :: (t ++ ws') ∧ Blank ws ∧ Blank ws' ∧ Parts 0x7d t us ∧
    List.Forall₂ MemberText us fields

/-- What a body is whose texts these are: null if there is none, else the value of the only one. -/
def BodyText : List Bytes → Json → Prop
  | [], body => body = .null
  | [t], body => ∃ j, TextOf (maxDepth - 1) t j ∧ body = merged j
  | _, _ => False

/-- The frame is the text of an object with one type, a string, and at most one body. -/
def EnvelopeText (frame : Bytes) (type : String) (body : Json) : Prop :=
  ∃ fields, ObjectText frame fields ∧ (∃ t, textsOf "type" fields = [t] ∧ StringText t type) ∧
    BodyText (textsOf "body" fields) body ∧ ∀ f ∈ fields, ¬(f.1 = "type" ∨ f.1 = "body") → Form f.2

/-- Nothing is missing where there is a type. -/
theorem checkMissing_iff {found ms : Members Json} :
    envelopeShape.checkMissing found = .ok ms ↔ (found.find? "type").isSome ∧ ms = found := by
  rw [checkMissing_eq_ok_iff]
  simp [envelopeShape]

theorem read_object {ws : Bytes} (hws : Blank ws) (bs : Bytes) :
    envelopeShape.read maxDepth (ws ++ 0x7b :: bs) = (do
      let (found, rest) ← objectMembers (envelopeShape.member (maxDepth - 1)) [] bs
      .ok (← envelopeShape.checkMissing found.reverse, rest)) := by
  unfold Shape.read
  rw [skipSpace_blank_cons hws (by decide)]
  rfl

theorem parse_object_iff {ws bs : Bytes} (hws : Blank ws) {ms : Members Json} :
    envelopeShape.parse (ws ++ 0x7b :: bs) = .ok ms ↔ ∃ fields c, ObjectText (ws ++ 0x7b :: bs) fields ∧
      Folds (Step (maxDepth - 1)) [] fields c ∧ (Members.find? "type" c.reverse).isSome ∧ ms = c.reverse := by
  unfold Shape.parse
  rw [complete_eq_ok_iff, read_object hws]
  constructor
  · rintro ⟨ws', hws', hobject⟩
    obtain ⟨⟨c, rest⟩, hmembers, hrest⟩ := bind_eq_ok_iff.mp hobject
    obtain ⟨found, hmissing, hok⟩ := bind_eq_ok_iff.mp hrest
    cases hok
    obtain ⟨htype, rfl⟩ := checkMissing_iff.mp hmissing
    obtain ⟨t, us, fields, rfl, ht, hus, hfolds⟩ := (objectMembers_eq_ok_iff (member_admits _)).mp hmembers
    exact ⟨fields, c, ⟨ws, t, us, ws', rfl, hws, hws', ht, hus⟩, hfolds, htype, rfl⟩
  · rintro ⟨fields, c, ⟨ws₂, t, us, ws', hframe, hws₂, hws', ht, hus⟩, hfolds, htype, rfl⟩
    have hbs := skipSpace_blank_cons hws (by decide : isSpace 0x7b = false) bs
    rw [hframe, skipSpace_blank_cons hws₂ (by decide), List.cons.injEq] at hbs
    refine ⟨ws', hws', ?_⟩
    rw [← hbs.2]
    have hmembers : objectMembers (envelopeShape.member (maxDepth - 1)) [] (t ++ ws') = .ok (c, ws') :=
      (objectMembers_eq_ok_iff (member_admits _)).mpr ⟨t, us, fields, rfl, ht, hus, hfolds⟩
    refine bind_eq_ok_iff.mpr ⟨(c, ws'), hmembers, ?_⟩
    exact bind_eq_ok_iff.mpr ⟨_, checkMissing_iff.mpr ⟨htype, rfl⟩, rfl⟩

theorem fieldText_unique {depth : Nat} {name : String} (hname : name = "type" ∨ name = "body") {t : Bytes} {v w : Json}
    (hv : FieldText depth name t v) (hw : FieldText depth name t w) : v = w := by
  rcases field?_cases name with ⟨-, f, hf, rfl, -⟩ | ⟨hother, -⟩
  · exact (field_accepts hf).unique hv hw
  · exact absurd hname hother

/-- What the texts under a name say is found under that name. -/
theorem find?_of_folds {depth : Nat} {fields : List (String × Bytes)} {c : Members Json}
    (h : Folds (Step depth) [] fields c) {name : String} (hname : name = "type" ∨ name = "body") :
    (textsOf name fields = [] → Members.find? name c.reverse = none) ∧
      ∀ t v, textsOf name fields = [t] → FieldText depth name t v → Members.find? name c.reverse = some v := by
  rcases texts_of_folds h hname with ⟨hnone, hc⟩ | ⟨-, t, v, ht, hv, hc⟩
  · refine ⟨fun _ => hc, fun t v ht => ?_⟩
    rw [hnone] at ht
    cases ht
  · refine ⟨fun hnone => ?_, fun t' v' ht' hv' => ?_⟩
    · rw [ht] at hnone
      cases hnone
    · rw [ht, List.cons.injEq] at ht'
      obtain ⟨rfl, -⟩ := ht'
      rw [hc, fieldText_unique hname hv hv']

/-- **An envelope means what its type and its body mean,** whatever else it holds and in whatever order. -/
theorem decode_of_text {frame : Bytes} {type : String} {body : Json} (h : EnvelopeText frame type body) :
    decode frame = classify type body := by
  obtain ⟨fields, hobject, ⟨t, ht, htype⟩, hbody, hforms⟩ := h
  have htext : FieldText (maxDepth - 1) "type" t (.str type) := ⟨type, htype, rfl⟩
  have hbodies : textsOf "body" fields = [] ∧ body = .null ∨
      ∃ u, textsOf "body" fields = [u] ∧ FieldText (maxDepth - 1) "body" u body := by
    unfold BodyText at hbody
    split at hbody
    · exact .inl ⟨by assumption, hbody⟩
    · exact .inr ⟨_, by assumption, hbody⟩
    · cases hbody
  obtain ⟨c, hc⟩ : ∃ c, Folds (Step (maxDepth - 1)) [] fields c := by
    refine exists_folds hforms ?_
    rintro name (rfl | rfl)
    · exact .inr ⟨rfl, t, _, ht, htext⟩
    · exact hbodies.imp And.left fun ⟨u, hu, hv⟩ => ⟨rfl, u, body, hu, hv⟩
  have hfound := (find?_of_folds hc (.inl rfl)).2 t _ ht htext
  have hparse : envelopeShape.parse frame = .ok c.reverse := by
    obtain ⟨ws, u, us, ws', rfl, hws, hrest⟩ := hobject
    refine (parse_object_iff hws).mpr ⟨fields, c, ⟨ws, u, us, ws', rfl, hws, hrest⟩, hc, ?_, rfl⟩
    rw [hfound]
    rfl
  have hgiven : (Members.find? "body" c.reverse).getD .null = body := by
    rcases hbodies with ⟨hnone, rfl⟩ | ⟨u, hu, hv⟩
    · rw [(find?_of_folds hc (.inr rfl)).1 hnone]
      rfl
    · rw [(find?_of_folds hc (.inr rfl)).2 u body hu hv]
      rfl
  unfold decode Members.text?
  rw [hparse]
  simp only [hfound, hgiven]
  rfl

/-- **What begins like an object and is read is the text of an envelope.** -/
theorem text_of_parse {ws bs : Bytes} (hws : Blank ws) {ms : Members Json}
    (h : envelopeShape.parse (ws ++ 0x7b :: bs) = .ok ms) :
    ∃ type, ms.text? "type" = some type ∧
      EnvelopeText (ws ++ 0x7b :: bs) type ((ms.find? "body").getD .null) := by
  obtain ⟨fields, c, hobject, hc, hsome, rfl⟩ := (parse_object_iff hws).mp h
  have hforms := fun f (hf : f ∈ fields) => form_of_folds hc hf
  rcases texts_of_folds hc (.inl rfl) with ⟨-, hnone⟩ | ⟨-, t, v, ht, ⟨type, htype, rfl⟩, hfound⟩
  · rw [hnone] at hsome
    cases hsome
  refine ⟨type, by rw [Members.text?, hfound]; rfl, fields, hobject, ⟨t, ht, htype⟩, ?_, hforms⟩
  rcases texts_of_folds hc (.inr rfl) with ⟨hbody, hnone⟩ | ⟨-, u, w, hu, hw, hbody⟩
  · rw [hbody, hnone]
    rfl
  · rw [hu, hbody]
    exact hw

end Inbound
end TransitLink
