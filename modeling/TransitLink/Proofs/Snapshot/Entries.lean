import TransitLink.Proofs.Json.Parts
import TransitLink.Proofs.Json.Records
import TransitLink.Snapshot.Blob

/-!
# Entries of a snapshot response

* `IsEntry` : the JSON values that have the shape of an entry, each with the entry that it is.
* `isEntry_iff` : these are the values out of which an entry is taken. An object may have other members, too.
* `listed` : the items of a payload's list of snapshots. `flatMap_entries` : what the entries yield, item by item.
-/

namespace TransitLink

set_option autoImplicit false

namespace Json

def IsOptionalText (j : Json) : Prop := j = .null ∨ ∃ s, j = .str s

def optionalText (name : String) : Field := ⟨name, .text, .nullable⟩

theorem ofJson_optionalText_eq_ok_iff {name : String} {j v : Json} :
    (optionalText name).ofJson j = .ok v ↔ v = j ∧ IsOptionalText j := by
  cases j <;> simp [optionalText, Field.ofJson, Kind.ofJson, asText, IsOptionalText, eq_comm]

/-- Out of a list come as many fields as it has items, in order. -/
theorem ofItems_optionalTexts_eq_ok_iff {s : Shape} {n : Nat} {names : List String} {items : List Json}
    {ms : Members Json} : s.ofItems n (names.map optionalText) items = .ok ms ↔
      (items.length ≤ names.length ∧ ∀ j ∈ items, IsOptionalText j) ∧ ms = names.zip items := by
  induction names generalizing n items ms with
  | nil => cases items <;> simp [Shape.ofItems, eq_comm]
  | cons name names ih =>
    cases items with
    | nil =>
      have hrequired : (((name :: names).map optionalText).any fun g => g.presence = .required) = false := by
        simp [optionalText]
      rw [List.map_cons, Shape.ofItems, ← List.map_cons, hrequired]
      simp [eq_comm]
    | cons j items =>
      rw [List.map_cons, Shape.ofItems, bind_eq_ok_iff]
      simp only [ofJson_optionalText_eq_ok_iff, bind_eq_ok_iff, ih, List.length_cons, Nat.add_le_add_iff_right,
        List.forall_mem_cons, List.zip_cons_cons, Except.ok.injEq]
      constructor
      · rintro ⟨_, ⟨rfl, hj⟩, _, ⟨⟨hlength, hitems⟩, rfl⟩, rfl⟩
        exact ⟨⟨hlength, hj, hitems⟩, rfl⟩
      · rintro ⟨⟨hlength, hj, hitems⟩, rfl⟩
        exact ⟨j, ⟨rfl, hj⟩, _, ⟨⟨hlength, hitems⟩, rfl⟩, rfl⟩

/-- Leaving out members that are not known does not matter. -/
theorem find?_kept {s : Shape} {name : String} (h : (s.field? name).isSome) (ms : Members Json) :
    Members.find? name (s.kept ms) = ms.find? name :=
  Members.find?_filter (fun _ => by rw [h, Bool.or_true]) ms

end Json

namespace Snapshot

open Json (IsOptionalText)

/-! ## The shape of an entry -/

/-- The JSON value is this entry: an object whose members of the two names are texts or null, if they are there, or a
list of at most two texts or nulls. -/
inductive IsEntry : Json → Entry → Prop where
  | object {ms : Members Json} : (∀ m ∈ ms, m.1 = "dimension" ∨ m.1 = "payload" → IsOptionalText m.2) →
      IsEntry (.obj ms) ⟨(ms.find? "dimension").bind Json.text?, ((ms.find? "payload").bind Json.text?).map Blob.mk⟩
  | list {items : List Json} : items.length ≤ 2 → (∀ j ∈ items, IsOptionalText j) →
      IsEntry (.arr items) ⟨items[0]?.bind Json.text?, (items[1]?.bind Json.text?).map Blob.mk⟩

theorem ofJson_eq_ok_iff {j : Json} {e : Entry} :
    Entry.ofJson j = .ok e ↔ ∃ ms, Entry.shape.ofJson j = .ok ms ∧ Entry.ofMembers ms = e := by
  rw [Entry.ofJson, map_eq_ok_iff]

/-- The known members have to be texts or null. -/
theorem takes_shape_iff {ms : Members Json} :
    Entry.shape.Takes ms ↔ ∀ m ∈ ms, m.1 = "dimension" ∨ m.1 = "payload" → IsOptionalText m.2 := by
  have hfield : ∀ (name : String) (f : Json.Field), Entry.shape.field? name = some f ↔
      (name = "dimension" ∨ name = "payload") ∧ f = Json.optionalText name := by
    intro name f
    by_cases hdimension : name = "dimension"
    · simp [Json.Shape.field?, Entry.shape, Json.optionalText, hdimension, eq_comm]
    · by_cases hpayload : name = "payload"
      · simp [Json.Shape.field?, Entry.shape, Json.optionalText, hpayload, eq_comm]
      · simp [Json.Shape.field?, Entry.shape, Ne.symm hdimension, Ne.symm hpayload, hdimension, hpayload]
  refine forall₂_congr fun m _ => ⟨fun h hname => ?_, fun h f hf => ?_⟩
  · exact (Json.ofJson_optionalText_eq_ok_iff.mp (h _ ((hfield _ _).mpr ⟨hname, rfl⟩))).2
  · obtain ⟨hname, rfl⟩ := (hfield _ _).mp hf
    exact Json.ofJson_optionalText_eq_ok_iff.mpr ⟨rfl, h hname⟩

theorem ofJson_object_eq_ok_iff {ms : Members Json} {e : Entry} :
    Entry.ofJson (.obj ms) = .ok e ↔ (∀ m ∈ ms, m.1 = "dimension" ∨ m.1 = "payload" → IsOptionalText m.2) ∧
      e = ⟨(ms.find? "dimension").bind Json.text?, ((ms.find? "payload").bind Json.text?).map Blob.mk⟩ := by
  have hoptional : ∀ f ∈ Entry.shape.fields, f.presence = .required →
      (Members.find? f.name (Entry.shape.kept ms)).isSome := by
    simp [Entry.shape]
  have hfields : Entry.ofMembers (Entry.shape.kept ms) =
      ⟨(ms.find? "dimension").bind Json.text?, ((ms.find? "payload").bind Json.text?).map Blob.mk⟩ := by
    rw [Entry.ofMembers, Json.find?_kept rfl, Json.find?_kept rfl]
  rw [ofJson_eq_ok_iff, ← takes_shape_iff, ← hfields]
  constructor
  · rintro ⟨found, hfound, rfl⟩
    obtain ⟨htakes, -, rfl⟩ := Json.ofJson_obj_eq_ok_iff.mp hfound
    exact ⟨htakes, rfl⟩
  · rintro ⟨htakes, rfl⟩
    exact ⟨_, Json.ofJson_obj_eq_ok_iff.mpr ⟨htakes, hoptional, rfl⟩, rfl⟩

/-- The fields of a list are its items, in order. -/
theorem ofJson_list_eq_ok_iff {items : List Json} {e : Entry} :
    Entry.ofJson (.arr items) = .ok e ↔ (items.length ≤ 2 ∧ ∀ j ∈ items, IsOptionalText j) ∧
      e = ⟨items[0]?.bind Json.text?, (items[1]?.bind Json.text?).map Blob.mk⟩ := by
  have hlist : ∀ found, Entry.shape.ofJson (.arr items) = .ok found ↔
      (items.length ≤ 2 ∧ ∀ j ∈ items, IsOptionalText j) ∧ found = ["dimension", "payload"].zip items := by
    intro found
    change Entry.shape.ofItems 0 (["dimension", "payload"].map Json.optionalText) items = _ ↔ _
    exact Json.ofItems_optionalTexts_eq_ok_iff
  have hfields : Entry.ofMembers (["dimension", "payload"].zip items) =
      ⟨items[0]?.bind Json.text?, (items[1]?.bind Json.text?).map Blob.mk⟩ := by
    rcases items with _ | ⟨dimension, _ | ⟨payload, items⟩⟩ <;> rfl
  rw [ofJson_eq_ok_iff, ← hfields]
  constructor
  · rintro ⟨found, hfound, rfl⟩
    obtain ⟨hitems, rfl⟩ := (hlist found).mp hfound
    exact ⟨hitems, rfl⟩
  · rintro ⟨hitems, rfl⟩
    exact ⟨_, (hlist _).mpr ⟨hitems, rfl⟩, rfl⟩

theorem isEntry_iff {j : Json} {e : Entry} : IsEntry j e ↔ Entry.ofJson j = .ok e := by
  constructor
  · rintro (h | ⟨hlength, h⟩)
    · exact ofJson_object_eq_ok_iff.mpr ⟨h, rfl⟩
    · exact ofJson_list_eq_ok_iff.mpr ⟨⟨hlength, h⟩, rfl⟩
  · intro h
    cases j with
    | obj ms =>
      obtain ⟨hms, rfl⟩ := ofJson_object_eq_ok_iff.mp h
      exact .object hms
    | arr items =>
      obtain ⟨⟨hlength, hitems⟩, rfl⟩ := ofJson_list_eq_ok_iff.mp h
      exact .list hlength hitems
    | _ => cases h

/-! ## Lists of entries -/

/-- The items of a payload's list of snapshots. -/
def listed (payload : Json) : List Json :=
  match payload.get? "snapshots" with
  | some (.arr items) => items
  | _ => []

/-- What the entries of a payload yield is what its items yield, each by itself. -/
theorem flatMap_entries {β : Type} (f : Entry → List β) (payload : Json) :
    (entries payload).flatMap f =
      (listed payload).flatMap fun j => match Entry.ofJson j with
        | .ok e => f e
        | .error _ => [] := by
  have hitems : ((payload.get? "snapshots").bind Json.items?).getD [] = listed payload := by
    unfold listed
    cases payload.get? "snapshots" with
    | none => rfl
    | some j => cases j <;> rfl
  rw [entries, hitems]
  induction listed payload with
  | nil => rfl
  | cons j js ih =>
    rw [List.flatMap_cons, ← ih]
    cases hentry : Entry.ofJson j with
    | error e => rw [List.filterMap_cons_none (by rw [hentry]; rfl), List.nil_append]
    | ok e => rw [List.filterMap_cons_some (by rw [hentry]; rfl), List.flatMap_cons]

end Snapshot
end TransitLink
