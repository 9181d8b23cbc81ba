import TransitLink.Json.Record
import TransitLink.Proofs.Json.Values

/-!
# Records in lists and in values

* `readText_accepts` : which strings a field takes.
* `Items P fields us ms` : the texts `us` are values of the first of the fields, in order, and no other is required.
  `readItems_eq_ok_iff` : these are the lists that are read as records.
* `ofJson_obj_eq_ok_iff` : which members of an object are kept as fields of a record, and `ofJson_obj_of_kept` : what is
  kept already stays as it is.
-/

namespace TransitLink.Json

set_option autoImplicit false

/-! ## Readers of fields -/

variable {α : Type}

/-- Blanks may be passed over before a reader. -/
theorem Accepts.afterSpace {read : Reader α} {P : Bytes → α → Prop} (h : Accepts read P) :
    Accepts (fun bs => read (skipSpace bs)) P := by
  refine ⟨h.starts, fun bs v rest hread => ?_, fun ws t v rest hws ht hrest => ?_⟩
  · obtain ⟨ws, hws, hbs⟩ := exists_blank bs
    obtain ⟨ws', t, hws', hafter, ht⟩ := h.sound _ _ _ hread
    refine ⟨ws ++ ws', t, hws.append hws', ?_, ht⟩
    rw [List.append_assoc, ← hafter]
    exact hbs
  · obtain ⟨b, u, rfl, hb, -⟩ := h.starts t v ht
    have hread := h.complete [] (b :: u) v rest blank_nil ht hrest
    rwa [List.cons_append, skipSpace_blank_cons hws hb]

/-- The value of a text is the only one. -/
theorem Accepts.unique {read : Reader α} {P : Bytes → α → Prop} (h : Accepts read P) {t : Bytes} {v w : α} (hv : P t v)
    (hw : P t w) : v = w := by
  have hread := h.complete [] t v [] blank_nil hv trivial
  rw [h.complete [] t w [] blank_nil hw trivial] at hread
  cases hread
  rfl

theorem StringText.form {t : Bytes} {s : String} (h : StringText t s) : Form t := by
  obtain ⟨n, rfl, hn⟩ := h
  exact .scalar (.string hn.form)

theorem readText_accepts (wanted : String) : Accepts (readText wanted) StringText := by
  refine ⟨?_, fun bs s rest hread => ?_, ?_⟩
  · rintro t s ⟨n, rfl, -⟩
    exact ⟨_, _, rfl, by decide⟩
  · unfold readText at hread
    split at hread
    · cases hread
    · rename_i b after hskip
      obtain ⟨ws, hws, rfl⟩ := skipSpace_eq_cons hskip
      split at hread
      · rename_i hb
        obtain ⟨n, rfl, hn⟩ := stringBody_eq_ok_iff.mp hread
        exact ⟨ws, b :: n, hws, rfl, n, hb ▸ rfl, hn⟩
      · cases hread
  · rintro ws t s rest hws ⟨n, rfl, hn⟩ -
    unfold readText
    rw [List.cons_append, skipSpace_blank_cons hws (by decide)]
    exact stringBody_eq_ok_iff.mpr ⟨n, rfl, hn⟩

/-! ## Records in lists -/

/-- The texts are values of the first of the fields, in order, and no other field is required. -/
inductive Items (P : Field → Bytes → Json → Prop) : List Field → List Bytes → Members Json → Prop where
  | done {fs : List Field} : (∀ f ∈ fs, f.presence ≠ .required) → Items P fs [] []
  | next {f : Field} {fs : List Field} {u : Bytes} {us : List Bytes} {v : Json} {ms : Members Json} : P f u v →
      Items P fs us ms → Items P (f :: fs) (u :: us) ((f.name, v) :: ms)

theorem endOfList_eq_ok_iff {bs rest : Bytes} : endOfList bs = .ok rest ↔ ∃ w, Blank w ∧ bs = w ++ 0x5d :: rest := by
  unfold endOfList
  constructor
  · intro h
    split at h
    · cases h
    · rename_i b after hskip
      obtain ⟨w, hw, rfl⟩ := skipSpace_eq_cons hskip
      split at h
      · rename_i hb
        cases h
        exact ⟨w, hw, hb ▸ rfl⟩
      · split at h <;> cases h
  · rintro ⟨w, hw, rfl⟩
    rw [skipSpace_blank_cons hw (by decide)]
    rfl

section
variable {s : Shape} {depth : Nat} {P : Field → Bytes → Json → Prop} {f : Field} {fs : List Field} {bs rest : Bytes}
  {ms : Members Json}

def itemFrom (s : Shape) (depth n : Nat) (f : Field) (fs : List Field) : Reader (Members Json) := fun bs => do
  let (v, bs) ← f.read depth bs
  let (rest, bs) ← s.readItems depth (n + 1) fs bs
  .ok ((f.name, v) :: rest, bs)

theorem readItems_cons (s : Shape) (depth n : Nat) (f : Field) (fs : List Field) (bs : Bytes) :
    s.readItems depth n (f :: fs) bs =
      match skipSpace bs with
      | [] => .error .endInList
      | b :: rest =>
        if b = 0x5d then
          if (f :: fs).any fun g => g.presence = .required then .error (.invalidLength n s.wantedElements)
          else .ok ([], rest)
        else if n = 0 then itemFrom s depth n f fs (b :: rest)
        else if b = 0x2c then
          match skipSpace rest with
          | [] => .error .endInValue
          | c :: rest => if c = 0x5d then .error .trailingComma else itemFrom s depth n f fs (c :: rest)
        else .error .expectedListCommaOrEnd := by
  rw [Shape.readItems]
  rfl

theorem any_required_eq_false_iff {fs : List Field} :
    (fs.any fun g => g.presence = .required) = false ↔ ∀ f ∈ fs, f.presence ≠ .required := by
  simp

theorem itemFrom_of_parts (hf : Accepts (f.read depth) (P f)) {u : Bytes} {v : Json} (hu : P f u v) {n : Nat}
    (hrest : s.readItems depth (n + 1) fs bs = .ok (ms, rest)) (hbs : Delimited bs) :
    itemFrom s depth n f fs (u ++ bs) = .ok ((f.name, v) :: ms, rest) := by
  have hfield := hf.complete [] u v bs blank_nil hu hbs
  unfold itemFrom
  simp only [List.nil_append] at hfield
  simp only [hfield, hrest, bind, Except.bind]

theorem parts_of_itemFrom (hf : Accepts (f.read depth) (P f)) {n : Nat}
    (h : itemFrom s depth n f fs bs = .ok (ms, rest)) :
    ∃ w u v mid ms', Blank w ∧ bs = w ++ (u ++ mid) ∧ P f u v ∧ s.readItems depth (n + 1) fs mid = .ok (ms', rest) ∧
      ms = (f.name, v) :: ms' := by
  obtain ⟨⟨v, mid⟩, hv, hrest⟩ := bind_eq_ok_iff.mp h
  obtain ⟨⟨ms', last⟩, hms, hok⟩ := bind_eq_ok_iff.mp hrest
  cases hok
  obtain ⟨w, u, hw, hbs, hu⟩ := hf.sound _ _ _ hv
  exact ⟨w, u, v, mid, ms', hw, hbs, hu, hms, rfl⟩

theorem readItems_of_parts (hP : ∀ f ∈ fs, Accepts (f.read depth) (P f)) {t : Bytes} {us : List Bytes}
    (ht : MoreParts 0x5d t us) (hus : Items P fs us ms) {n : Nat} (hn : n ≠ 0) :
    s.readItems depth n fs (t ++ rest) = .ok (ms, rest) := by
  induction fs generalizing t us ms n with
  | nil =>
    cases hus
    cases ht with
    | close hw =>
      rw [Shape.readItems, endOfList_eq_ok_iff.mpr ⟨_, hw, List.append_assoc ..⟩]
      rfl
  | cons f fs ih =>
    rw [readItems_cons]
    cases ht with
    | @close w hw =>
      cases hus with
      | done hrequired =>
        rw [List.append_assoc, List.singleton_append, skipSpace_blank_cons hw (by decide)]
        simp only [if_true, any_required_eq_false_iff.mpr hrequired]
        rfl
    | @comma w w' u t us hw hw' ht =>
      cases hus with
      | next hu hus =>
        obtain ⟨hf, hfs⟩ := List.forall_mem_cons.mp hP
        obtain ⟨b, u', rfl, hb, hclosing⟩ := hf.starts _ _ hu
        have hitem := itemFrom_of_parts hf hu (ih hfs ht hus (Nat.succ_ne_zero n)) (ht.delimited (.inl rfl) rest)
        rw [List.cons_append] at hitem
        rw [List.append_assoc, List.cons_append, skipSpace_blank_cons hw (by decide)]
        simp only [List.append_assoc, List.cons_append, hn, skipSpace_blank_cons hw' hb, hclosing, hitem]
        simp

theorem parts_of_readItems (hP : ∀ f ∈ fs, Accepts (f.read depth) (P f)) {n : Nat} (hn : n ≠ 0)
    (h : s.readItems depth n fs bs = .ok (ms, rest)) :
    ∃ t us, bs = t ++ rest ∧ MoreParts 0x5d t us ∧ Items P fs us ms := by
  induction fs generalizing bs ms n with
  | nil =>
    rw [Shape.readItems] at h
    obtain ⟨after, hend, hok⟩ := bind_eq_ok_iff.mp h
    cases hok
    obtain ⟨w, hw, rfl⟩ := endOfList_eq_ok_iff.mp hend
    exact ⟨w ++ [0x5d], [], by simp, .close hw, .done (by simp)⟩
  | cons f fs ih =>
    rw [readItems_cons] at h
    split at h
    · cases h
    · rename_i b after hskip
      obtain ⟨w, hw, rfl⟩ := skipSpace_eq_cons hskip
      split at h
      · rename_i hb
        subst hb
        split at h
        · cases h
        · rename_i hrequired
          cases h
          exact ⟨w ++ [0x5d], [], by simp, .close hw, .done (any_required_eq_false_iff.mp (by simpa using hrequired))⟩
      split at h
      · rename_i hb
        subst hb
        split at h
        · cases h
        · rename_i c after hskip'
          obtain ⟨w', hw', rfl⟩ := skipSpace_eq_cons hskip'
          split at h
          · cases h
          · obtain ⟨hf, hfs⟩ := List.forall_mem_cons.mp hP
            obtain ⟨ws, u, v, mid, ms', hws, hu, hv, hmore, rfl⟩ := parts_of_itemFrom hf h
            obtain ⟨t, us, rfl, ht, hus⟩ := ih hfs (Nat.succ_ne_zero n) hmore
            refine ⟨w ++ 0x2c :: ((w' ++ ws) ++ (u ++ t)), u :: us, ?_, .comma hw (hw'.append hws) ht, .next hv hus⟩
            rw [hu]
            simp only [List.append_assoc, List.cons_append]
      · cases h

/-- **Which lists are read as records.** -/
theorem readItems_eq_ok_iff (hP : ∀ g ∈ f :: fs, Accepts (g.read depth) (P g)) :
    s.readItems depth 0 (f :: fs) bs = .ok (ms, rest) ↔ ∃ t us, bs = t ++ rest ∧ Parts 0x5d t us ∧ Items P (f :: fs) us ms := by
  obtain ⟨hf, hfs⟩ := List.forall_mem_cons.mp hP
  rw [readItems_cons]
  constructor
  · intro h
    split at h
    · cases h
    · rename_i b after hskip
      obtain ⟨w, hw, rfl⟩ := skipSpace_eq_cons hskip
      split at h
      · rename_i hb
        subst hb
        split at h
        · cases h
        · rename_i hrequired
          cases h
          exact ⟨w ++ [0x5d], [], by simp, .none hw, .done (any_required_eq_false_iff.mp (by simpa using hrequired))⟩
      · obtain ⟨ws, u, v, mid, ms', hws, hu, hv, hmore, rfl⟩ := parts_of_itemFrom hf h
        obtain ⟨t, us, rfl, ht, hus⟩ := parts_of_readItems hfs Nat.one_ne_zero hmore
        refine ⟨(w ++ ws) ++ (u ++ t), u :: us, ?_, .some (hw.append hws) ht, .next hv hus⟩
        rw [hu]
        simp only [List.append_assoc]
  · rintro ⟨t, us, rfl, ht, hus⟩
    cases ht with
    | @none w hw =>
      cases hus with
      | done hrequired =>
        rw [List.append_assoc, List.singleton_append, skipSpace_blank_cons hw (by decide)]
        simp only [if_true, any_required_eq_false_iff.mpr hrequired]
        rfl
    | @some w u t us hw ht =>
      cases hus with
      | next hu hus =>
        obtain ⟨b, u', rfl, hb, hclosing⟩ := hf.starts _ _ hu
        have hitem := itemFrom_of_parts hf hu (readItems_of_parts (s := s) hfs ht hus Nat.one_ne_zero)
          (ht.delimited (.inl rfl) rest)
        rw [List.cons_append] at hitem
        simp only [List.append_assoc, List.cons_append, skipSpace_blank_cons hw hb, hclosing, if_false, if_true, hitem]

end

/-! ## Records in values -/

theorem Kind.ofJson_eq_ok {k : Kind} {j v : Json} (h : k.ofJson j = .ok v) : v = j := by
  unfold Kind.ofJson at h
  split at h
  · unfold asText at h
    split at h
    · cases h
      rfl
    · cases h
  · unfold asNatural at h
    split at h
    · split at h
      · cases h
        rfl
      · cases h
    · cases h
  · split at h
    · obtain ⟨-, -, hok⟩ := bind_eq_ok_iff.mp h
      cases hok
      rfl
    · cases h
  · cases h
    rfl

/-- A field is taken as it is. -/
theorem Field.ofJson_eq_ok {f : Field} {j v : Json} (h : f.ofJson j = .ok v) : v = j := by
  unfold Field.ofJson at h
  split at h
  · cases h
    rfl
  · exact Kind.ofJson_eq_ok h

def Shape.kept (s : Shape) (ms : Members Json) : Members Json := ms.filter fun m => s.isOpen || (s.field? m.1).isSome

/-- Every member with a known name is fit for its field. -/
def Shape.Takes (s : Shape) (ms : Members Json) : Prop :=
  ∀ m ∈ ms, ∀ f, s.field? m.1 = some f → f.ofJson m.2 = .ok m.2

theorem kept_cons_known {s : Shape} {m : String × Json} {f : Field} (h : s.field? m.1 = some f) (ms : Members Json) :
    s.kept (m :: ms) = m :: s.kept ms := by
  unfold Shape.kept
  rw [List.filter_cons_of_pos (by simp [h])]

theorem kept_cons_unknown {s : Shape} {m : String × Json} (h : s.field? m.1 = none) (ms : Members Json) :
    s.kept (m :: ms) = if s.isOpen then m :: s.kept ms else s.kept ms := by
  unfold Shape.kept
  rw [List.filter_cons, h]
  simp

theorem ofMembers_eq_ok_iff {s : Shape} {ms found : Members Json} :
    s.ofMembers ms = .ok found ↔ s.Takes ms ∧ found = s.kept ms := by
  induction ms generalizing found with
  | nil =>
    rw [Shape.ofMembers, Except.ok.injEq]
    simp [Shape.kept, Shape.Takes, eq_comm]
  | cons m ms ih =>
    obtain ⟨name, j⟩ := m
    have htakes : s.Takes ((name, j) :: ms) ↔ (∀ f, s.field? name = some f → f.ofJson j = .ok j) ∧ s.Takes ms :=
      List.forall_mem_cons
    rw [Shape.ofMembers, htakes]
    cases hfield : s.field? name with
    | none =>
      rw [kept_cons_unknown hfield]
      constructor
      · intro h
        obtain ⟨rest, hrest, hok⟩ := bind_eq_ok_iff.mp h
        obtain ⟨hms, rfl⟩ := ih.mp hrest
        cases hok
        exact ⟨⟨nofun, hms⟩, rfl⟩
      · rintro ⟨⟨-, hms⟩, rfl⟩
        exact bind_eq_ok_iff.mpr ⟨_, ih.mpr ⟨hms, rfl⟩, rfl⟩
    | some f =>
      rw [kept_cons_known hfield]
      constructor
      · intro h
        obtain ⟨v, hv, h⟩ := bind_eq_ok_iff.mp h
        obtain ⟨rest, hrest, hok⟩ := bind_eq_ok_iff.mp h
        obtain ⟨hms, rfl⟩ := ih.mp hrest
        obtain rfl := Field.ofJson_eq_ok hv
        cases hok
        refine ⟨⟨?_, hms⟩, rfl⟩
        rintro _ ⟨⟩
        exact hv
      · rintro ⟨⟨hj, hms⟩, rfl⟩
        exact bind_eq_ok_iff.mpr ⟨j, hj f rfl, bind_eq_ok_iff.mpr ⟨_, ih.mpr ⟨hms, rfl⟩, rfl⟩⟩

theorem checkMissing_eq_ok_iff {s : Shape} {found ms : Members Json} :
    s.checkMissing found = .ok ms ↔
      (∀ f ∈ s.fields, f.presence = .required → (found.find? f.name).isSome) ∧ ms = found := by
  unfold Shape.checkMissing
  constructor
  · intro h
    split at h
    · cases h
    · rename_i hnone
      cases h
      refine ⟨fun f hf hrequired => ?_, rfl⟩
      simpa [hrequired, Option.isSome_iff_ne_none] using List.find?_eq_none.mp hnone f hf
  · rintro ⟨hall, rfl⟩
    have hnone : (s.fields.find? fun f => f.presence = .required ∧ (ms.find? f.name).isNone) = none := by
      refine List.find?_eq_none.mpr fun f hf => ?_
      simpa [Option.isSome_iff_ne_none] using hall f hf
    rw [hnone]

/-- **Which objects are records, and what is kept of them.** -/
theorem ofJson_obj_eq_ok_iff {s : Shape} {ms found : Members Json} :
    s.ofJson (.obj ms) = .ok found ↔ s.Takes ms ∧
      (∀ f ∈ s.fields, f.presence = .required → (Members.find? f.name (s.kept ms)).isSome) ∧ found = s.kept ms := by
  unfold Shape.ofJson
  rw [bind_eq_ok_iff]
  simp only [ofMembers_eq_ok_iff, checkMissing_eq_ok_iff]
  constructor
  · rintro ⟨_, ⟨htakes, rfl⟩, hall, rfl⟩
    exact ⟨htakes, hall, rfl⟩
  · rintro ⟨htakes, hall, rfl⟩
    exact ⟨_, ⟨htakes, rfl⟩, hall, rfl⟩

theorem kept_of_known {s : Shape} {ms : Members Json} (h : ∀ m ∈ ms, (s.field? m.1).isSome) : s.kept ms = ms := by
  refine List.filter_eq_self.mpr fun m hm => ?_
  rw [h m hm, Bool.or_true]

theorem kept_of_isOpen {s : Shape} (h : s.isOpen = true) (ms : Members Json) : s.kept ms = ms := by
  refine List.filter_eq_self.mpr fun m _ => ?_
  rw [h, Bool.true_or]

/-- An object of which everything is kept. -/
theorem ofJson_obj_of_kept {s : Shape} {ms : Members Json} (hkept : s.kept ms = ms) (htakes : s.Takes ms)
    (hrequired : ∀ f ∈ s.fields, f.presence = .required → (ms.find? f.name).isSome) : s.ofJson (.obj ms) = .ok ms := by
  refine ofJson_obj_eq_ok_iff.mpr ⟨htakes, ?_, hkept.symm⟩
  rwa [hkept]

end TransitLink.Json
