import TransitLink.Proofs.Json.Layout

/-!
# Values in JSON texts

* `TextOf depth t j` : the octets `t` are the text of the value `j`, in which lists and objects nest at most `depth` deep.
  `value_accepts` : these are the values that are read.
* `Form t` : the octets have the form of a JSON value, nested to any depth, with numbers of any size and strings of any
  octets. `TextOf.form` : every text of a value has it.
* `complete_eq_ok_iff` : a whole text is a value with blanks around it.
-/

namespace TransitLink.Json

set_option autoImplicit false

/-! ## Scalars -/

/-- The octets are the text of a value that is no list and no object. -/
inductive ScalarText : Bytes → Json → Prop where
  | null : ScalarText [0x6e, 0x75, 0x6c, 0x6c] .null
  | yes : ScalarText [0x74, 0x72, 0x75, 0x65] (.bool true)
  | no : ScalarText [0x66, 0x61, 0x6c, 0x73, 0x65] (.bool false)
  | string {t : Bytes} {s : String} : Spelled t (Bytes.ofText s) → ScalarText (0x22 :: t) (.str s)
  | positive {t : Bytes} {n : Numeral} {j : Json} : NumeralText t n → n.negative = false → n.value = .ok j →
      ScalarText t j
  | negative {t : Bytes} {n : Numeral} {j : Json} : NumeralText t n → n.negative = true → n.value = .ok j →
      ScalarText (0x2d :: t) j

/-- The octets have the form of a value that is no list and no object. -/
inductive ScalarForm : Bytes → Prop where
  | null : ScalarForm [0x6e, 0x75, 0x6c, 0x6c]
  | yes : ScalarForm [0x74, 0x72, 0x75, 0x65]
  | no : ScalarForm [0x66, 0x61, 0x6c, 0x73, 0x65]
  | string {t : Bytes} : StringForm t → ScalarForm (0x22 :: t)
  | positive {t : Bytes} {n : Numeral} : NumeralText t n → ScalarForm t
  | negative {t : Bytes} {n : Numeral} : NumeralText t n → ScalarForm (0x2d :: t)

theorem ScalarText.form {t : Bytes} {j : Json} (h : ScalarText t j) : ScalarForm t := by
  cases h with
  | null => exact .null
  | yes => exact .yes
  | no => exact .no
  | string h => exact .string h.form
  | positive h => exact .positive h
  | negative h => exact .negative h

theorem NumeralText.exists_cons {t : Bytes} {n : Numeral} (h : NumeralText t n) :
    ∃ b u, t = b :: u ∧ isDigit b = true := by
  obtain ⟨hwhole, -, f, e, -, -, rfl⟩ := h
  obtain ⟨d, ds, hds, hd⟩ := hwhole.exists_cons
  exact ⟨d, ds ++ (f ++ e), by rw [hds, List.cons_append], hd⟩

theorem ne_of_isDigit {b c : UInt8} (h : isDigit b = true) (hc : isDigit c = false) : b ≠ c := by
  rintro rfl
  rw [h] at hc
  cases hc

theorem isSpace_of_isDigit {b : UInt8} (h : isDigit b = true) : isSpace b = false := by
  refine Bool.eq_false_iff.mpr fun hb => ?_
  simp only [isSpace, Bool.or_eq_true, beq_iff_eq] at hb
  rcases hb with ((rfl | rfl) | rfl) | rfl <;> cases h

theorem ScalarForm.exists_cons {t : Bytes} (h : ScalarForm t) :
    ∃ b u, t = b :: u ∧ isSpace b = false ∧ b ≠ 0x5d ∧ b ≠ 0x5b ∧ b ≠ 0x7b := by
  cases h with
  | null | yes | no | string | negative => exact ⟨_, _, rfl, by decide⟩
  | positive h =>
    obtain ⟨b, u, rfl, hb⟩ := h.exists_cons
    exact ⟨b, u, rfl, isSpace_of_isDigit hb, ne_of_isDigit hb rfl, ne_of_isDigit hb rfl, ne_of_isDigit hb rfl⟩

theorem number_of_text {t rest : Bytes} {n : Numeral} {j : Json} (h : NumeralText t n) (hj : n.value = .ok j)
    (hrest : Delimited rest) : number n.negative (t ++ rest) = .ok (j, rest) := by
  unfold number
  simp only [numeral_of_text h hrest, hj, bind, Except.bind]

theorem text_of_number {negative : Bool} {bs rest : Bytes} {j : Json} (h : number negative bs = .ok (j, rest)) :
    ∃ t n, bs = t ++ rest ∧ NumeralText t n ∧ n.negative = negative ∧ n.value = .ok j := by
  unfold number at h
  obtain ⟨⟨n, after⟩, hn, hvalue⟩ := bind_eq_ok_iff.mp h
  obtain ⟨j', hj, hok⟩ := bind_eq_ok_iff.mp hvalue
  cases hok
  obtain ⟨hnegative, t, rfl, ht⟩ := text_of_numeral hn
  exact ⟨t, n, rfl, ht, hnegative, hj⟩

theorem scalar_of_text {b : UInt8} {t rest : Bytes} {j : Json} (h : ScalarText (b :: t) j) (hrest : Delimited rest) :
    scalar b (t ++ rest) = .ok (j, rest) := by
  unfold scalar
  generalize hbt : b :: t = bt at h
  cases h with
  | null | yes | no =>
    cases hbt
    rfl
  | string hs =>
    cases hbt
    simp only [stringBody_eq_ok_iff.mpr ⟨t, rfl, hs⟩]
    rfl
  | positive hn hnegative hj =>
    obtain ⟨b', u, rfl, hb⟩ := hn.exists_cons
    cases hbt
    rw [if_neg (ne_of_isDigit hb rfl), if_neg (ne_of_isDigit hb rfl), if_neg (ne_of_isDigit hb rfl),
      if_neg (ne_of_isDigit hb rfl), if_pos hb, ← hnegative, ← List.cons_append]
    exact number_of_text hn hj hrest
  | negative hn hnegative hj =>
    cases hbt
    have hnumber := number_of_text hn hj hrest
    rw [hnegative] at hnumber
    exact hnumber

theorem text_of_scalar {b : UInt8} {bs rest : Bytes} {j : Json} (h : scalar b bs = .ok (j, rest)) :
    ∃ t, bs = t ++ rest ∧ ScalarText (b :: t) j := by
  unfold scalar at h
  split at h
  · rename_i hb
    obtain ⟨after, hword, hok⟩ := bind_eq_ok_iff.mp h
    cases hok
    exact ⟨_, keyword_eq_ok_iff.mp hword, hb ▸ .null⟩
  split at h
  · rename_i hb
    obtain ⟨after, hword, hok⟩ := bind_eq_ok_iff.mp h
    cases hok
    exact ⟨_, keyword_eq_ok_iff.mp hword, hb ▸ .yes⟩
  split at h
  · rename_i hb
    obtain ⟨after, hword, hok⟩ := bind_eq_ok_iff.mp h
    cases hok
    exact ⟨_, keyword_eq_ok_iff.mp hword, hb ▸ .no⟩
  split at h
  · rename_i hb
    obtain ⟨t, n, rfl, ht, hnegative, hj⟩ := text_of_number h
    exact ⟨t, rfl, hb ▸ .negative ht hnegative hj⟩
  split at h
  · obtain ⟨t, n, hbs, ht, hnegative, hj⟩ := text_of_number h
    obtain ⟨b', u, rfl, -⟩ := ht.exists_cons
    obtain ⟨rfl, rfl⟩ := List.cons.inj hbs
    exact ⟨u, rfl, .positive ht hnegative hj⟩
  split at h
  · rename_i hb
    obtain ⟨⟨s, after⟩, hs, hok⟩ := bind_eq_ok_iff.mp h
    cases hok
    obtain ⟨t, rfl, ht⟩ := stringBody_eq_ok_iff.mp hs
    exact ⟨t, rfl, hb ▸ .string ht⟩
  · cases h

/-! ## Values that are read -/

/-- The octets are the text of a list or an object, whose items and members' values have the texts `P`. -/
inductive ContainerText (P : Bytes → Json → Prop) : Bytes → Json → Prop where
  | list {t : Bytes} {us : List Bytes} {js : List Json} : Parts 0x5d t us → List.Forall₂ P us js →
      ContainerText P (0x5b :: t) (.arr js)
  | object {t : Bytes} {us : List Bytes} {fs : List (String × Bytes)} {ms : Members Json} : Parts 0x7d t us →
      List.Forall₂ MemberText us fs → List.Forall₂ (fun f m => f.1 = m.1 ∧ P f.2 m.2) fs ms →
      ContainerText P (0x7b :: t) (.obj ms)

/-- The octets are the text of the value, in which lists and objects nest at most so deep. -/
def TextOf : (depth : Nat) → Bytes → Json → Prop
  | 0, t, j => ScalarText t j
  | depth + 1, t, j => ScalarText t j ∨ ContainerText (TextOf depth) t j

variable {α β : Type}

/-- A reader whose value is put into another form. -/
theorem Accepts.map {read : Reader α} {P : Bytes → α → Prop} (h : Accepts read P) (g : α → β) :
    Accepts (fun bs => do
      let (v, rest) ← read bs
      .ok (g v, rest)) fun t w => ∃ v, P t v ∧ w = g v := by
  refine ⟨?_, ?_, ?_⟩
  · rintro t _ ⟨v, hv, rfl⟩
    exact h.starts t v hv
  · intro bs w rest hread
    obtain ⟨⟨v, after⟩, hv, hok⟩ := bind_eq_ok_iff.mp hread
    cases hok
    obtain ⟨ws, t, hws, hbs, ht⟩ := h.sound _ _ _ hv
    exact ⟨ws, t, hws, hbs, v, ht, rfl⟩
  · rintro ws t _ rest hws ⟨v, hv, rfl⟩ hrest
    exact bind_eq_ok_iff.mpr ⟨(v, rest), h.complete ws t v rest hws hv hrest, rfl⟩

/-- The members of an object whose values are read by one reader. -/
theorem folds_iff_forall₂ {P : Bytes → β → Prop} {fs : List (String × Bytes)} {start v : Members β} :
    Folds (fun (ms : Members β) name t next => ∃ j, P t j ∧ next = (name, j) :: ms) start fs v ↔
      ∃ ms, List.Forall₂ (fun f m => f.1 = m.1 ∧ P f.2 m.2) fs ms ∧ v = ms.reverse ++ start := by
  constructor
  · intro h
    induction h with
    | nil start => exact ⟨[], .nil, rfl⟩
    | @cons start _ v f fs hstep _ ih =>
      obtain ⟨j, hj, rfl⟩ := hstep
      obtain ⟨ms, hms, rfl⟩ := ih
      exact ⟨(f.1, j) :: ms, .cons ⟨rfl, hj⟩ hms, by simp⟩
  · rintro ⟨ms, hms, rfl⟩
    induction hms generalizing start with
    | nil => exact .nil _
    | @cons f m fs ms hm _ ih =>
      refine .cons ⟨m.2, hm.2, rfl⟩ ?_
      rw [hm.1]
      rw [List.reverse_cons, List.append_assoc]
      exact ih

/-- A reader that sees the first octet of a scalar. -/
theorem scalar_accepted {bs rest : Bytes} {j : Json} {b : UInt8} {after : Bytes} (hskip : skipSpace bs = b :: after)
    (h : scalar b after = .ok (j, rest)) : ∃ ws t, Blank ws ∧ bs = ws ++ (t ++ rest) ∧ ScalarText t j := by
  obtain ⟨ws, hws, rfl⟩ := skipSpace_eq_cons hskip
  obtain ⟨t, rfl, ht⟩ := text_of_scalar h
  exact ⟨ws, b :: t, hws, rfl, ht⟩

theorem ScalarText.skipSpace {t : Bytes} {j : Json} (h : ScalarText t j) {ws : Bytes} (hws : Blank ws) (rest : Bytes) :
    ∃ b u, t = b :: u ∧ skipSpace (ws ++ (t ++ rest)) = b :: (u ++ rest) ∧ b ≠ 0x5b ∧ b ≠ 0x7b := by
  obtain ⟨b, u, rfl, hb, -, hopen, hobject⟩ := h.form.exists_cons
  exact ⟨b, u, rfl, skipSpace_blank_cons hws hb _, hopen, hobject⟩

theorem admits_members {depth : Nat} (h : Accepts (value depth) (TextOf depth)) :
    Admits (fun (ms : Members Json) name => .ok fun bs => do
        let (j, rest) ← value depth bs
        .ok ((name, j) :: ms, rest)) fun ms name t next => ∃ j, TextOf depth t j ∧ next = (name, j) :: ms :=
  fun ms name => .inl ⟨_, rfl, h.map fun j => (name, j) :: ms⟩

theorem value_zero_accepts : Accepts (value 0) (TextOf 0) := by
  refine ⟨?_, ?_, ?_⟩
  · intro t j h
    obtain ⟨b, u, rfl, hb, hlist, -⟩ := ScalarForm.exists_cons (ScalarText.form h)
    exact ⟨b, u, rfl, hb, hlist⟩
  · intro bs j rest h
    rw [value] at h
    split at h
    · cases h
    · rename_i b after hskip
      split at h
      · cases h
      · exact scalar_accepted hskip h
  · intro ws t j rest hws h hrest
    obtain ⟨b, u, rfl, hskip, hopen, hobject⟩ := ScalarText.skipSpace h hws rest
    rw [value, hskip]
    simp only [hopen, hobject, or_self, if_false]
    exact scalar_of_text h hrest

section
variable {depth : Nat}

theorem text_of_value (hitem : Accepts (value depth) (TextOf depth)) {bs rest : Bytes} {j : Json}
    (h : value (depth + 1) bs = .ok (j, rest)) : ∃ ws t, Blank ws ∧ bs = ws ++ (t ++ rest) ∧ TextOf (depth + 1) t j := by
  rw [value] at h
  split at h
  · cases h
  · rename_i b after hskip
    obtain ⟨ws, hws, rfl⟩ := skipSpace_eq_cons hskip
    split at h
    · rename_i hb
      obtain ⟨⟨js, after'⟩, hlist, hok⟩ := bind_eq_ok_iff.mp h
      cases hok
      obtain ⟨t, us, rfl, ht, hjs⟩ := (listItems_eq_ok_iff hitem).mp hlist
      exact ⟨ws, b :: t, hws, rfl, .inr (hb ▸ .list ht hjs)⟩
    split at h
    · rename_i hb
      obtain ⟨⟨ms, after'⟩, hobject, hok⟩ := bind_eq_ok_iff.mp h
      cases hok
      obtain ⟨t, us, fs, rfl, ht, hus, hfs⟩ := (objectMembers_eq_ok_iff (admits_members hitem)).mp hobject
      obtain ⟨ms, hms, rfl⟩ := folds_iff_forall₂.mp hfs
      rw [List.append_nil, List.reverse_reverse]
      exact ⟨ws, b :: t, hws, rfl, .inr (hb ▸ .object ht hus hms)⟩
    · obtain ⟨ws', t, hws', hbs, ht⟩ := scalar_accepted hskip h
      exact ⟨ws', t, hws', hbs, .inl ht⟩

theorem value_of_text (hitem : Accepts (value depth) (TextOf depth)) {ws t rest : Bytes} {j : Json} (hws : Blank ws)
    (h : TextOf (depth + 1) t j) (hrest : Delimited rest) : value (depth + 1) (ws ++ (t ++ rest)) = .ok (j, rest) := by
  rcases h with h | h
  · obtain ⟨b, u, rfl, hskip, hopen, hobject⟩ := h.skipSpace hws rest
    rw [value, hskip]
    simp only [hopen, hobject, if_false]
    exact scalar_of_text h hrest
  · cases h with
    | list ht hjs =>
      have hlist : listItems (value depth) (_ ++ rest) = .ok (_, rest) :=
        (listItems_eq_ok_iff hitem).mpr ⟨_, _, rfl, ht, hjs⟩
      rw [value, List.cons_append, skipSpace_blank_cons hws (by decide)]
      simp only [hlist, bind, Except.bind]
      rfl
    | @object t us fs ms ht hus hms =>
      have hfolds := folds_iff_forall₂.mpr ⟨ms, hms, (List.append_nil ms.reverse).symm⟩
      have hobject : objectMembers _ [] (t ++ rest) = .ok (ms.reverse, rest) :=
        (objectMembers_eq_ok_iff (admits_members hitem)).mpr ⟨_, _, _, rfl, ht, hus, hfolds⟩
      rw [value, List.cons_append, skipSpace_blank_cons hws (by decide)]
      exact bind_eq_ok_iff.mpr ⟨(ms.reverse, rest), hobject, by simp⟩

end

/-- **Which values are read:** those that are written with this nesting. -/
theorem value_accepts (depth : Nat) : Accepts (value depth) (TextOf depth) := by
  induction depth with
  | zero => exact value_zero_accepts
  | succ depth ih =>
    refine ⟨?_, fun bs j rest => text_of_value ih, fun ws t j rest => value_of_text ih⟩
    rintro t j (h | h)
    · obtain ⟨b, u, rfl, hb, hlist, -⟩ := h.form.exists_cons
      exact ⟨b, u, rfl, hb, hlist⟩
    · cases h <;> exact ⟨_, _, rfl, by decide⟩

/-! ## The form of a value -/

def Container.opening : Container → UInt8
  | .list => 0x5b
  | .object => 0x7b

/-- The octets have the form of a part of a container, whose value is `v`. The name of a member need not be UTF-8. -/
def Container.PartForm : Container → (u v : Bytes) → Prop
  | .list, u, v => u = v
  | .object, u, v => ∃ n w w', u = 0x22 :: (n ++ (w ++ 0x3a :: (w' ++ v))) ∧ StringForm n ∧ Blank w ∧ Blank w'

/-- The octets have the form of a JSON value. -/
inductive Form : Bytes → Prop where
  | scalar {t : Bytes} : ScalarForm t → Form t
  | container {c : Container} {t : Bytes} {us vs : List Bytes} : Parts c.closing t us → List.Forall₂ c.PartForm us vs →
      (∀ v ∈ vs, Form v) → Form (c.opening :: t)

theorem MemberText.form {u : Bytes} {f : String × Bytes} (h : MemberText u f) : Container.object.PartForm u f.2 := by
  obtain ⟨n, w, w', hu, hn, hw, hw'⟩ := h
  exact ⟨n, w, w', hu, hn.form, hw, hw'⟩

theorem Form.exists_cons {t : Bytes} (h : Form t) : ∃ b u, t = b :: u ∧ isSpace b = false ∧ b ≠ 0x5d := by
  cases h with
  | scalar h =>
    obtain ⟨b, u, rfl, hb, hlist, -⟩ := h.exists_cons
    exact ⟨b, u, rfl, hb, hlist⟩
  | @container c => exact ⟨_, _, rfl, by cases c <;> decide⟩

theorem forall_of_forall₂ {R : α → β → Prop} {p : α → Prop} {us : List α} {vs : List β} (h : List.Forall₂ R us vs)
    (hp : ∀ u, ∀ v ∈ vs, R u v → p u) : ∀ u ∈ us, p u := by
  induction h with
  | nil => simp
  | cons huv _ ih =>
    refine List.forall_mem_cons.mpr ⟨hp _ _ List.mem_cons_self huv, ih fun u v hv => ?_⟩
    exact hp u v (List.mem_cons_of_mem _ hv)

/-- Every text of a value has the form of one. -/
theorem TextOf.form {depth : Nat} {t : Bytes} {j : Json} (h : TextOf depth t j) : Form t := by
  induction depth generalizing t j with
  | zero => exact .scalar (ScalarText.form h)
  | succ depth ih =>
    rcases h with h | h
    · exact .scalar h.form
    · cases h with
      | @list t us js ht hjs =>
        have heq : List.Forall₂ Container.list.PartForm us us := List.forall₂_same.mpr fun u _ => rfl
        exact Form.container (c := .list) ht heq (forall_of_forall₂ hjs fun u j _ hu => ih hu)
      | @object t us fs ms ht hus hms =>
        have hvalues := forall_of_forall₂ hms fun f m _ hf => ih hf.2
        have hforms := List.forall₂_map_right_iff.mpr (hus.imp fun u f hu => MemberText.form hu)
        exact Form.container (c := .object) ht hforms (List.forall_mem_map.mpr hvalues)

/-! ## Whole texts -/

theorem complete_eq_ok_iff {read : Reader α} {bs : Bytes} {v : α} :
    complete read bs = .ok v ↔ ∃ ws, Blank ws ∧ read bs = .ok (v, ws) := by
  unfold complete
  rw [bind_eq_ok_iff]
  constructor
  · rintro ⟨⟨v', ws⟩, hread, hok⟩
    simp only [List.isEmpty_iff] at hok
    split at hok
    · rename_i hws
      cases hok
      exact ⟨ws, skipSpace_eq_nil_iff.mp hws, hread⟩
    · cases hok
  · rintro ⟨ws, hws, hread⟩
    refine ⟨(v, ws), hread, ?_⟩
    simp [skipSpace_eq_nil_iff.mpr hws]

end TransitLink.Json
