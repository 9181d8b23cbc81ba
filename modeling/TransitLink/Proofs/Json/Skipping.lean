import TransitLink.Proofs.Json.Values

/-!
# Values that are passed over

* `skipValue_accepts` : the values that are passed over are those that have the form of one, however deep they nest.

A reader of what nobody wants keeps a stack of open containers. `proceed` is what it does after a value, and a container
that it has opened is passed over with all its parts, whatever stands on the stack below it.
-/

namespace TransitLink.Json

set_option autoImplicit false

/-! ## Scalars -/

theorem skipNumber_of_text {t rest : Bytes} {n : Numeral} (h : NumeralText t n) (hrest : Delimited rest) :
    skipNumber (t ++ rest) = .ok rest := by
  have hn : NumeralText t { n with negative := false } := h
  have hread := numeral_of_text hn hrest
  unfold skipNumber
  rw [hread]

theorem text_of_skipNumber {bs rest : Bytes} (h : skipNumber bs = .ok rest) :
    ∃ t n, bs = t ++ rest ∧ NumeralText t n := by
  unfold skipNumber at h
  split at h
  · rename_i n after hn
    cases h
    obtain ⟨-, t, rfl, ht⟩ := text_of_numeral hn
    exact ⟨t, n, rfl, ht⟩
  · cases h

theorem skipScalar_of_form {b : UInt8} {t rest : Bytes} (h : ScalarForm (b :: t)) (hrest : Delimited rest) :
    skipScalar b (t ++ rest) = .ok rest := by
  unfold skipScalar
  generalize hbt : b :: t = bt at h
  cases h with
  | null | yes | no =>
    cases hbt
    rfl
  | string hs =>
    cases hbt
    exact skipString_eq_ok_iff.mpr ⟨t, rfl, hs⟩
  | positive hn =>
    obtain ⟨b', u, rfl, hb⟩ := hn.exists_cons
    cases hbt
    rw [if_neg (ne_of_isDigit hb rfl), if_neg (ne_of_isDigit hb rfl), if_neg (ne_of_isDigit hb rfl),
      if_neg (ne_of_isDigit hb rfl), if_pos hb, ← List.cons_append]
    exact skipNumber_of_text hn hrest
  | negative hn =>
    cases hbt
    exact skipNumber_of_text hn hrest

theorem form_of_skipScalar {b : UInt8} {bs rest : Bytes} (h : skipScalar b bs = .ok rest) :
    ∃ t, bs = t ++ rest ∧ ScalarForm (b :: t) := by
  unfold skipScalar at h
  split at h
  · rename_i hb
    exact ⟨_, keyword_eq_ok_iff.mp h, hb ▸ .null⟩
  split at h
  · rename_i hb
    exact ⟨_, keyword_eq_ok_iff.mp h, hb ▸ .yes⟩
  split at h
  · rename_i hb
    exact ⟨_, keyword_eq_ok_iff.mp h, hb ▸ .no⟩
  split at h
  · rename_i hb
    obtain ⟨t, n, rfl, ht⟩ := text_of_skipNumber h
    exact ⟨t, rfl, hb ▸ .negative ht⟩
  split at h
  · obtain ⟨t, n, hbs, ht⟩ := text_of_skipNumber h
    obtain ⟨b', u, rfl, -⟩ := ht.exists_cons
    obtain ⟨rfl, rfl⟩ := List.cons.inj hbs
    exact ⟨u, rfl, .positive ht⟩
  split at h
  · rename_i hb
    obtain ⟨t, rfl, ht⟩ := skipString_eq_ok_iff.mp h
    exact ⟨t, rfl, hb ▸ .string ht⟩
  · cases h

/-! ## Open containers -/

/-- Passes over the values still wanted inside the open containers, a member's name before the first. -/
def within (fuel : Nat) (c : Container) (outer : List Container) (bs : Bytes) : Except Fault Bytes :=
  match c with
  | .list => skipFrom fuel (.list :: outer) bs
  | .object => skipName bs >>= skipFrom fuel (.object :: outer)

/-- What is left to do after a value has ended or a container has begun. -/
def proceed (fuel : Nat) (mayComma : Bool) (open_ : List Container) (bs : Bytes) : Except Fault Bytes :=
  match open_ with
  | [] => .ok bs
  | c :: outer => do
    match ← closeContainers mayComma c outer bs with
    | .closed rest => .ok rest
    | .next .list outer rest => skipFrom fuel (.list :: outer) rest
    | .next .object outer rest => skipName rest >>= skipFrom fuel (.object :: outer)

theorem skipFrom_succ (fuel : Nat) (open_ : List Container) (bs : Bytes) :
    skipFrom (fuel + 1) open_ bs =
      match skipSpace bs with
      | [] => .error .endInValue
      | b :: bs =>
        if b = 0x5b then proceed fuel false (.list :: open_) bs
        else if b = 0x7b then proceed fuel false (.object :: open_) bs
        else skipScalar b bs >>= proceed fuel true open_ := by
  rw [skipFrom]
  rfl

theorem closeContainers_eq (mayComma : Bool) (c : Container) (outer : List Container) (bs : Bytes) :
    closeContainers mayComma c outer bs =
      match skipSpace bs with
      | [] => .error c.endFault
      | b :: bs =>
        if mayComma ∧ b = 0x2c then .ok (.next c outer bs)
        else if b = c.closing then
          match outer with
          | [] => .ok (.closed bs)
          | d :: outer => closeContainers true d outer bs
        else if mayComma then .error c.commaFault
        else .ok (.next c outer (b :: bs)) := by
  exact (closeContainers.eq_def ..).trans rfl

theorem Container.isSpace_closing (c : Container) : isSpace c.closing = false := by cases c <;> rfl

theorem skipFrom_opening (fuel : Nat) (open_ : List Container) {ws : Bytes} (hws : Blank ws) (c : Container) (bs : Bytes) :
    skipFrom (fuel + 1) open_ (ws ++ c.opening :: bs) = proceed fuel false (c :: open_) bs := by
  rw [skipFrom_succ, skipSpace_blank_cons hws (by cases c <;> rfl)]
  cases c <;> rfl

theorem proceed_closing (fuel : Nat) (mayComma : Bool) (c : Container) (outer : List Container) {w : Bytes} (hw : Blank w)
    (bs : Bytes) : proceed fuel mayComma (c :: outer) (w ++ c.closing :: bs) = proceed fuel true outer bs := by
  have hcomma : c.closing ≠ 0x2c := by cases c <;> decide
  rw [proceed, closeContainers_eq, skipSpace_blank_cons hw c.isSpace_closing]
  simp only [hcomma, and_false, if_false, if_true]
  cases outer <;> rfl

theorem proceed_comma (fuel : Nat) (c : Container) (outer : List Container) {w : Bytes} (hw : Blank w) (bs : Bytes) :
    proceed fuel true (c :: outer) (w ++ 0x2c :: bs) = within fuel c outer bs := by
  rw [proceed, closeContainers_eq, skipSpace_blank_cons hw (by decide)]
  cases c <;> rfl

theorem proceed_part (fuel : Nat) {c : Container} (outer : List Container) {w : Bytes} (hw : Blank w) {b : UInt8}
    (hb : isSpace b = false) (hclosing : b ≠ c.closing) (bs : Bytes) :
    proceed fuel false (c :: outer) (w ++ b :: bs) = within fuel c outer (b :: bs) := by
  rw [proceed, closeContainers_eq, skipSpace_blank_cons hw hb]
  simp only [hclosing, Bool.false_eq_true, false_and, if_false]
  cases c <;> rfl

/-- Every way on from a container that is open. -/
theorem proceed_cases {fuel : Nat} {mayComma : Bool} {c : Container} {outer : List Container} {bs rest : Bytes}
    (h : proceed fuel mayComma (c :: outer) bs = .ok rest) :
    (∃ w mid, Blank w ∧ bs = w ++ c.closing :: mid ∧ proceed fuel true outer mid = .ok rest) ∨
      (∃ w mid, Blank w ∧ mayComma = true ∧ bs = w ++ 0x2c :: mid ∧ within fuel c outer mid = .ok rest) ∨
      (∃ w mid, Blank w ∧ mayComma = false ∧ bs = w ++ mid ∧ within fuel c outer mid = .ok rest) := by
  obtain ⟨w, hw, hbs⟩ := exists_blank bs
  cases hskip : skipSpace bs with
  | nil =>
    rw [proceed, closeContainers_eq, hskip] at h
    cases h
  | cons b mid =>
    have hb := isSpace_of_skipSpace hskip
    rw [hskip] at hbs
    subst hbs
    by_cases hclosing : b = c.closing
    · subst hclosing
      rw [proceed_closing fuel mayComma c outer hw] at h
      exact .inl ⟨w, mid, hw, rfl, h⟩
    · cases mayComma with
      | false =>
        rw [proceed_part fuel outer hw hb hclosing] at h
        exact .inr (.inr ⟨w, b :: mid, hw, rfl, rfl, h⟩)
      | true =>
        by_cases hcomma : b = 0x2c
        · subst hcomma
          rw [proceed_comma fuel c outer hw] at h
          exact .inr (.inl ⟨w, mid, hw, rfl, rfl, h⟩)
        · rw [proceed, closeContainers_eq, hskip] at h
          simp [hcomma, hclosing, bind, Except.bind] at h

theorem skipName_of_form {ws u v : Bytes} (hws : Blank ws) (h : Container.object.PartForm u v) (rest : Bytes) :
    ∃ w, Blank w ∧ skipName (ws ++ (u ++ rest)) = .ok (w ++ (v ++ rest)) := by
  obtain ⟨n, w, w', rfl, hn, hw, hw'⟩ := h
  refine ⟨w', hw', ?_⟩
  have hstring := skipString_of_form hn (w ++ 0x3a :: (w' ++ (v ++ rest)))
  unfold skipName
  rw [List.cons_append, skipSpace_blank_cons hws (by decide)]
  simp only [List.append_assoc, List.cons_append, hstring, if_true, bind, Except.bind]
  exact colon_of_blank hw _

theorem form_of_skipName {bs rest : Bytes} (h : skipName bs = .ok rest) :
    ∃ ws n w, Blank ws ∧ StringForm n ∧ Blank w ∧ bs = ws ++ 0x22 :: (n ++ (w ++ 0x3a :: rest)) := by
  unfold skipName at h
  split at h
  · cases h
  · rename_i b after hskip
    obtain ⟨ws, hws, rfl⟩ := skipSpace_eq_cons hskip
    split at h
    · rename_i hb
      subst hb
      obtain ⟨after', hstring, hcolon⟩ := bind_eq_ok_iff.mp h
      obtain ⟨n, rfl, hn⟩ := skipString_eq_ok_iff.mp hstring
      obtain ⟨w, hw, rfl⟩ := blank_of_colon hcolon
      exact ⟨ws, n, w, hws, hn, hw, rfl⟩
    · cases h

/-! ## What has the form of a value is passed over -/

/-- The octets are passed over wherever a value may stand; that takes `k` steps. -/
def Passed (k : Nat) (t : Bytes) : Prop :=
  ∀ fuel open_ ws rest, Blank ws → Delimited rest →
    skipFrom (fuel + k) open_ (ws ++ (t ++ rest)) = proceed fuel true open_ rest

/-- The octets are passed over wherever a part of the container may stand; that takes `k` steps. -/
def PassedIn (c : Container) (k : Nat) (u : Bytes) : Prop :=
  ∀ fuel outer ws rest, Blank ws → Delimited rest →
    within (fuel + k) c outer (ws ++ (u ++ rest)) = proceed fuel true (c :: outer) rest

theorem Passed.part {c : Container} {k : Nat} {u v : Bytes} (h : Passed k v) (hu : c.PartForm u v) : PassedIn c k u := by
  intro fuel outer ws rest hws hrest
  cases c with
  | list =>
    obtain rfl : u = v := hu
    exact h fuel (.list :: outer) ws rest hws hrest
  | object =>
    obtain ⟨w, hw, hname⟩ := skipName_of_form hws hu rest
    unfold within
    simp only [hname]
    exact h fuel (.object :: outer) w rest hw hrest

theorem Container.closing_cases (c : Container) : c.closing = 0x5d ∨ c.closing = 0x7d := by
  cases c
  · exact .inl rfl
  · exact .inr rfl

theorem MoreParts.passed {c : Container} {t : Bytes} {us : List Bytes} (ht : MoreParts c.closing t us)
    (hus : ∀ u ∈ us, ∃ k ≤ u.length, PassedIn c k u) :
    ∃ k ≤ t.length, ∀ fuel outer rest,
      proceed (fuel + k) true (c :: outer) (t ++ rest) = proceed fuel true outer rest := by
  induction ht with
  | @close w hw =>
    refine ⟨0, Nat.zero_le _, fun fuel outer rest => ?_⟩
    rw [List.append_assoc]
    exact proceed_closing fuel true c outer hw rest
  | @comma w w' u t us hw hw' ht ih =>
    obtain ⟨⟨k, hk, hu⟩, hus⟩ := List.forall_mem_cons.mp hus
    obtain ⟨l, hl, hmore⟩ := ih hus
    refine ⟨l + k, ?_, fun fuel outer rest => ?_⟩
    · simp only [List.length_append, List.length_cons]
      omega
    · have hpart := hu (fuel + l) outer w' (t ++ rest) hw' (ht.delimited c.closing_cases rest)
      rw [List.append_assoc, List.cons_append, proceed_comma _ c outer hw, List.append_assoc, List.append_assoc,
        ← Nat.add_assoc, hpart]
      exact hmore fuel outer rest

theorem Container.PartForm.exists_cons {c : Container} {u v : Bytes} (hu : c.PartForm u v) (hv : Form v) :
    ∃ b u', u = b :: u' ∧ isSpace b = false ∧ b ≠ c.closing := by
  cases c with
  | list =>
    obtain rfl : u = v := hu
    exact hv.exists_cons
  | object =>
    obtain ⟨n, w, w', rfl, -⟩ := hu
    exact ⟨_, _, rfl, by decide⟩

theorem Container.PartForm.length_le {c : Container} {u v : Bytes} (hu : c.PartForm u v) : v.length ≤ u.length := by
  cases c with
  | list =>
    obtain rfl : u = v := hu
    exact Nat.le_refl _
  | object =>
    obtain ⟨n, w, w', rfl, -⟩ := hu
    simp only [List.length_cons, List.length_append]
    omega

theorem Parts.passed {c : Container} {t : Bytes} {us : List Bytes} (ht : Parts c.closing t us)
    (hstarts : ∀ u ∈ us, ∃ b u', u = b :: u' ∧ isSpace b = false ∧ b ≠ c.closing)
    (hus : ∀ u ∈ us, ∃ k ≤ u.length, PassedIn c k u) :
    ∃ k ≤ t.length, ∀ fuel outer rest,
      proceed (fuel + k) false (c :: outer) (t ++ rest) = proceed fuel true outer rest := by
  cases ht with
  | @none w hw =>
    refine ⟨0, Nat.zero_le _, fun fuel outer rest => ?_⟩
    rw [List.append_assoc]
    exact proceed_closing fuel false c outer hw rest
  | @some w u t us hw ht =>
    obtain ⟨⟨b, u', rfl, hb, hclosing⟩, -⟩ := List.forall_mem_cons.mp hstarts
    obtain ⟨⟨k, hk, hu⟩, hus⟩ := List.forall_mem_cons.mp hus
    obtain ⟨l, hl, hmore⟩ := ht.passed hus
    refine ⟨l + k, ?_, fun fuel outer rest => ?_⟩
    · simp only [List.length_append]
      omega
    · have hpart := hu (fuel + l) outer [] (t ++ rest) blank_nil (ht.delimited c.closing_cases rest)
      rw [List.nil_append, List.cons_append] at hpart
      rw [List.append_assoc, List.append_assoc, List.cons_append, proceed_part _ outer hw hb hclosing, ← Nat.add_assoc,
        hpart]
      exact hmore fuel outer rest

theorem Form.passed {t : Bytes} (h : Form t) : ∃ k ≤ t.length, Passed k t := by
  induction h with
  | @scalar t h =>
    obtain ⟨b, u, rfl, hb, -, hlist, hobject⟩ := h.exists_cons
    refine ⟨1, by simp, fun fuel open_ ws rest hws hrest => ?_⟩
    rw [skipFrom_succ, List.cons_append, skipSpace_blank_cons hws hb]
    simp only [hlist, hobject, if_false, skipScalar_of_form h hrest]
    rfl
  | @container c t us vs ht huv hvs ih =>
    have hstarts := forall_of_forall₂ huv fun u v hv hu => hu.exists_cons (hvs v hv)
    have hus : ∀ u ∈ us, ∃ k ≤ u.length, PassedIn c k u := forall_of_forall₂ huv fun u v hv hu => by
      obtain ⟨k, hk, hpassed⟩ := ih v hv
      exact ⟨k, Nat.le_trans hk hu.length_le, hpassed.part hu⟩
    obtain ⟨k, hk, hpassed⟩ := ht.passed hstarts hus
    refine ⟨k + 1, by simpa using hk, fun fuel open_ ws rest hws hrest => ?_⟩
    rw [List.cons_append, ← Nat.add_assoc, skipFrom_opening _ open_ hws]
    exact hpassed fuel open_ rest

/-! ## What is passed over has the form of a value -/

/-- What is passed over in so many steps begins with the form of a value, and the reader goes on behind it. -/
def Sound (fuel : Nat) : Prop :=
  ∀ open_ bs rest, skipFrom fuel open_ bs = .ok rest →
    ∃ ws t mid left, Blank ws ∧ bs = ws ++ (t ++ mid) ∧ Form t ∧ left < fuel ∧ proceed left true open_ mid = .ok rest

theorem part_of_within {fuel : Nat} (h : Sound fuel) {c : Container} {outer : List Container} {bs rest : Bytes}
    (hread : within fuel c outer bs = .ok rest) :
    ∃ ws u v mid left, Blank ws ∧ bs = ws ++ (u ++ mid) ∧ c.PartForm u v ∧ Form v ∧ left < fuel ∧
      proceed left true (c :: outer) mid = .ok rest := by
  cases c with
  | list =>
    obtain ⟨ws, t, mid, left, hws, hbs, ht, hleft, hrest⟩ := h _ _ _ hread
    exact ⟨ws, t, t, mid, left, hws, hbs, rfl, ht, hleft, hrest⟩
  | object =>
    obtain ⟨after, hname, hvalue⟩ := bind_eq_ok_iff.mp hread
    obtain ⟨ws, n, w, hws, hn, hw, rfl⟩ := form_of_skipName hname
    obtain ⟨w', t, mid, left, hw', rfl, ht, hleft, hrest⟩ := h _ _ _ hvalue
    refine ⟨ws, 0x22 :: (n ++ (w ++ 0x3a :: (w' ++ t))), t, mid, left, hws, ?_, ⟨n, w, w', rfl, hn, hw, hw'⟩, ht, hleft,
      hrest⟩
    simp only [List.cons_append, List.append_assoc]

theorem moreParts_of_proceed {fuel : Nat} (h : ∀ n ≤ fuel, Sound n) {c : Container} {outer : List Container}
    {bs rest : Bytes} (hread : proceed fuel true (c :: outer) bs = .ok rest) :
    ∃ t us vs mid left, bs = t ++ mid ∧ MoreParts c.closing t us ∧ List.Forall₂ c.PartForm us vs ∧ (∀ v ∈ vs, Form v) ∧
      left ≤ fuel ∧ proceed left true outer mid = .ok rest := by
  induction fuel using Nat.strongRecOn generalizing bs with
  | ind fuel ih =>
    rcases proceed_cases hread with ⟨w, mid, hw, rfl, hrest⟩ | ⟨w, after, hw, -, rfl, hpart⟩ | ⟨_, _, -, hfalse, -⟩
    · exact ⟨w ++ [c.closing], [], [], mid, fuel, by simp, .close hw, .nil, by simp, Nat.le_refl _, hrest⟩
    · obtain ⟨w', u, v, mid', left', hw', rfl, huv, hv, hleft', hmore⟩ := part_of_within (h fuel (Nat.le_refl _)) hpart
      obtain ⟨t, us, vs, mid, left, rfl, ht, husvs, hvs, hleft, hrest⟩ :=
        ih left' hleft' (fun n hn => h n (by omega)) hmore
      refine ⟨w ++ 0x2c :: (w' ++ (u ++ t)), u :: us, v :: vs, mid, left, ?_, .comma hw hw' ht, .cons huv husvs,
        List.forall_mem_cons.mpr ⟨hv, hvs⟩, by omega, hrest⟩
      simp only [List.append_assoc, List.cons_append]
    · cases hfalse

theorem parts_of_proceed {fuel : Nat} (h : ∀ n ≤ fuel, Sound n) {c : Container} {outer : List Container}
    {bs rest : Bytes} (hread : proceed fuel false (c :: outer) bs = .ok rest) :
    ∃ t us vs mid left, bs = t ++ mid ∧ Parts c.closing t us ∧ List.Forall₂ c.PartForm us vs ∧ (∀ v ∈ vs, Form v) ∧
      left ≤ fuel ∧ proceed left true outer mid = .ok rest := by
  rcases proceed_cases hread with ⟨w, mid, hw, rfl, hrest⟩ | ⟨_, _, -, htrue, -⟩ | ⟨w, after, hw, -, rfl, hpart⟩
  · exact ⟨w ++ [c.closing], [], [], mid, fuel, by simp, .none hw, .nil, by simp, Nat.le_refl _, hrest⟩
  · cases htrue
  · obtain ⟨w', u, v, mid', left', hw', rfl, huv, hv, hleft', hmore⟩ := part_of_within (h fuel (Nat.le_refl _)) hpart
    obtain ⟨t, us, vs, mid, left, rfl, ht, husvs, hvs, hleft, hrest⟩ :=
      moreParts_of_proceed (fun n hn => h n (by omega)) hmore
    refine ⟨(w ++ w') ++ (u ++ t), u :: us, v :: vs, mid, left, ?_, .some (hw.append hw') ht, .cons huv husvs,
      List.forall_mem_cons.mpr ⟨hv, hvs⟩, by omega, hrest⟩
    simp only [List.append_assoc]

theorem sound (fuel : Nat) : Sound fuel := by
  induction fuel using Nat.strongRecOn with
  | ind fuel ih =>
    intro open_ bs rest hread
    obtain _ | fuel := fuel
    · cases hread
    have hbelow : ∀ n ≤ fuel, Sound n := fun n hn => ih n (by omega)
    cases hskip : skipSpace bs with
    | nil =>
      rw [skipFrom_succ, hskip] at hread
      cases hread
    | cons b after =>
      obtain ⟨ws, hws, rfl⟩ := skipSpace_eq_cons hskip
      have hcontainer : ∀ c : Container, b = c.opening → ∃ ws' t mid left, Blank ws' ∧
          ws ++ b :: after = ws' ++ (t ++ mid) ∧ Form t ∧ left < fuel + 1 ∧ proceed left true open_ mid = .ok rest := by
        rintro c rfl
        rw [skipFrom_opening fuel open_ hws] at hread
        obtain ⟨t, us, vs, mid, left, rfl, ht, huv, hvs, hleft, hrest⟩ := parts_of_proceed hbelow hread
        exact ⟨ws, c.opening :: t, mid, left, hws, rfl, .container ht huv hvs, by omega, hrest⟩
      by_cases hlist : b = 0x5b
      · exact hcontainer .list hlist
      by_cases hobject : b = 0x7b
      · exact hcontainer .object hobject
      rw [skipFrom_succ, hskip] at hread
      simp only [hlist, hobject, if_false] at hread
      obtain ⟨mid, hscalar, hrest⟩ := bind_eq_ok_iff.mp hread
      obtain ⟨t, rfl, ht⟩ := form_of_skipScalar hscalar
      exact ⟨ws, b :: t, mid, fuel, hws, rfl, .scalar ht, by omega, hrest⟩

/-- **Which values are passed over:** those that have the form of a JSON value. What was read before stays. -/
theorem skipValue_accepts {α : Type} (v : α) :
    Accepts (fun bs => do .ok (v, ← skipValue bs)) fun t w => Form t ∧ w = v := by
  refine ⟨fun t _ h => h.1.exists_cons, fun bs w rest h => ?_, ?_⟩
  · obtain ⟨after, hskip, hok⟩ := bind_eq_ok_iff.mp h
    cases hok
    obtain ⟨ws, t, mid, left, hws, rfl, ht, -, hmid⟩ := sound _ _ _ _ hskip
    cases hmid
    exact ⟨ws, t, hws, rfl, ht, rfl⟩
  · rintro ws t _ rest hws ⟨ht, rfl⟩ hrest
    obtain ⟨k, hk, hpassed⟩ := ht.passed
    refine bind_eq_ok_iff.mpr ⟨rest, ?_, rfl⟩
    unfold skipValue
    -- there is an octet for every step
    have hfuel : (ws ++ (t ++ rest)).length + 1 = (ws ++ (t ++ rest)).length + 1 - k + k := by
      simp only [List.length_append]
      omega
    rw [hfuel, hpassed _ [] ws rest hws hrest]
    rfl

end TransitLink.Json
