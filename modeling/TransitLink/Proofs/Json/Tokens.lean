import TransitLink.Json.Skip
import TransitLink.Proofs.Outcome

/-!
# Tokens of JSON texts

* `Blank` : octets that may stand between two tokens. `Delimited` : what may follow a value.
* `keyword_eq_ok_iff` : a keyword is read where it stands.
* `Spelled t s` : the octets `t`, up to a closing quote, spell the octets `s`. `stringBody_eq_ok_iff` : these are the
  strings that are read. `StringText t s` : the octets `t` are the text of the string `s`.
* `StringForm t` : the octets have the form of a string up to its closing quote. `skipString_eq_ok_iff` : these are the
  strings that are passed over.
-/

namespace TransitLink.Json

set_option autoImplicit false

/-! ## Blanks -/

def Blank (bs : Bytes) : Prop := ∀ b ∈ bs, isSpace b = true

instance (bs : Bytes) : Decidable (Blank bs) := decidable_of_iff _ List.all_eq_true

/-- What may follow a value: nothing, a blank, a comma or a closing bracket. -/
def Delimited : Bytes → Prop
  | [] => True
  | b :: _ => isSpace b = true ∨ b = 0x2c ∨ b = 0x5d ∨ b = 0x7d

theorem blank_nil : Blank [] := by simp [Blank]

theorem Blank.append {ws us : Bytes} (h : Blank ws) (hu : Blank us) : Blank (ws ++ us) :=
  List.forall_mem_append.mpr ⟨h, hu⟩

theorem Blank.delimited {ws : Bytes} (h : Blank ws) {bs : Bytes} (hbs : Delimited bs) : Delimited (ws ++ bs) := by
  cases ws with
  | nil => exact hbs
  | cons b ws => exact .inl (h b List.mem_cons_self)

theorem skipSpace_append {ws : Bytes} (h : Blank ws) (bs : Bytes) : skipSpace (ws ++ bs) = skipSpace bs :=
  List.dropWhile_append_of_pos h

theorem skipSpace_cons {b : UInt8} (h : isSpace b = false) (bs : Bytes) : skipSpace (b :: bs) = b :: bs := by
  simp [skipSpace, h]

theorem skipSpace_blank_cons {ws : Bytes} (h : Blank ws) {b : UInt8} (hb : isSpace b = false) (bs : Bytes) :
    skipSpace (ws ++ b :: bs) = b :: bs := by
  rw [skipSpace_append h, skipSpace_cons hb]

theorem exists_blank (bs : Bytes) : ∃ ws, Blank ws ∧ bs = ws ++ skipSpace bs := by
  refine ⟨bs.takeWhile isSpace, fun b hb => ?_, List.takeWhile_append_dropWhile.symm⟩
  exact List.all_eq_true.mp List.all_takeWhile b hb

theorem isSpace_of_skipSpace {bs rest : Bytes} {b : UInt8} (h : skipSpace bs = b :: rest) : isSpace b = false := by
  have hhead := List.head?_dropWhile_not isSpace bs
  rw [← skipSpace, h] at hhead
  simpa using hhead

theorem skipSpace_eq_cons {bs rest : Bytes} {b : UInt8} (h : skipSpace bs = b :: rest) :
    ∃ ws, Blank ws ∧ bs = ws ++ b :: rest := by
  obtain ⟨ws, hws, hbs⟩ := exists_blank bs
  exact ⟨ws, hws, h ▸ hbs⟩

theorem skipSpace_eq_nil_iff {bs : Bytes} : skipSpace bs = [] ↔ Blank bs := by
  constructor
  · intro h
    obtain ⟨ws, hws, hbs⟩ := exists_blank bs
    rwa [hbs, h, List.append_nil]
  · intro h
    have hnil := skipSpace_append h []
    rwa [List.append_nil] at hnil

/-! ## Keywords -/

theorem keyword_eq_ok_iff {word bs rest : Bytes} : keyword word bs = .ok rest ↔ bs = word ++ rest := by
  induction word generalizing bs with
  | nil => simp [keyword]
  | cons w word ih =>
    cases bs with
    | nil => simp [keyword]
    | cons b bs =>
      rw [keyword, List.cons_append, List.cons.injEq]
      split
      · rename_i hw
        rw [ih]
        simp [hw]
      · rename_i hw
        exact iff_of_false nofun fun h => hw h.1.symm

/-! ## Strings that are read -/

/-- The octets `t` spell the octets `s` and end with the closing quote. -/
inductive Spelled : Bytes → Bytes → Prop where
  | quote : Spelled [0x22] []
  | plain {b : UInt8} {t s : Bytes} : b ≠ 0x22 → b ≠ 0x5c → ¬ b < 0x20 → Spelled t s → Spelled (b :: t) (b :: s)
  | letter {b c : UInt8} {t s : Bytes} : escapeLetter? b = some c → Spelled t s → Spelled (0x5c :: b :: t) (c :: s)
  | unit {ds utf8 t s : Bytes} {u : Nat} : ds.length = 4 → hexValue? ds = some u → codeUnit none u = .ok (.inl utf8) →
      Spelled t s → Spelled (0x5c :: 0x75 :: (ds ++ t)) (utf8 ++ s)
  | pair {ds es utf8 t s : Bytes} {u v lead : Nat} : ds.length = 4 → hexValue? ds = some u →
      codeUnit none u = .ok (.inr lead) → es.length = 4 → hexValue? es = some v →
      codeUnit (some lead) v = .ok (.inl utf8) → Spelled t s →
      Spelled (0x5c :: 0x75 :: (ds ++ 0x5c :: 0x75 :: (es ++ t))) (utf8 ++ s)

theorem length_four {ds : Bytes} (h : ds.length = 4) : ∃ a b c d, ds = [a, b, c, d] := by
  match ds, h with
  | [a, b, c, d], _ => exact ⟨a, b, c, d, rfl⟩

theorem stringFrom_of_spelled {t s : Bytes} (h : Spelled t s) (done rest : Bytes) :
    stringFrom done .plain (t ++ rest) = .ok (done.reverse ++ s, rest) := by
  induction h generalizing done with
  | quote => simp [stringFrom]
  | plain hquote hslash hcontrol _ ih =>
    rw [List.cons_append, stringFrom, if_neg hquote, if_neg hslash, if_neg hcontrol, ih]
    simp
  | @letter b c t s hletter _ ih =>
    have hu : b ≠ 0x75 := by
      rintro rfl
      cases hletter
    simp [stringFrom, hu, hletter, ih]
  | unit hlength hvalue hunit _ ih =>
    obtain ⟨a, b, c, d, rfl⟩ := length_four hlength
    simp [stringFrom, hvalue, hunit, ih]
  | pair hlength hvalue hunit hlength' hvalue' hunit' _ ih =>
    obtain ⟨a, b, c, d, rfl⟩ := length_four hlength
    obtain ⟨a', b', c', d', rfl⟩ := length_four hlength'
    simp [stringFrom, hvalue, hunit, hvalue', hunit', ih]

def LeadText (lead : Nat) (bs : Bytes) : Prop :=
  ∃ ds u, ds.length = 4 ∧ hexValue? ds = some u ∧ codeUnit none u = .ok (.inr lead) ∧ bs = 0x5c :: 0x75 :: ds

/-- The octets lead from between two characters to a place inside a string. -/
def LeadsTo : StringPlace → Bytes → Prop
  | .plain, before => before = []
  | .escape, before => before = [0x5c]
  | .hex none seen, before => seen.length < 4 ∧ before = 0x5c :: 0x75 :: seen.reverse
  | .hex (some lead) seen, before => seen.length < 4 ∧ ∃ bs, LeadText lead bs ∧ before = bs ++ 0x5c :: 0x75 :: seen.reverse
  | .paired lead, before => LeadText lead before
  | .pairedEscape lead, before => ∃ bs, LeadText lead bs ∧ before = bs ++ [0x5c]

/-- Behind `before` the octets `bs` go on to a closing quote with `rest` behind it, and spell what makes `done` into `s`. -/
def Finishes (done before bs s rest : Bytes) : Prop :=
  ∃ t s', bs = t ++ rest ∧ Spelled (before ++ t) s' ∧ s = done.reverse ++ s'

theorem Finishes.step {done before bs s rest : Bytes} {b : UInt8} (h : Finishes done (before ++ [b]) bs s rest) :
    Finishes done before (b :: bs) s rest := by
  obtain ⟨t, s', rfl, hspelled, hs⟩ := h
  refine ⟨b :: t, s', rfl, ?_, hs⟩
  rwa [List.append_assoc] at hspelled

/-- A character that ends here goes in front of what is spelled later. -/
theorem Finishes.character {done before bs s rest : Bytes} {b : UInt8} (utf8 : Bytes)
    (h : Finishes (utf8.reverse ++ done) [] bs s rest)
    (hchar : ∀ t s', Spelled t s' → Spelled (before ++ b :: t) (utf8 ++ s')) : Finishes done before (b :: bs) s rest := by
  obtain ⟨t, s', rfl, hspelled, rfl⟩ := h
  exact ⟨b :: t, utf8 ++ s', rfl, hchar t s' hspelled, by simp⟩

theorem codeUnit_ne_inr {lead u l : Nat} : codeUnit (some lead) u ≠ .ok (.inr l) := by
  unfold codeUnit
  simp only
  split <;> simp

/-- **What a reader of strings accepts is spelled out.** -/
theorem finishes_of_stringFrom {done bs s rest : Bytes} {place : StringPlace}
    (h : stringFrom done place bs = .ok (s, rest)) {before : Bytes} (hbefore : LeadsTo place before) :
    Finishes done before bs s rest := by
  fun_induction stringFrom done place bs generalizing before with
  | case1 | case4 | case8 | case10 | case11 | case15 | case17 => cases h
  | case2 done bs =>
    -- the closing quote
    obtain rfl := hbefore
    cases h
    exact ⟨[0x22], [], rfl, .quote, by simp⟩
  | case3 done bs _ ih =>
    obtain rfl := hbefore
    exact (ih h rfl).step
  | case5 done b bs hquote hslash hcontrol ih =>
    obtain rfl := hbefore
    exact Finishes.character [b] (ih h rfl) fun t s' ht => .plain hquote hslash hcontrol ht
  | case6 done bs ih =>
    obtain rfl := hbefore
    exact (ih h ⟨by simp, rfl⟩).step
  | case7 done b bs _ c hletter ih =>
    obtain rfl := hbefore
    exact Finishes.character [c] (ih h rfl) fun t s' ht => .letter hletter ht
  | case9 done lead seen b bs hlength ih =>
    -- one of the first three digits
    refine (ih h ?_).step
    cases lead with
    | none =>
      obtain ⟨-, rfl⟩ := hbefore
      exact ⟨by simp; omega, by simp⟩
    | some lead =>
      obtain ⟨-, bs, hlead, rfl⟩ := hbefore
      exact ⟨by simp; omega, bs, hlead, by simp⟩
  | case12 done lead seen b bs hlength u hvalue utf8 hunit ih =>
    -- the fourth digit ends a character
    refine Finishes.character utf8 (ih h rfl) fun t s' ht => ?_
    cases lead with
    | none =>
      obtain ⟨hseen, rfl⟩ := hbefore
      have hspelled := Spelled.unit (by simp; omega) hvalue hunit ht
      simpa using hspelled
    | some lead =>
      obtain ⟨hseen, _, ⟨ds, u', hds, hvalue', hunit', rfl⟩, rfl⟩ := hbefore
      have hspelled := Spelled.pair hds hvalue' hunit' (by simp; omega) hvalue hunit ht
      simpa using hspelled
  | case13 done lead seen b bs hlength u hvalue lead' hunit ih =>
    cases lead with
    | none =>
      obtain ⟨hseen, rfl⟩ := hbefore
      exact (ih h ⟨(b :: seen).reverse, u, by simp; omega, hvalue, hunit, by simp⟩).step
    | some lead => exact absurd hunit codeUnit_ne_inr
  | case14 done lead bs ih => exact (ih h ⟨before, hbefore, rfl⟩).step
  | case16 done lead bs ih =>
    obtain ⟨bs, hlead, rfl⟩ := hbefore
    exact (ih h ⟨by simp, bs, hlead, by simp⟩).step

/-- **Which strings are read:** those that are spelled out, in UTF-8. -/
theorem stringBody_eq_ok_iff {bs rest : Bytes} {s : String} :
    stringBody bs = .ok (s, rest) ↔ ∃ t, bs = t ++ rest ∧ Spelled t (Bytes.ofText s) := by
  unfold stringBody
  rw [bind_eq_ok_iff]
  constructor
  · rintro ⟨⟨octets, after⟩, hoctets, htext⟩
    obtain ⟨t, _, rfl, hspelled, rfl⟩ := finishes_of_stringFrom hoctets rfl
    simp only [List.nil_append] at hspelled htext
    split at htext
    · rename_i hs
      cases htext
      exact ⟨t, rfl, Bytes.ofText_of_text? hs ▸ hspelled⟩
    · cases htext
  · rintro ⟨t, rfl, hspelled⟩
    exact ⟨_, stringFrom_of_spelled hspelled [] rest, by simp⟩

def StringText (t : Bytes) (s : String) : Prop := ∃ n, t = 0x22 :: n ∧ Spelled n (Bytes.ofText s)

/-! ## Strings that are passed over -/

/-- The octets have the form of a string up to its closing quote. They need not be UTF-8. -/
inductive StringForm : Bytes → Prop where
  | quote : StringForm [0x22]
  | plain {b : UInt8} {t : Bytes} : b ≠ 0x22 → b ≠ 0x5c → ¬ b < 0x20 → StringForm t → StringForm (b :: t)
  | letter {b c : UInt8} {t : Bytes} : escapeLetter? b = some c → StringForm t → StringForm (0x5c :: b :: t)
  | unit {ds t : Bytes} {u : Nat} : ds.length = 4 → hexValue? ds = some u → StringForm t →
      StringForm (0x5c :: 0x75 :: (ds ++ t))

/-- What is spelled out has the form of a string. -/
theorem Spelled.form {t s : Bytes} (h : Spelled t s) : StringForm t := by
  induction h with
  | quote => exact .quote
  | plain hquote hslash hcontrol _ ih => exact .plain hquote hslash hcontrol ih
  | letter hletter _ ih => exact .letter hletter ih
  | unit hlength hvalue _ _ ih => exact .unit hlength hvalue ih
  | pair hlength hvalue _ hlength' hvalue' _ _ ih => exact .unit hlength hvalue (.unit hlength' hvalue' ih)

theorem skipString_of_form {t : Bytes} (h : StringForm t) (rest : Bytes) : skipString (t ++ rest) = .ok rest := by
  unfold skipString
  induction h with
  | quote => simp [skipStringFrom]
  | plain hquote hslash hcontrol _ ih =>
    rw [List.cons_append, skipStringFrom, if_neg hquote, if_neg hslash, if_neg hcontrol, ih]
  | @letter b c t hletter _ ih =>
    have hu : b ≠ 0x75 := by
      rintro rfl
      cases hletter
    simp [skipStringFrom, hu, hletter, ih]
  | unit hlength hvalue _ ih =>
    obtain ⟨a, b, c, d, rfl⟩ := length_four hlength
    simp [skipStringFrom, hvalue, ih]

/-- The octets lead from between two characters to a place inside a string that is passed over. -/
def SkipsTo (escaped : Bool) : (hexLeft : Nat) → (seen before : Bytes) → Prop
  | 0, _, before => before = if escaped then [0x5c] else []
  | n + 1, seen, before => n + 1 + seen.length = 4 ∧ before = 0x5c :: 0x75 :: seen.reverse

theorem form_of_skipStringFrom {escaped : Bool} {n : Nat} {seen bs rest : Bytes}
    (h : skipStringFrom escaped n seen bs = .ok rest) {before : Bytes} (hbefore : SkipsTo escaped n seen before) :
    ∃ t, bs = t ++ rest ∧ StringForm (before ++ t) := by
  fun_induction skipStringFrom escaped n seen bs generalizing before with
  | case1 | case3 | case7 | case10 => cases h
  | case2 escaped seen b bs hvalue ih =>
    -- the fourth digit
    obtain ⟨u, hu⟩ := Option.isSome_iff_exists.mp hvalue
    obtain ⟨t, rfl, ht⟩ := ih h rfl
    obtain ⟨hlength, rfl⟩ := hbefore
    have hseen : 1 + seen.length = 4 := hlength
    have hform := StringForm.unit (by simp; omega) hu ht
    exact ⟨b :: t, rfl, by simpa using hform⟩
  | case4 escaped n seen b bs ih =>
    obtain ⟨hlength, rfl⟩ := hbefore
    obtain ⟨t, rfl, ht⟩ := ih h ⟨by simp; omega, rfl⟩
    exact ⟨b :: t, rfl, by simpa using ht⟩
  | case5 seen bs ih =>
    obtain rfl := hbefore
    obtain ⟨t, rfl, ht⟩ := ih h ⟨rfl, rfl⟩
    exact ⟨0x75 :: t, rfl, ht⟩
  | case6 seen b bs _ hletter ih =>
    obtain ⟨c, hc⟩ := Option.isSome_iff_exists.mp hletter
    obtain rfl := hbefore
    obtain ⟨t, rfl, ht⟩ := ih h rfl
    exact ⟨b :: t, rfl, .letter hc ht⟩
  | case8 seen bs =>
    obtain rfl := hbefore
    cases h
    exact ⟨[0x22], rfl, .quote⟩
  | case9 seen bs _ ih =>
    obtain rfl := hbefore
    obtain ⟨t, rfl, ht⟩ := ih h rfl
    exact ⟨0x5c :: t, rfl, ht⟩
  | case11 seen b bs hquote hslash hcontrol ih =>
    obtain rfl := hbefore
    obtain ⟨t, rfl, ht⟩ := ih h rfl
    exact ⟨b :: t, rfl, .plain hquote hslash hcontrol ht⟩

/-- **Which strings are passed over:** those that have the form of a string. -/
theorem skipString_eq_ok_iff {bs rest : Bytes} : skipString bs = .ok rest ↔ ∃ t, bs = t ++ rest ∧ StringForm t := by
  constructor
  · intro h
    exact form_of_skipStringFrom h rfl
  · rintro ⟨t, rfl, ht⟩
    exact skipString_of_form ht rest

end TransitLink.Json
