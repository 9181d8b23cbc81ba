import TransitLink.Proofs.Json.NumberTexts

/-!
# Texts of values

* `stringText_spelled` : the text of a string spells it.
* `Writes t j` : the octets `t` write the value `j`, with any blanks between its parts, any escapes in its strings, and any
  digits for its doubles that are rounded to them.
* `joined w us` : the texts `us` with commas between them and `w` before each. `ofText_joined` : both printers do that.
* `writes_toBytes`, `writes_pretty` : so both write the value.
-/

namespace TransitLink.Json

set_option autoImplicit false

/-! ## Octets of texts -/

theorem ofText_join (ss : List String) : Bytes.ofText (String.join ss) = ss.flatMap Bytes.ofText := by
  induction ss with
  | nil => rfl
  | cons s ss ih => rw [String.join_cons, ofText_append, ih, List.flatMap_cons]

theorem ofText_toString (c : Char) : Bytes.ofText c.toString = String.utf8EncodeChar c := by
  rw [ofText_eq_flatMap]
  simp

/-! ## Strings -/

/-- An octet that stands for itself inside a string. -/
def IsPlain (b : UInt8) : Prop := b ≠ 0x22 ∧ b ≠ 0x5c ∧ ¬ b < 0x20

theorem Spelled.plains {bs t s : Bytes} (h : ∀ b ∈ bs, IsPlain b) (ht : Spelled t s) : Spelled (bs ++ t) (bs ++ s) := by
  induction bs with
  | nil => exact ht
  | cons b bs ih =>
    obtain ⟨⟨hquote, hslash, hcontrol⟩, hbs⟩ := List.forall_mem_cons.mp h
    exact .plain hquote hslash hcontrol (ih hbs)

theorem isPlain_ofNat {n : Nat} (h : 0x20 ≤ n) (hquote : n ≠ 0x22) (hslash : n ≠ 0x5c) (hn : n < 0x100) :
    IsPlain (UInt8.ofNat n) := by
  have hto : (UInt8.ofNat n).toNat = n := by
    rw [UInt8.toNat_ofNat']
    omega
  refine ⟨fun heq => hquote ?_, fun heq => hslash ?_, fun hlt => ?_⟩
  · rw [← hto, heq]
    rfl
  · rw [← hto, heq]
    rfl
  · rw [UInt8.lt_iff_toNat_lt, hto] at hlt
    exact absurd hlt (Nat.not_lt.mpr h)

theorem isPlain_encodeChar {c : Char} (hquote : c ≠ '"') (hslash : c ≠ '\\') (hcontrol : ¬ c.toNat < 0x20) :
    ∀ b ∈ String.utf8EncodeChar c, IsPlain b := by
  have hne : ∀ d : Char, c ≠ d → c.val.toNat ≠ d.val.toNat := fun d hd h => hd (Char.ext (UInt32.toNat_inj.mp h))
  have hquote : c.val.toNat ≠ 0x22 := hne _ hquote
  have hslash : c.val.toNat ≠ 0x5c := hne _ hslash
  have hcontrol : 0x20 ≤ c.val.toNat := Nat.not_lt.mp hcontrol
  unfold String.utf8EncodeChar
  simp only
  split
  · simpa using isPlain_ofNat hcontrol hquote hslash (by omega)
  -- every octet of a longer character is large
  have hlarge : ∀ n, 0x80 ≤ n → n < 0x100 → IsPlain (UInt8.ofNat n) := fun n hn => isPlain_ofNat (by omega) (by omega) (by omega)
  split
  · simp only [List.forall_mem_cons]
    exact ⟨hlarge _ (by omega) (by omega), hlarge _ (by omega) (by omega), by simp⟩
  split
  · simp only [List.forall_mem_cons]
    exact ⟨hlarge _ (by omega) (by omega), hlarge _ (by omega) (by omega), hlarge _ (by omega) (by omega), by simp⟩
  · simp only [List.forall_mem_cons]
    exact ⟨hlarge _ (by omega) (by omega), hlarge _ (by omega) (by omega), hlarge _ (by omega) (by omega),
      hlarge _ (by omega) (by omega), by simp⟩

/-- A control character in hexadecimal digits. -/
theorem unicodeEscape_spelled {n : Nat} (hn : n < 0x20) {t s : Bytes} (ht : Spelled t s) :
    Spelled (Bytes.ofText (unicodeEscape n) ++ t) (String.utf8EncodeChar (Char.ofNat n) ++ s) := by
  have hdigits : ∀ n < 0x20, ∃ ds, Bytes.ofText (unicodeEscape n) = 0x5c :: 0x75 :: ds ∧ ds.length = 4 ∧
      hexValue? ds = some n := by
    intro n hn
    refine ⟨(Bytes.ofText (unicodeEscape n)).drop 2, ?_⟩
    revert n
    decide +kernel
  obtain ⟨ds, hescape, hlength, hvalue⟩ := hdigits n hn
  rw [hescape, List.cons_append, List.cons_append]
  refine .unit hlength hvalue ?_ ht
  unfold codeUnit
  simp only
  rw [if_neg (by simp; omega), if_neg (by omega), ofText_toString]

theorem charText_spelled (c : Char) {t s : Bytes} (ht : Spelled t s) :
    Spelled (Bytes.ofText (charText c) ++ t) (String.utf8EncodeChar c ++ s) := by
  have hletter : ∀ d : Char, ∀ e b : UInt8, String.utf8EncodeChar d = [b] → escapeLetter? e = some b →
      Spelled ([0x5c, e] ++ t) (String.utf8EncodeChar d ++ s) := by
    intro d e b hd he
    rw [hd]
    exact .letter he ht
  have hchar : ∀ d : Char, c.toNat = d.toNat → c = d := fun d hd => Char.ext (UInt32.toNat_inj.mp hd)
  unfold charText
  split
  · rename_i hc
    exact hc ▸ hletter '"' 0x22 0x22 rfl rfl
  rename_i hquote
  split
  · rename_i hc
    exact hc ▸ hletter '\\' 0x5c 0x5c rfl rfl
  rename_i hslash
  split
  · rename_i hc
    exact hchar '\x08' hc ▸ hletter '\x08' 0x62 0x08 rfl rfl
  split
  · rename_i hc
    exact hchar '\x0c' hc ▸ hletter '\x0c' 0x66 0x0c rfl rfl
  split
  · rename_i hc
    exact hc ▸ hletter '\n' 0x6e 0x0a rfl rfl
  split
  · rename_i hc
    exact hc ▸ hletter '\r' 0x72 0x0d rfl rfl
  split
  · rename_i hc
    exact hc ▸ hletter '\t' 0x74 0x09 rfl rfl
  split
  · rename_i hcontrol
    have hspelled := unicodeEscape_spelled hcontrol ht
    rwa [Char.ofNat_toNat] at hspelled
  · rename_i hcontrol
    rw [ofText_toString]
    exact .plains (isPlain_encodeChar hquote hslash hcontrol) ht

theorem stringText_spelled (s : String) : StringText (Bytes.ofText (stringText s)) s := by
  have hchars : ∀ cs : List Char, Spelled (cs.flatMap (fun c => Bytes.ofText (charText c)) ++ [0x22])
      (cs.flatMap String.utf8EncodeChar) := by
    intro cs
    induction cs with
    | nil => exact .quote
    | cons c cs ih =>
      rw [List.flatMap_cons, List.flatMap_cons, List.append_assoc]
      exact charText_spelled c ih
  refine ⟨s.toList.flatMap (fun c => Bytes.ofText (charText c)) ++ [0x22], ?_, ?_⟩
  · unfold stringText
    rw [ofText_append, ofText_append, ofText_join, List.flatMap_map]
    rfl
  · rw [ofText_eq_flatMap]
    exact hchars s.toList

/-! ## Writing -/

/-- The octets write a value that is no list and no object. -/
inductive LeafText : Bytes → Json → Prop where
  | null : LeafText [0x6e, 0x75, 0x6c, 0x6c] .null
  | yes : LeafText [0x74, 0x72, 0x75, 0x65] (.bool true)
  | no : LeafText [0x66, 0x61, 0x6c, 0x73, 0x65] (.bool false)
  | int (n : Int) : LeafText (Bytes.ofText (toString n)) (.int n)
  | float {t : Bytes} {x : Double} : DoubleText t x → LeafText t (.float x)
  | str {t : Bytes} {s : String} : StringText t s → LeafText t (.str s)

mutual

/-- The octets write the value. Blanks may stand between its parts, escapes in its strings, and digits of any number that is
rounded to it for a double. -/
inductive Writes : Bytes → Json → Prop where
  | leaf {t : Bytes} {j : Json} : LeafText t j → Writes t j
  | list {t : Bytes} {us : List Bytes} {js : List Json} : Parts 0x5d t us → List.Forall₂ Writes us js →
      Writes (0x5b :: t) (.arr js)
  | object {t : Bytes} {us : List Bytes} {ms : List (String × Json)} : Parts 0x7d t us → List.Forall₂ WritesMember us ms →
      Writes (0x7b :: t) (.obj ms)

inductive WritesMember : Bytes → String × Json → Prop where
  | member {u v : Bytes} {m : String × Json} : MemberText u (m.1, v) → Writes v m.2 → WritesMember u m

end

theorem leafText_of_leaf {j : Json} (hlist : ∀ js, j ≠ .arr js) (hobject : ∀ ms, j ≠ .obj ms) :
    LeafText (Bytes.ofText (leafText j)) j := by
  cases j with
  | null => exact .null
  | bool b =>
    cases b with
    | true => exact .yes
    | false => exact .no
  | int n => exact .int n
  | float x => exact .float (doubleText_floatText x)
  | str s => exact .str (stringText_spelled s)
  | arr js => exact absurd rfl (hlist js)
  | obj ms => exact absurd rfl (hobject ms)

/-! ## Lists and objects -/

/-- Texts with commas between them and `w` before each. -/
def joined (w : Bytes) : List Bytes → Bytes
  | [] => []
  | u :: us => w ++ (u ++ us.flatMap fun u => 0x2c :: (w ++ u))

theorem parts_joined (close : UInt8) {w w' : Bytes} (hw : Blank w) (hw' : Blank w') (us : List Bytes) :
    Parts close (joined w us ++ (w' ++ [close])) us := by
  have hmore : ∀ us : List Bytes, MoreParts close ((us.flatMap fun u => 0x2c :: (w ++ u)) ++ (w' ++ [close])) us := by
    intro us
    induction us with
    | nil => exact .close hw'
    | cons u us ih =>
      rw [List.flatMap_cons, List.append_assoc, List.cons_append, List.append_assoc]
      exact .comma blank_nil hw ih
  cases us with
  | nil => exact .none hw'
  | cons u us =>
    rw [joined, List.append_assoc, List.append_assoc]
    exact .some hw (hmore us)

/-- A text that goes item by item, with commas between and `b` before each. -/
theorem ofText_joined {α : Type} {b : String} {g : α → String} {f : List α → String} (hnil : f [] = "")
    (hone : ∀ a, f [a] = b ++ g a) (hmore : ∀ a a' as, f (a :: a' :: as) = b ++ g a ++ "," ++ f (a' :: as))
    (as : List α) : Bytes.ofText (f as) = joined (Bytes.ofText b) (as.map fun a => Bytes.ofText (g a)) := by
  induction as with
  | nil =>
    rw [hnil]
    rfl
  | cons a as ih =>
    cases as with
    | nil =>
      rw [hone, ofText_append, List.map_singleton, joined]
      exact congrArg (Bytes.ofText b ++ ·) (List.append_nil _).symm
    | cons a' as =>
      have hcomma : Bytes.ofText "," = [0x2c] := by decide +kernel
      rw [hmore, ofText_append, ofText_append, ofText_append, ih, hcomma]
      simp only [joined, List.map_cons, List.flatMap_cons, List.append_assoc, List.cons_append, List.nil_append]

theorem memberText_of_blank {w : Bytes} (hw : Blank w) (name : String) (v : Bytes) :
    MemberText (Bytes.ofText (stringText name) ++ 0x3a :: (w ++ v)) (name, v) := by
  obtain ⟨n, hn, hspelled⟩ := stringText_spelled name
  refine ⟨n, [], w, ?_, hspelled, blank_nil, hw⟩
  rw [hn]
  rfl

theorem writes_items {text : Json → Bytes} {js : List Json} (h : ∀ j ∈ js, Writes (text j) j) :
    List.Forall₂ Writes (js.map text) js :=
  List.forall₂_map_left_iff.mpr (List.forall₂_same.mpr h)

theorem writes_members {w : Bytes} (hw : Blank w) (text : Json → Bytes) {ms : Members Json}
    (h : ∀ m ∈ ms, Writes (text m.2) m.2) :
    List.Forall₂ WritesMember (ms.map fun m => Bytes.ofText (stringText m.1) ++ 0x3a :: (w ++ text m.2)) ms := by
  refine List.forall₂_map_left_iff.mpr (List.forall₂_same.mpr fun m hm => ?_)
  exact .member (memberText_of_blank hw m.1 (text m.2)) (h m hm)

/-! ## Compact texts -/

def memberBytes (m : String × Json) : Bytes := Bytes.ofText (stringText m.1) ++ 0x3a :: toBytes m.2

theorem memberText_memberBytes (ms : Members Json) :
    List.Forall₂ MemberText (ms.map memberBytes) (ms.map fun m => (m.1, toBytes m.2)) :=
  List.forall₂_map_left_iff.mpr (List.forall₂_map_right_iff.mpr (List.forall₂_same.mpr fun m _ =>
    memberText_of_blank blank_nil m.1 (toBytes m.2)))

theorem ofText_compactItems (js : List Json) : Bytes.ofText (compactItems js) = joined [] (js.map toBytes) := by
  refine ofText_joined (b := "") rfl (fun j => ?_) (fun j k js => ?_) js
  · rw [compactItems, String.empty_append]
  · rw [String.empty_append, compactItems]
    exact nofun

theorem ofText_compactMembers (ms : Members Json) :
    Bytes.ofText (compactMembers ms) = joined [] (ms.map memberBytes) := by
  have hmember : memberBytes = fun m => Bytes.ofText (stringText m.1 ++ ":" ++ compact m.2) := by
    funext m
    rw [ofText_append, ofText_append, List.append_assoc]
    rfl
  rw [hmember]
  refine ofText_joined (b := "") rfl (fun m => ?_) (fun m l ms => ?_) ms
  · rw [compactMembers, String.empty_append]
  · rw [String.empty_append, compactMembers]
    exact nofun

theorem toBytes_arr (js : List Json) : toBytes (.arr js) = 0x5b :: (joined [] (js.map toBytes) ++ [0x5d]) := by
  unfold toBytes
  rw [compact, ofText_append, ofText_append, ofText_compactItems]
  rfl

theorem toBytes_obj (ms : Members Json) : toBytes (.obj ms) = 0x7b :: (joined [] (ms.map memberBytes) ++ [0x7d]) := by
  unfold toBytes
  rw [compact, ofText_append, ofText_append, ofText_compactMembers]
  rfl

/-- **A compact text writes its value.** -/
theorem writes_toBytes (j : Json) : Writes (toBytes j) j := by
  induction j with
  | arr js ih =>
    rw [toBytes_arr]
    exact .list (parts_joined 0x5d blank_nil blank_nil _) (writes_items ih)
  | obj ms ih =>
    rw [toBytes_obj]
    exact .object (parts_joined 0x7d blank_nil blank_nil _) (writes_members blank_nil toBytes ih)
  | _ => exact .leaf (leafText_of_leaf nofun nofun)

/-! ## Texts over several lines -/

theorem blank_newLine (level : Nat) : Blank (Bytes.ofText (newLine level)) := by
  have hchars : ∀ c ∈ '\n' :: List.replicate (2 * level) ' ', Blank (String.utf8EncodeChar c) := by
    intro c hc
    rcases List.mem_cons.mp hc with rfl | hc
    · decide
    · rw [List.eq_of_mem_replicate hc]
      decide
  have htext : Bytes.ofText (newLine level) = ('\n' :: List.replicate (2 * level) ' ').flatMap String.utf8EncodeChar := by
    rw [ofText_eq_flatMap, newLine, String.toList_append]
    simp only [String.toList_ofList]
    rfl
  rw [htext]
  intro b hb
  obtain ⟨c, hc, hb⟩ := List.mem_flatMap.mp hb
  exact hchars c hc b hb

theorem ofText_prettyItems (level : Nat) (js : List Json) : Bytes.ofText (prettyItems level js) =
    joined (Bytes.ofText (newLine level)) (js.map fun j => Bytes.ofText (prettyAt level j)) := by
  refine ofText_joined rfl (fun j => ?_) (fun j k js => ?_) js
  · rw [prettyItems]
  · rw [prettyItems]
    exact nofun

theorem ofText_prettyMembers (level : Nat) (ms : Members Json) : Bytes.ofText (prettyMembers level ms) =
    joined (Bytes.ofText (newLine level))
      (ms.map fun m => Bytes.ofText (stringText m.1) ++ 0x3a :: ([0x20] ++ Bytes.ofText (prettyAt level m.2))) := by
  have hmember : (fun m : String × Json => Bytes.ofText (stringText m.1) ++
      0x3a :: ([0x20] ++ Bytes.ofText (prettyAt level m.2))) =
        fun m => Bytes.ofText (stringText m.1 ++ ": " ++ prettyAt level m.2) := by
    funext m
    rw [ofText_append, ofText_append, List.append_assoc]
    rfl
  rw [hmember]
  refine ofText_joined rfl (fun m => ?_) (fun m l ms => ?_) ms
  · rw [prettyMembers, ← String.append_assoc, ← String.append_assoc]
  · rw [prettyMembers]
    · simp only [String.append_assoc]
    · exact nofun

theorem writes_prettyAt (j : Json) (level : Nat) : Writes (Bytes.ofText (prettyAt level j)) j := by
  induction j generalizing level with
  | arr js ih =>
    cases js with
    | nil => exact .list (.none blank_nil) .nil
    | cons j js =>
      have htext : Bytes.ofText (prettyAt level (.arr (j :: js))) = 0x5b :: (joined (Bytes.ofText (newLine (level + 1)))
          ((j :: js).map fun j => Bytes.ofText (prettyAt (level + 1) j)) ++ (Bytes.ofText (newLine level) ++ [0x5d])) := by
        rw [prettyAt, ofText_append, ofText_append, ofText_append, ofText_prettyItems]
        · simp only [List.append_assoc]
          rfl
        · exact nofun
      rw [htext]
      exact .list (parts_joined 0x5d (blank_newLine _) (blank_newLine _) _) (writes_items fun j hj => ih j hj _)
  | obj ms ih =>
    cases ms with
    | nil => exact .object (.none blank_nil) .nil
    | cons m ms =>
      have hblank : Blank [0x20] := by decide
      have htext : Bytes.ofText (prettyAt level (.obj (m :: ms))) = 0x7b :: (joined (Bytes.ofText (newLine (level + 1)))
          ((m :: ms).map fun m => Bytes.ofText (stringText m.1) ++
            0x3a :: ([0x20] ++ Bytes.ofText (prettyAt (level + 1) m.2))) ++ (Bytes.ofText (newLine level) ++ [0x7d])) := by
        rw [prettyAt, ofText_append, ofText_append, ofText_append, ofText_prettyMembers]
        · simp only [List.append_assoc]
          rfl
        · exact nofun
      rw [htext]
      exact .object (parts_joined 0x7d (blank_newLine _) (blank_newLine _) _)
        (writes_members hblank (fun j => Bytes.ofText (prettyAt (level + 1) j)) fun m hm => ih m hm _)
  | _ => exact .leaf (leafText_of_leaf nofun nofun)

/-- **A text over several lines writes its value.** -/
theorem writes_pretty (j : Json) : Writes (Bytes.ofText j.pretty) j := writes_prettyAt j 0

end TransitLink.Json
