import TransitLink.Probe.Settings
import TransitLink.Proofs.Json.Parts
import TransitLink.Proofs.Text.Blank

/-!
# What a settings file sets

* `Assigns` : the lines that give a name a value, with the value as it is written.
* `Sets` : a text sets a name to what the first such line says. `find?_parse_eq` : that is what is read from it, trimmed.
* `find?_parse_eq_of_idle` : the lines that do not count for a name.
-/

namespace TransitLink.Probe.DotEnv

set_option autoImplicit false

/-- `Assigns line name value`: the line gives the name this value. The value is what stands behind the first equals sign,
and the name what stands ahead of it, without the blanks around it. A line that begins with a number sign gives none. -/
structure Assigns (line : List Char) (name value : String) : Prop where
  noComment : line.head? ≠ some '#'
  named : name ≠ ""
  sides : ∃ left : String, '=' ∉ left.toList ∧ Text.trim left = name ∧ line = left.toList ++ '=' :: value.toList

/-- `Sets text name value`: of the lines of the text that give the name a value, the first gives it this one. -/
def Sets (text name value : String) : Prop :=
  ∃ before line after, Text.Cut text.toList (before ++ line :: after) ∧ Assigns line name value ∧
    ∀ l ∈ before, ∀ w, ¬ Assigns l name w

/-! ## Lines -/

section
variable {left right : List Char} (hleft : '=' ∉ left)
include hleft

theorem takeWhile_sides : (left ++ '=' :: right).takeWhile (· ≠ '=') = left := by
  have hkeep : ∀ c ∈ left, decide (c ≠ '=') = true := fun c hc => decide_eq_true fun h => hleft (h ▸ hc)
  rw [List.takeWhile_append_of_pos hkeep, List.takeWhile_cons, if_neg (by simp), List.append_nil]

theorem dropWhile_sides : (left ++ '=' :: right).dropWhile (· ≠ '=') = '=' :: right := by
  have hdrop : ∀ c ∈ left, decide (c ≠ '=') = true := fun c hc => decide_eq_true fun h => hleft (h ▸ hc)
  rw [List.dropWhile_append_of_pos hdrop, List.dropWhile_cons, if_neg (by simp)]

/-- A line with an equals sign is no blank line. -/
theorem entry?_sides : entry? (left ++ '=' :: right) =
    if (left ++ '=' :: right).head? = some '#' ∨ Text.trimChars left = [] then none
    else some (String.ofList (Text.trimChars left), String.ofList (Text.trimChars right)) := by
  have hsign : '=' ∈ left ++ '=' :: right := List.mem_append_right _ List.mem_cons_self
  have hblank : Text.trimChars (left ++ '=' :: right) ≠ [] := by
    rw [ne_eq, Text.trimChars_eq_nil_iff]
    exact fun h => absurd (h '=' hsign) (by decide)
  unfold entry?
  rw [takeWhile_sides hleft, dropWhile_sides hleft, List.drop_one, List.tail_cons]
  generalize left ++ '=' :: right = line at hsign hblank ⊢
  by_cases hcomment : line.head? = some '#'
  · simp [hcomment]
  · simp [hcomment, hsign, hblank]

end

theorem entry?_of_no_sign {line : List Char} (h : '=' ∉ line) : entry? line = none := by
  unfold entry?
  rw [if_pos]
  simp [h]

def written? (line : List Char) : Option (String × String) :=
  Option.map (fun m => (m.1, String.ofList ((line.dropWhile (· ≠ '=')).drop 1))) <| entry? line

theorem entry?_eq_written? (line : List Char) : entry? line = (written? line).map fun m => (m.1, Text.trim m.2) := by
  by_cases hsign : '=' ∈ line
  · obtain ⟨left, right, rfl, hleft⟩ := List.eq_append_cons_of_mem hsign
    rw [written?, dropWhile_sides hleft, entry?_sides hleft]
    split
    · rfl
    · rw [Option.map_some, Option.map_some, Text.trim, List.drop_one, List.tail_cons, String.toList_ofList]
  · rw [written?, entry?_of_no_sign hsign]
    rfl

theorem written?_eq_some_iff {line : List Char} {name value : String} :
    written? line = some (name, value) ↔ Assigns line name value := by
  constructor
  · intro h
    by_cases hsign : '=' ∈ line
    · obtain ⟨left, right, rfl, hleft⟩ := List.eq_append_cons_of_mem hsign
      rw [written?, dropWhile_sides hleft, entry?_sides hleft] at h
      split at h
      · cases h
      · rename_i hused
        rw [not_or] at hused
        obtain ⟨rfl, rfl⟩ := Prod.mk.inj (Option.some.inj h)
        refine ⟨hused.1, fun hnone => hused.2 ?_, String.ofList left, ?_, ?_, ?_⟩
        · rwa [← String.toList_inj, String.toList_ofList] at hnone
        · rwa [String.toList_ofList]
        · rw [Text.trim, String.toList_ofList]
        · rw [String.toList_ofList, String.toList_ofList, List.drop_one, List.tail_cons]
    · rw [written?, entry?_of_no_sign hsign] at h
      cases h
  · rintro ⟨hcomment, hnamed, left, hleft, rfl, rfl⟩
    have hname : Text.trimChars left.toList ≠ [] := by
      intro hnone
      rw [Text.trim, hnone] at hnamed
      exact hnamed rfl
    rw [written?, dropWhile_sides hleft, entry?_sides hleft, if_neg (not_or.mpr ⟨hcomment, hname⟩), Option.map_some,
      List.drop_one, List.tail_cons, String.ofList_toList]
    rfl

/-! ## Texts -/

theorem find?_firstOfEach (ms : Members String) (name : String) :
    Members.find? name (firstOfEach ms) = Members.find? name ms := by
  induction ms with
  | nil => rfl
  | cons m ms ih =>
    rw [firstOfEach, Members.find?, Members.find?]
    by_cases hm : m.1 = name
    · rw [if_pos hm, if_pos hm]
    · rw [if_neg hm, if_neg hm, ← ih]
      exact Members.find?_filter (fun _ => by simpa using Ne.symm hm) _

theorem sets_iff {text name value : String} :
    Sets text name value ↔ Members.find? name ((Text.lines text).filterMap written?) = some value := by
  rw [Members.find?_filterMap_eq_some_iff]
  constructor
  · rintro ⟨before, line, after, hcut, hline, hbefore⟩
    exact ⟨before, line, after, Text.cut_iff.mp hcut, written?_eq_some_iff.mpr hline,
      fun l hl w hw => hbefore l hl w (written?_eq_some_iff.mp hw)⟩
  · rintro ⟨before, line, after, hlines, hline, hbefore⟩
    exact ⟨before, line, after, Text.cut_iff.mpr hlines, written?_eq_some_iff.mp hline,
      fun l hl w hw => hbefore l hl w (written?_eq_some_iff.mpr hw)⟩

/-- What is read from a text under a name is what its first line with that name says, trimmed. -/
theorem find?_parse_eq (text name : String) : Members.find? name (parse text) =
    (Members.find? name ((Text.lines text).filterMap written?)).map Text.trim := by
  have hentry : entry? = fun line => (written? line).map fun m => (m.1, Text.trim m.2) := funext entry?_eq_written?
  rw [parse, find?_firstOfEach, hentry, ← List.map_filterMap, Members.find?_map]

/-- A line does not count for a name if it gives it no value, or if a line ahead of it does. -/
theorem find?_parse_eq_of_idle {text text' name : String} {before after : List (List Char)} {line : List Char}
    (hcut : Text.Cut text.toList (before ++ line :: after)) (hcut' : Text.Cut text'.toList (before ++ after))
    (hidle : ∀ v, Assigns line name v → ∃ l ∈ before, ∃ w, Assigns l name w) :
    Members.find? name (parse text) = Members.find? name (parse text') := by
  rw [find?_parse_eq, find?_parse_eq, Text.cut_iff.mp hcut, Text.cut_iff.mp hcut', List.filterMap_append,
    List.filterMap_append, Members.find?_append, Members.find?_append]
  cases hline : written? line with
  | none => rw [List.filterMap_cons_none hline]
  | some m =>
    rw [List.filterMap_cons_some hline, Members.find?]
    split
    · rename_i hname
      obtain ⟨l, hl, w, hw⟩ := hidle m.2 (written?_eq_some_iff.mp (by rw [hline, ← hname]))
      have hearlier : name ∈ Members.names (before.filterMap written?) :=
        List.mem_map_of_mem (f := Prod.fst) (List.mem_filterMap.mpr ⟨l, hl, written?_eq_some_iff.mpr hw⟩)
      cases hbefore : Members.find? name (before.filterMap written?) with
      | none => exact absurd hearlier (Members.find?_eq_none_iff.mp hbefore)
      | some v => rfl
    · rfl

end TransitLink.Probe.DotEnv
