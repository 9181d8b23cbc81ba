import TransitLink.Text.Blank

/-!
# Blanks and lines

* `Trimmed` : a list of characters, and what is left without the blanks at its two ends.
* `trimChars_eq_iff` : that is what trimming gives. `trim_trim` : a second time, nothing is left to take off.
* `IsBlank` : the texts of which nothing is left.
* `Cut` : a list of characters, and the lines that it is cut into. `cut_iff` : these are the lines of a text.
-/

namespace TransitLink.Text

set_option autoImplicit false

/-! ## Trimming -/

/-- `Trimmed cs t`: the characters `cs` are `t` with blanks around it, and `t` has no blank at its two ends. -/
structure Trimmed (cs t : List Char) : Prop where
  around : ∃ before after, cs = before ++ t ++ after ∧ (∀ c ∈ before, isBlank c = true) ∧ ∀ c ∈ after, isBlank c = true
  front : ∀ c, t.head? = some c → isBlank c = false
  back : ∀ c, t.getLast? = some c → isBlank c = false

variable {cs t : List Char}

theorem of_head?_dropWhile {α : Type} {p : α → Bool} {xs : List α} {x : α} (h : (xs.dropWhile p).head? = some x) :
    p x = false := by
  have hhead := List.head?_dropWhile_not p xs
  rwa [h] at hhead

theorem dropWhile_eq_self {α : Type} {p : α → Bool} {xs : List α} (h : ∀ x, xs.head? = some x → p x = false) :
    xs.dropWhile p = xs := by
  cases xs with
  | nil => rfl
  | cons x xs => rw [List.dropWhile_cons, h x rfl, if_neg Bool.false_ne_true]

theorem exists_append_dropWhile {α : Type} (p : α → Bool) (xs : List α) :
    ∃ front, (∀ x ∈ front, p x = true) ∧ xs = front ++ xs.dropWhile p :=
  ⟨xs.takeWhile p, List.all_eq_true.mp List.all_takeWhile, List.takeWhile_append_dropWhile.symm⟩

theorem trimmed_trimChars (cs : List Char) : Trimmed cs (trimChars cs) := by
  obtain ⟨before, hbefore, hcs⟩ := exists_append_dropWhile isBlank cs
  obtain ⟨after, hafter, hrest⟩ := exists_append_dropWhile isBlank (cs.dropWhile isBlank).reverse
  have hback : cs.dropWhile isBlank = trimChars cs ++ after.reverse := by
    have hreverse := congrArg List.reverse hrest
    rwa [List.reverse_reverse, List.reverse_append] at hreverse
  refine ⟨⟨before, after.reverse, ?_, hbefore, fun c hc => hafter c (List.mem_reverse.mp hc)⟩, fun c hc => ?_,
    fun c hc => ?_⟩
  · rw [List.append_assoc, ← hback]
    exact hcs
  · have hhead : (cs.dropWhile isBlank).head? = some c := by rw [hback, List.head?_append, hc, Option.some_or]
    exact of_head?_dropWhile hhead
  · rw [trimChars, List.getLast?_reverse] at hc
    exact of_head?_dropWhile hc

theorem trimChars_of_trimmed (h : Trimmed cs t) : trimChars cs = t := by
  obtain ⟨⟨before, after, rfl, hbefore, hafter⟩, hfront, hback⟩ := h
  have hrest : (t ++ after).reverse.dropWhile isBlank = t.reverse := by
    rw [List.reverse_append, List.dropWhile_append_of_pos fun c hc => hafter c (List.mem_reverse.mp hc)]
    exact dropWhile_eq_self fun c hc => hback c (by rwa [List.head?_reverse] at hc)
  rw [trimChars, List.append_assoc, List.dropWhile_append_of_pos hbefore]
  cases t with
  | nil =>
    have hnil : (after ++ []).dropWhile isBlank = [] := List.dropWhile_append_of_pos hafter
    rw [List.append_nil] at hnil
    rw [List.nil_append, hnil]
    rfl
  | cons c t =>
    have hstay : (c :: t ++ after).dropWhile isBlank = c :: t ++ after :=
      dropWhile_eq_self fun x hx => hfront x hx
    rw [hstay, hrest, List.reverse_reverse]

theorem trimChars_eq_iff : trimChars cs = t ↔ Trimmed cs t := by
  constructor
  · rintro rfl
    exact trimmed_trimChars cs
  · exact trimChars_of_trimmed

/-- Blanks around characters of which none is blank are taken off, and nothing else. -/
theorem trimChars_surrounded {before after : List Char} (hbefore : ∀ c ∈ before, isBlank c = true)
    (hcs : ∀ c ∈ cs, isBlank c = false) (hafter : ∀ c ∈ after, isBlank c = true) :
    trimChars (before ++ cs ++ after) = cs :=
  trimChars_of_trimmed ⟨⟨before, after, rfl, hbefore, hafter⟩, fun c hc => hcs c (List.mem_of_head? hc),
    fun c hc => hcs c (List.mem_of_getLast? hc)⟩

theorem trim_trim (s : String) : trim (trim s) = trim s := by
  obtain ⟨-, hfront, hback⟩ := trimmed_trimChars s.toList
  have hnone : ∀ c ∈ ([] : List Char), isBlank c = true := fun c hc => absurd hc List.not_mem_nil
  have hsame : trimChars (trimChars s.toList) = trimChars s.toList :=
    trimChars_of_trimmed ⟨⟨[], [], (List.append_nil _).symm, hnone, hnone⟩, hfront, hback⟩
  rw [trim, trim, String.toList_ofList, hsame]

/-! ## Blank texts -/

def IsBlank (s : String) : Prop := ∀ c ∈ s.toList, isBlank c = true

instance (s : String) : Decidable (IsBlank s) := inferInstanceAs (Decidable (∀ c ∈ s.toList, isBlank c = true))

theorem trimChars_eq_nil_iff : trimChars cs = [] ↔ ∀ c ∈ cs, isBlank c = true := by
  rw [trimChars_eq_iff]
  constructor
  · rintro ⟨⟨before, after, rfl, hbefore, hafter⟩, -, -⟩
    rw [List.append_nil]
    exact List.forall_mem_append.mpr ⟨hbefore, hafter⟩
  · intro h
    exact ⟨⟨cs, [], by simp, h, fun c hc => absurd hc List.not_mem_nil⟩, fun c hc => (by cases hc),
      fun c hc => (by cases hc)⟩

theorem trim_eq_empty_iff {s : String} : trim s = "" ↔ IsBlank s := by
  rw [IsBlank, ← trimChars_eq_nil_iff, trim, ← String.toList_inj, String.toList_ofList]
  rfl

theorem isBlank_trim_iff {s : String} : IsBlank (trim s) ↔ IsBlank s := by
  rw [← trim_eq_empty_iff, trim_trim, trim_eq_empty_iff]

/-! ## Lines -/

/-- `Cut cs ls`: the characters `cs` are cut into the lines `ls`. A line ends ahead of a line feed, or ahead of a carriage
return with a line feed behind it; what stands behind the last line feed is a line if it is not empty. -/
inductive Cut : List Char → List (List Char) → Prop where
  | nothing : Cut [] []
  | rest {l : List Char} : l ≠ [] → '\n' ∉ l → Cut l [l]
  | feed {l cs : List Char} {ls : List (List Char)} : '\n' ∉ l → l.getLast? ≠ some '\r' → Cut cs ls →
      Cut (l ++ '\n' :: cs) (l :: ls)
  | returnFeed {l cs : List Char} {ls : List (List Char)} : '\n' ∉ l → Cut cs ls →
      Cut (l ++ '\r' :: '\n' :: cs) (l :: ls)

theorem linesFrom_append {l : List Char} (h : '\n' ∉ l) (line cs : List Char) :
    linesFrom line (l ++ cs) = linesFrom (l.reverse ++ line) cs := by
  induction l generalizing line with
  | nil => rfl
  | cons c l ih =>
    rw [List.mem_cons, not_or] at h
    rw [List.cons_append, linesFrom, if_neg (fun hc => h.1 hc.symm), ih h.2, List.reverse_cons, List.append_assoc,
      List.singleton_append]

/-- A line with a line feed behind it. -/
theorem linesFrom_feed {l : List Char} (h : '\n' ∉ l) (cs : List Char) :
    linesFrom [] (l ++ '\n' :: cs) = dropReturn l :: linesFrom [] cs := by
  rw [linesFrom_append h, List.append_nil, linesFrom, if_pos rfl, List.reverse_reverse]

/-- A line with nothing behind it. -/
theorem linesFrom_rest {l : List Char} (h : '\n' ∉ l) : linesFrom [] l = if l.isEmpty then [] else [l] := by
  have hall := linesFrom_append h [] []
  rw [List.append_nil, List.append_nil] at hall
  rw [hall, linesFrom, List.isEmpty_reverse, List.reverse_reverse]

theorem dropReturn_concat (l : List Char) : dropReturn (l ++ ['\r']) = l := by
  rw [dropReturn, if_pos (List.getLast?_concat ..), List.dropLast_concat]

theorem linesFrom_of_cut {ls : List (List Char)} (h : Cut cs ls) : linesFrom [] cs = ls := by
  induction h with
  | nothing => rfl
  | rest hne hl => rw [linesFrom_rest hl, if_neg (by simpa using hne)]
  | feed hl hlast _ ih => rw [linesFrom_feed hl, ih, dropReturn, if_neg hlast]
  | @returnFeed l cs ls hl _ ih =>
    have hreturn : '\n' ∉ l ++ ['\r'] := by simpa using hl
    rw [← List.singleton_append (x := '\r'), ← List.append_assoc, linesFrom_feed hreturn, ih, dropReturn_concat]

theorem cut_linesFrom (cs : List Char) : Cut cs (linesFrom [] cs) := by
  by_cases hfeed : '\n' ∈ cs
  · obtain ⟨l, rest, rfl, hl⟩ := List.eq_append_cons_of_mem hfeed
    have hrest := cut_linesFrom rest
    rw [linesFrom_feed hl]
    by_cases hlast : l.getLast? = some '\r'
    · obtain ⟨front, rfl⟩ := List.getLast?_eq_some_iff.mp hlast
      rw [dropReturn_concat, List.append_assoc]
      exact .returnFeed (fun hmem => hl (List.mem_append_left _ hmem)) hrest
    · rw [dropReturn, if_neg hlast]
      exact .feed hl hlast hrest
  · cases cs with
    | nil => exact .nothing
    | cons c cs =>
      rw [linesFrom_rest hfeed]
      exact .rest (List.cons_ne_nil c cs) hfeed
termination_by cs.length

/-- The lines of a text are what it is cut into. -/
theorem cut_iff {s : String} {ls : List (List Char)} : Cut s.toList ls ↔ lines s = ls := by
  constructor
  · exact linesFrom_of_cut
  · rintro rfl
    exact cut_linesFrom s.toList

end TransitLink.Text
