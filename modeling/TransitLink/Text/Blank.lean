/-!
# Blank characters

* `isBlank` : the twenty-five characters with the Unicode property White_Space.
* `trim` : a text without the blanks at its two ends.
* `lines` : a text cut at its line feeds, one carriage return before a line feed being part of the cut.
-/

namespace TransitLink.Text

set_option autoImplicit false

/-- White_Space in Unicode: the ASCII blanks U+0009 to U+000D and U+0020, and nineteen others. -/
def isBlank (c : Char) : Bool :=
  let n := c.toNat
  (0x09 ≤ n && n ≤ 0x0d) || n == 0x20 || n == 0x85 || n == 0xa0 || n == 0x1680 || (0x2000 ≤ n && n ≤ 0x200a) ||
    n == 0x2028 || n == 0x2029 || n == 0x202f || n == 0x205f || n == 0x3000

def trimChars (cs : List Char) : List Char := ((cs.dropWhile isBlank).reverse.dropWhile isBlank).reverse

def trim (s : String) : String := String.ofList (trimChars s.toList)

/-- A line that stood before a line feed, without the carriage return that may end it. -/
def dropReturn (cs : List Char) : List Char := if cs.getLast? = some '\r' then cs.dropLast else cs

/-- The lines of a text, `line` being the characters of the current one, last first. What follows the last line feed is
a line only if it holds a character, and keeps its carriage return. -/
def linesFrom (line : List Char) : List Char → List (List Char)
  | [] => if line.isEmpty then [] else [line.reverse]
  | c :: cs => if c = '\n' then dropReturn line.reverse :: linesFrom [] cs else linesFrom (c :: line) cs

def lines (s : String) : List (List Char) := linesFrom [] s.toList

end TransitLink.Text
