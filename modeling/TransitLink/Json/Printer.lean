import TransitLink.Json.Number
import TransitLink.Text.Quoted

/-!
# Writing JSON text

* `Json.compact` : the text of a value without blanks.
* `Json.pretty` : the text of a value over several lines, two blanks for each level.

In a string only the quote, the backslash and the controls below U+0020 are escaped.
-/

namespace TransitLink.Json

set_option autoImplicit false

def unicodeEscape (n : Nat) : String :=
  "\\u00" ++ (if n < 16 then "0" else "") ++ Text.hexadecimal n

def charText (c : Char) : String :=
  if c = '"' then "\\\""
  else if c = '\\' then "\\\\"
  else if c.toNat = 0x08 then "\\b"
  else if c.toNat = 0x0c then "\\f"
  else if c = '\n' then "\\n"
  else if c = '\r' then "\\r"
  else if c = '\t' then "\\t"
  else if c.toNat < 0x20 then unicodeEscape c.toNat
  else c.toString

def stringText (s : String) : String := "\"" ++ String.join (s.toList.map charText) ++ "\""

/-- The text of a value that holds no others. -/
def leafText : Json → String
  | .null => "null"
  | .bool b => if b then "true" else "false"
  | .int n => toString n
  | .float x => floatText x
  | .str s => stringText s
  | .arr _ => ""
  | .obj _ => ""

/-! ## Compact -/

mutual

def compact : Json → String
  | .arr items => "[" ++ compactItems items ++ "]"
  | .obj ms => "\x7b" ++ compactMembers ms ++ "\x7d"
  | j => leafText j

def compactItems : List Json → String
  | [] => ""
  | [j] => compact j
  | j :: js => compact j ++ "," ++ compactItems js

def compactMembers : List (String × Json) → String
  | [] => ""
  | [(k, j)] => stringText k ++ ":" ++ compact j
  | (k, j) :: ms => stringText k ++ ":" ++ compact j ++ "," ++ compactMembers ms

end

def toBytes (j : Json) : Bytes := Bytes.ofText j.compact

/-! ## Pretty -/

/-- A line break and the blanks of a level. -/
def newLine (level : Nat) : String := "\n" ++ String.ofList (List.replicate (2 * level) ' ')

mutual

/-- The text of a value that begins on a line of this level. -/
def prettyAt (level : Nat) : Json → String
  | .arr [] => "[]"
  | .arr items => "[" ++ prettyItems (level + 1) items ++ newLine level ++ "]"
  | .obj [] => "\x7b\x7d"
  | .obj ms => "\x7b" ++ prettyMembers (level + 1) ms ++ newLine level ++ "\x7d"
  | j => leafText j

def prettyItems (level : Nat) : List Json → String
  | [] => ""
  | [j] => newLine level ++ prettyAt level j
  | j :: js => newLine level ++ prettyAt level j ++ "," ++ prettyItems level js

def prettyMembers (level : Nat) : List (String × Json) → String
  | [] => ""
  | [(k, j)] => newLine level ++ stringText k ++ ": " ++ prettyAt level j
  | (k, j) :: ms => newLine level ++ stringText k ++ ": " ++ prettyAt level j ++ "," ++ prettyMembers level ms

end

def pretty (j : Json) : String := prettyAt 0 j

end TransitLink.Json
