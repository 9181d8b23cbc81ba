import TransitLink.Text.Quoted

/-!
# What can be wrong with a JSON text

* `Json.Fault` : the first fault that a reader meets.
* `Json.Found` : what stood where a value of another kind was wanted.
* `Json.Fault.message` : the fault in words.
-/

namespace TransitLink.Json

set_option autoImplicit false

/-- A value of the wrong kind, as far as a message shows it. Numbers come with their text. -/
inductive Found where
  | null
  | boolean (b : Bool)
  | integer (n : Int)
  | float (text : String)
  | string (s : String)
  | sequence
  | map
deriving DecidableEq

/-- A fault of syntax, or a value that does not fit what was wanted. -/
inductive Fault where
  | endInValue
  | endInList
  | endInObject
  | endInString
  | expectedColon
  | expectedListCommaOrEnd
  | expectedObjectCommaOrEnd
  | expectedIdent
  | expectedValue
  | invalidEscape
  | invalidNumber
  | numberOutOfRange
  | invalidCodePoint
  | controlCharacter
  | keyMustBeString
  | loneSurrogate
  | endOfHexEscape
  | trailingComma
  | trailingCharacters
  | recursionLimit
  | invalidType (found : Found) (wanted : String)
  | invalidValue (n : Int) (wanted : String)
  | invalidLength (n : Nat) (wanted : String)
  | missingField (name : String)
  | duplicateField (name : String)
  | unknownVariant (name : String) (known : List String)
deriving DecidableEq

def backquoted (s : String) : String := "`" ++ s ++ "`"

def Found.words : Found → String
  | null => "null"
  | boolean b => "boolean " ++ backquoted (if b then "true" else "false")
  | integer n => "integer " ++ backquoted (toString n)
  | float text => "floating point " ++ backquoted text
  | string s => "string " ++ Text.quoted s
  | sequence => "sequence"
  | map => "map"

def Fault.message : Fault → String
  | endInValue => "EOF while parsing a value"
  | endInList => "EOF while parsing a list"
  | endInObject => "EOF while parsing an object"
  | endInString => "EOF while parsing a string"
  | expectedColon => "expected " ++ backquoted ":"
  | expectedListCommaOrEnd => "expected " ++ backquoted "," ++ " or " ++ backquoted "]"
  | expectedObjectCommaOrEnd => "expected " ++ backquoted "," ++ " or " ++ backquoted "\x7d"
  | expectedIdent => "expected ident"
  | expectedValue => "expected value"
  | invalidEscape => "invalid escape"
  | invalidNumber => "invalid number"
  | numberOutOfRange => "number out of range"
  | invalidCodePoint => "invalid unicode code point"
  | controlCharacter => "control character (\\u0000-\\u001F) found while parsing a string"
  | keyMustBeString => "key must be a string"
  | loneSurrogate => "lone leading surrogate in hex escape"
  | endOfHexEscape => "unexpected end of hex escape"
  | trailingComma => "trailing comma"
  | trailingCharacters => "trailing characters"
  | recursionLimit => "recursion limit exceeded"
  | invalidType found wanted => "invalid type: " ++ found.words ++ ", expected " ++ wanted
  | invalidValue n wanted => "invalid value: integer " ++ backquoted (toString n) ++ ", expected " ++ wanted
  | invalidLength n wanted => "invalid length " ++ toString n ++ ", expected " ++ wanted
  | missingField name => "missing field " ++ backquoted name
  | duplicateField name => "duplicate field " ++ backquoted name
  | unknownVariant name known =>
    "unknown variant " ++ backquoted name ++ ", expected one of " ++ String.intercalate ", " (known.map backquoted)

end TransitLink.Json
