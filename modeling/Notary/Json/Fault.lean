/-
What can be wrong with a JSON document.

A document is ill-formed, or it holds something else than what is expected at a place.

* `Found` — what stands at a place where something else was expected.
* `Fault.message` — the wording.
-/

import Notary.Text.Quoted

namespace Notary.Json

/-- What stands in the document. -/
inductive Found where
  | null
  | boolean (b : Bool)
  | integer (n : Int)
  | float (text : String)
  | text (s : String)
  | sequence
  | map
deriving DecidableEq, Repr

def Found.describe : Found → String
  | .null => "null"
  | .boolean b => s!"boolean `{b}`"
  | .integer n => s!"integer `{n}`"
  | .float t => s!"floating point `{t}`"
  | .text s => "string " ++ Text.Quoted.string s
  | .sequence => "sequence"
  | .map => "map"

/-- What the document ends in the middle of. -/
inductive Unfinished where
  | value
  | object
  | list
  | text
deriving DecidableEq, Repr

/-- Why a document is not accepted. -/
inductive Fault where
  | unfinished (what : Unfinished)
  | expectedValue
  | expectedWord
  | keyNotText
  | expectedColon
  | expectedCommaOrBrace
  | expectedCommaOrBracket
  | trailingComma
  | trailingCharacters
  | invalidNumber
  | numberOutOfRange
  | invalidEscape
  | unfinishedSurrogate
  | loneSurrogate
  | controlCharacter
  | invalidType (found : Found) (expected : String)
  | invalidLength (length : Nat) (expected : String)
  | missingField (name : String)
  | duplicateField (name : String)
  | unknownVariant (name : String) (known : List String)
deriving DecidableEq, Repr

/-- The names that are known, one of which was expected. -/
def oneOf : List String → String
  | [a] => s!"`{a}`"
  | [a, b] => s!"`{a}` or `{b}`"
  | names => "one of " ++ String.intercalate ", " (names.map fun n => s!"`{n}`")

def Fault.message : Fault → String
  | .unfinished .value => "EOF while parsing a value"
  | .unfinished .object => "EOF while parsing an object"
  | .unfinished .list => "EOF while parsing a list"
  | .unfinished .text => "EOF while parsing a string"
  | .expectedValue => "expected value"
  | .expectedWord => "expected ident"
  | .keyNotText => "key must be a string"
  | .expectedColon => "expected `:`"
  | .expectedCommaOrBrace => "expected `,` or `\x7d`"
  | .expectedCommaOrBracket => "expected `,` or `]`"
  | .trailingComma => "trailing comma"
  | .trailingCharacters => "trailing characters"
  | .invalidNumber => "invalid number"
  | .numberOutOfRange => "number out of range"
  | .invalidEscape => "invalid escape"
  | .unfinishedSurrogate => "unexpected end of hex escape"
  | .loneSurrogate => "lone leading surrogate in hex escape"
  | .controlCharacter => "control character (\\u0000-\\u001F) found while parsing a string"
  | .invalidType found expected => s!"invalid type: {found.describe}, expected {expected}"
  | .invalidLength length expected => s!"invalid length {length}, expected {expected}"
  | .missingField name => s!"missing field `{name}`"
  | .duplicateField name => s!"duplicate field `{name}`"
  | .unknownVariant name known => s!"unknown variant `{name}`, expected " ++ oneOf known

/-- Reads something from the front of a document. -/
abbrev Reader (α : Type) := List Char → Except Fault (α × List Char)

/-- The document behind white space. -/
def blank (cs : List Char) : List Char :=
  cs.dropWhile fun c => c = ' ' || c = '\n' || c = '\t' || c = '\r'

end Notary.Json
