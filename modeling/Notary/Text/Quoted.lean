/-
Quoted texts and characters, as messages show them.

Between the quotes, the quote itself and the backslash stand behind a backslash; tab, line feed,
carriage return and NUL have letters; characters that are hidden or that join the character before
them are shown by their code point.

* `string`, `char`, `list` — a text in double quotes, a character in single quotes, and a list of
  texts in brackets.
-/

import Notary.Text.Printable

namespace Notary.Text.Quoted

/-- The digits of a code point. -/
def codePoint (c : Char) : String :=
  "\\u\x7b" ++ String.ofList (Nat.toDigits 16 c.toNat) ++ "\x7d"

/-- One character between quotes of the given kind. -/
def escape (quote c : Char) : String :=
  if c = quote ∨ c = '\\' then String.ofList ['\\', c]
  else if c = '\t' then "\\t"
  else if c = '\n' then "\\n"
  else if c = '\r' then "\\r"
  else if c.toNat = 0 then "\\0"
  else if Printable.isExtender c ∨ Printable.isHidden c then codePoint c
  else String.ofList [c]

/-- A text in double quotes. -/
def string (s : String) : String := "\"" ++ String.join (s.toList.map (escape '"')) ++ "\""

/-- A character in single quotes. -/
def char (c : Char) : String := "'" ++ escape '\'' c ++ "'"

/-- A list of texts in brackets. -/
def list (xs : List String) : String := "[" ++ String.intercalate ", " (xs.map string) ++ "]"

end Notary.Text.Quoted
