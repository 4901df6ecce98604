/-
Texts in JSON documents.

A text stands in double quotes. Control characters, the quote and the backslash are written as
escapes; characters above the basic plane may be written as a pair of escapes.

* `readText`, `skipText` — the text whose opening quote has been read, kept or passed over.
* `writeText` — a text with as few escapes as possible.
-/

import Notary.Json.Fault
import Notary.Text.Hex

namespace Notary.Json

/-- Four hexadecimal digits. A document with fewer than four bytes left is at its end. -/
def readHex : Reader Nat := fun cs =>
  match cs with
  | a :: b :: c :: d :: rest =>
    match Text.Hex.value? a, Text.Hex.value? b, Text.Hex.value? c, Text.Hex.value? d with
    | some a, some b, some c, some d => .ok (((a * 16 + b) * 16 + c) * 16 + d, rest)
    | _, _, _, _ => .error .invalidEscape
  | short =>
    if (short.map Char.utf8Size).sum < 4 then .error (.unfinished .text) else .error .invalidEscape

/-- The character of a letter behind a backslash. -/
def escapeLetter? (c : Char) : Option Char :=
  if c = '"' ∨ c = '\\' ∨ c = '/' then some c
  else if c = 'b' then some '\x08'
  else if c = 'f' then some '\x0c'
  else if c = 'n' then some '\n'
  else if c = 'r' then some '\r'
  else if c = 't' then some '\t'
  else none

/-- The second half of a pair of escapes, which must follow the first half at once. -/
def readSecondHalf (first : Nat) : Reader Char := fun cs =>
  match cs with
  | [] => .error (.unfinished .text)
  | c :: rest =>
    if c ≠ '\\' then .error .unfinishedSurrogate
    else match rest with
      | [] => .error (.unfinished .text)
      | u :: rest =>
        if u ≠ 'u' then .error .unfinishedSurrogate
        else match readHex rest with
          | .error e => .error e
          | .ok (second, rest) =>
            if 0xdc00 ≤ second ∧ second ≤ 0xdfff then
              .ok (Char.ofNat ((first - 0xd800) * 1024 + (second - 0xdc00) + 0x10000), rest)
            else .error .loneSurrogate

/-- The character of an escape whose backslash has been read. -/
def readEscape : Reader Char := fun cs =>
  match cs with
  | [] => .error (.unfinished .text)
  | c :: rest =>
    if c = 'u' then
      match readHex rest with
      | .error e => .error e
      | .ok (n, rest) =>
        if 0xdc00 ≤ n ∧ n ≤ 0xdfff then .error .loneSurrogate
        else if 0xd800 ≤ n ∧ n ≤ 0xdbff then readSecondHalf n rest
        else .ok (Char.ofNat n, rest)
    else match escapeLetter? c with
      | some d => .ok (d, rest)
      | none => .error .invalidEscape

/-- The characters up to the closing quote. Each takes one character at least, so the length of the
document bounds their number. -/
def readChars : Nat → Reader (List Char)
  | 0, _ => .error (.unfinished .text)
  | _ + 1, [] => .error (.unfinished .text)
  | k + 1, c :: rest =>
    if c = '"' then .ok ([], rest)
    else if c = '\\' then
      match readEscape rest with
      | .error e => .error e
      | .ok (d, rest) => (readChars k rest).map fun (ds, rest) => (d :: ds, rest)
    else if c.toNat < 0x20 then .error .controlCharacter
    else (readChars k rest).map fun (ds, rest) => (c :: ds, rest)

/-- The text whose opening quote has been read. -/
def readText : Reader String := fun cs =>
  (readChars (cs.length + 1) cs).map fun (ds, rest) => (String.ofList ds, rest)

/-- Passes over a text. Halves of pairs need not fit here. -/
def skipChars : Nat → Reader Unit
  | 0, _ => .error (.unfinished .text)
  | _ + 1, [] => .error (.unfinished .text)
  | k + 1, c :: rest =>
    if c = '"' then .ok ((), rest)
    else if c = '\\' then
      match rest with
      | [] => .error (.unfinished .text)
      | d :: rest =>
        if d = 'u' then
          match readHex rest with
          | .error e => .error e
          | .ok (_, rest) => skipChars k rest
        else if (escapeLetter? d).isSome then skipChars k rest
        else .error .invalidEscape
    else if c.toNat < 0x20 then .error .controlCharacter
    else skipChars k rest

/-- Passes over the text whose opening quote has been read. -/
def skipText : Reader Unit := fun cs => skipChars (cs.length + 1) cs

/-- The hexadecimal digit of a number below sixteen. -/
def hexChar (n : Nat) : Char := if n < 10 then Char.ofNat (48 + n) else Char.ofNat (87 + n)

/-- How a character is written within quotes. -/
def writeChar (c : Char) : List Char :=
  if c = '"' then ['\\', '"']
  else if c = '\\' then ['\\', '\\']
  else if c = '\x08' then ['\\', 'b']
  else if c = '\x0c' then ['\\', 'f']
  else if c = '\n' then ['\\', 'n']
  else if c = '\r' then ['\\', 'r']
  else if c = '\t' then ['\\', 't']
  else if c.toNat < 0x20 then ['\\', 'u', '0', '0', hexChar (c.toNat / 16), hexChar (c.toNat % 16)]
  else [c]

/-- A text in quotes. -/
def writeText (s : String) : List Char := '"' :: (s.toList.flatMap writeChar ++ ['"'])

end Notary.Json
