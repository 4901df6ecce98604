/-
Reading values of a known shape.

Where a value of another shape stands, it is named in the fault. A structure is written as an object
with its fields in any order, unknown ones ignored, or as the list of its fields.

* `text`, `boolean`, `list`, `nullable`, `variant`, `Shape.read` — readers of the shapes.
* `document` — a value with nothing but white space behind it.
-/

import Notary.Json.Ignored

namespace Notary.Json

/-- The fault that a value of another shape is, unless it is ill-formed itself. -/
def wrongType (expected : String) (c : Char) (rest : List Char) : Fault :=
  let word (w : List Char) (found : Found) : Fault :=
    match readWord w rest with
    | .error e => e
    | .ok _ => .invalidType found expected
  let number (r : Except Fault (Found × List Char)) : Fault :=
    match r with
    | .error e => e
    | .ok (found, _) => .invalidType found expected
  if c = 'n' then word ['u', 'l', 'l'] .null
  else if c = 't' then word ['r', 'u', 'e'] (.boolean true)
  else if c = 'f' then word ['a', 'l', 's', 'e'] (.boolean false)
  else if c = '-' then number (readNumber false rest)
  else if isDigit c then number (readNumber true (c :: rest))
  else if c = '"' then
    match readText rest with
    | .error e => e
    | .ok (s, _) => .invalidType (.text s) expected
  else if c = '[' then .invalidType .sequence expected
  else if c = '{' then .invalidType .map expected
  else .expectedValue

/-- A text, named in a fault as what is expected. -/
def textAs (expected : String) : Reader String := fun cs =>
  match blank cs with
  | [] => .error (.unfinished .value)
  | c :: rest => if c = '"' then readText rest else .error (wrongType expected c rest)

/-- A text. -/
def text : Reader String := textAs "a string"

/-- A truth value. -/
def boolean : Reader Bool := fun cs =>
  match blank cs with
  | [] => .error (.unfinished .value)
  | c :: rest =>
    if c = 't' then (readWord ['r', 'u', 'e'] rest).map fun (_, rest) => (true, rest)
    else if c = 'f' then (readWord ['a', 'l', 's', 'e'] rest).map fun (_, rest) => (false, rest)
    else .error (wrongType "a boolean" c rest)

/-- The word for nothing. -/
def unit : Reader Unit := fun cs =>
  match blank cs with
  | [] => .error (.unfinished .value)
  | c :: rest =>
    if c = 'n' then readWord ['u', 'l', 'l'] rest else .error (wrongType "unit" c rest)

/-- A value or the word for nothing. -/
def nullable {α : Type} (read : Reader α) : Reader (Option α) := fun cs =>
  match blank cs with
  | 'n' :: rest => (readWord ['u', 'l', 'l'] rest).map fun (_, rest) => (none, rest)
  | cs => (read cs).map fun (a, rest) => (some a, rest)

/-- Whether another item of a list follows, and the document in front of it. -/
def nextItem (first : Bool) (cs : List Char) : Except Fault (Bool × List Char) :=
  match blank cs with
  | [] => .error (.unfinished .list)
  | c :: rest =>
    if c = ']' then .ok (false, c :: rest)
    else if first then .ok (true, c :: rest)
    else if c = ',' then
      match blank rest with
      | [] => .error (.unfinished .value)
      | c :: rest => if c = ']' then .error .trailingComma else .ok (true, c :: rest)
    else .error .expectedCommaOrBracket

/-- The end of a list. -/
def endList (cs : List Char) : Except Fault (List Char) :=
  match blank cs with
  | [] => .error (.unfinished .list)
  | c :: rest =>
    if c = ']' then .ok rest
    else if c = ',' then
      match blank rest with
      | ']' :: _ => .error .trailingComma
      | _ => .error .trailingCharacters
    else .error .trailingCharacters

/-- The items of a list. Every item takes a character. -/
def items {α : Type} (read : Reader α) : Nat → Bool → Reader (List α)
  | 0, _, _ => .error (.unfinished .list)
  | k + 1, first, cs =>
    match nextItem first cs with
    | .error e => .error e
    | .ok (false, rest) => .ok ([], rest)
    | .ok (true, rest) =>
      match read rest with
      | .error e => .error e
      | .ok (a, rest) => (items read k false rest).map fun (as, rest) => (a :: as, rest)

/-- A list of values. -/
def list {α : Type} (read : Reader α) : Reader (List α) := fun cs =>
  match blank cs with
  | [] => .error (.unfinished .value)
  | c :: rest =>
    if c = '[' then
      match items read (rest.length + 1) true rest with
      | .error e => .error e
      | .ok (as, rest) => (endList rest).map fun rest => (as, rest)
    else .error (wrongType "a sequence" c rest)

/-- The colon behind a key. -/
def colon (cs : List Char) : Except Fault (List Char) :=
  match blank cs with
  | [] => .error (.unfinished .object)
  | c :: rest => if c = ':' then .ok rest else .error .expectedColon

/-- The name of one of several things. -/
def variantName {α : Type} (names : List (String × α)) : Reader α := fun cs =>
  match textAs "variant identifier" cs with
  | .error e => .error e
  | .ok (s, rest) =>
    match names.lookup s with
    | some a => .ok (a, rest)
    | none => .error (.unknownVariant s (names.map (·.1)))

/-- The key of an object that is a name. -/
def variantKey {α : Type} (names : List (String × α)) : Reader α := fun cs =>
  match blank cs with
  | [] => .error (.unfinished .object)
  | c :: rest =>
    if c = '"' then variantName names (c :: rest)
    else if c = '}' then .error .expectedValue
    else .error .keyNotText

/-- One of several names without content: the name as a text, or an object with the name as its only
key and nothing as value. -/
def variant {α : Type} (names : List (String × α)) : Reader α := fun cs =>
  match blank cs with
  | [] => .error (.unfinished .value)
  | c :: rest =>
    if c = '"' then variantName names (c :: rest)
    else if c = '{' then
      match variantKey names rest with
      | .error e => .error e
      | .ok (a, rest) =>
        match colon rest with
        | .error e => .error e
        | .ok rest =>
          match unit rest with
          | .error e => .error e
          | .ok (_, rest) =>
            match blank rest with
            | [] => .error (.unfinished .object)
            | c :: rest => if c = '}' then .ok (a, rest) else .error .expectedValue
    else .error .expectedValue

/-- A field of a structure that is read into a draft of type `D`. -/
structure Field (D : Type) where
  name : String
  /-- The field must be there. -/
  required : Bool
  /-- The draft has the field already. -/
  isSet : D → Bool
  read : D → Reader D

/-- A structure: its name, the draft without fields, its fields in order, and what becomes of a
draft with all required fields. -/
structure Shape (D M : Type) where
  name : String
  blank : D
  fields : List (Field D)
  finish : D → M

namespace Shape

variable {D M : Type}

/-- How a structure is named where something else stands. -/
def expected (s : Shape D M) : String := s!"struct {s.name}"

/-- Whether another key of an object follows, and the document behind its opening quote. -/
def nextKey (first : Bool) (cs : List Char) : Except Fault (Bool × List Char) :=
  match Json.blank cs with
  | [] => .error (.unfinished .object)
  | c :: rest =>
    if c = '}' then .ok (false, c :: rest)
    else if first then
      if c = '"' then .ok (true, rest) else .error .keyNotText
    else if c = ',' then
      match Json.blank rest with
      | [] => .error (.unfinished .value)
      | c :: rest =>
        if c = '"' then .ok (true, rest)
        else if c = '}' then .error .trailingComma
        else .error .keyNotText
    else .error .expectedCommaOrBrace

/-- The value behind a key. -/
def readEntry (s : Shape D M) (d : D) (key : String) : Reader D := fun cs =>
  match s.fields.find? (·.name == key) with
  | some f =>
    if f.isSet d then .error (.duplicateField f.name)
    else match colon cs with
      | .error e => .error e
      | .ok rest => f.read d rest
  | none =>
    match colon cs with
    | .error e => .error e
    | .ok rest => (skipValue rest).map fun (_, rest) => (d, rest)

/-- The entries of an object. Every entry takes a character. -/
def readEntries (s : Shape D M) : Nat → Bool → D → Reader D
  | 0, _, _, _ => .error (.unfinished .object)
  | k + 1, first, d, cs =>
    match nextKey first cs with
    | .error e => .error e
    | .ok (false, rest) => .ok (d, rest)
    | .ok (true, rest) =>
      match readText rest with
      | .error e => .error e
      | .ok (key, rest) =>
        match s.readEntry d key rest with
        | .error e => .error e
        | .ok (d, rest) => readEntries s k false d rest

/-- The fields of a list, of which `seen` have been read. -/
def readPositions (s : Shape D M) : List (Field D) → Nat → D → Reader D
  | [], _, d, cs => .ok (d, cs)
  | f :: fs, seen, d, cs =>
    match nextItem (seen == 0) cs with
    | .error e => .error e
    | .ok (true, rest) =>
      match f.read d rest with
      | .error e => .error e
      | .ok (d, rest) => readPositions s fs (seen + 1) d rest
    | .ok (false, rest) =>
      if f.required then
        .error (.invalidLength seen s!"{s.expected} with {s.fields.length} elements")
      else readPositions s fs seen d rest

/-- A draft with all required fields is finished; else the first one that is missing is reported. -/
def complete (s : Shape D M) (d : D) : Except Fault M :=
  match s.fields.find? fun f => f.required && !f.isSet d with
  | some f => .error (.missingField f.name)
  | none => .ok (s.finish d)

/-- A structure as an object or as a list. -/
def read (s : Shape D M) : Reader M := fun cs =>
  match Json.blank cs with
  | [] => .error (.unfinished .value)
  | c :: rest =>
    if c = '[' then
      match s.readPositions s.fields 0 s.blank rest with
      | .error e => .error e
      | .ok (d, rest) => (endList rest).map fun rest => (s.finish d, rest)
    else if c = '{' then
      match s.readEntries (rest.length + 1) true s.blank rest with
      | .error e => .error e
      | .ok (d, rest) =>
        match s.complete d with
        | .error e => .error e
        | .ok m =>
          match Json.blank rest with
          | [] => .error (.unfinished .object)
          | c :: rest => if c = '}' then .ok (m, rest) else .error .trailingCharacters
    else .error (wrongType s.expected c rest)

end Shape

/-- A value with nothing but white space behind it. -/
def document {α : Type} (read : Reader α) (s : String) : Except Fault α :=
  match read s.toList with
  | .error e => .error e
  | .ok (a, rest) => if (blank rest).isEmpty then .ok a else .error .trailingCharacters

end Notary.Json
