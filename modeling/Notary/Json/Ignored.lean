/-
Passing over values that nothing is done with.

Such a value still has to be well-formed. Lists and objects may be nested without limit: those that
are open stand on a stack.

* `skipValue` — passes over one value.
-/

import Notary.Json.Number
import Notary.Json.Text

namespace Notary.Json

/-- Something that has been opened. -/
inductive Opened where
  | list
  | object
deriving DecidableEq, Repr

/-- The rest of a word whose first letter has been read. -/
def readWord : List Char → Reader Unit
  | [], cs => .ok ((), cs)
  | _ :: _, [] => .error (.unfinished .value)
  | w :: ws, c :: cs => if c = w then readWord ws cs else .error .expectedWord

/-- Where skipping stands after a value: behind the whole of it, or in front of another value within
what is still open. -/
inductive Place where
  | behind (rest : List Char)
  | within (opened : List Opened) (rest : List Char)

/-- Closes what ends here. A comma is wanted unless nothing stands in front of this place yet. -/
def closeAll : Bool → List Opened → List Char → Except Fault Place
  | _, [], cs => .ok (.behind cs)
  | comma, o :: outer, cs =>
    match blank cs, o with
    | [], .list => .error (.unfinished .list)
    | [], .object => .error (.unfinished .object)
    | c :: rest, o =>
      if c = ',' ∧ comma then .ok (.within (o :: outer) rest)
      else if (c = ']' ∧ o = .list) ∨ (c = '}' ∧ o = .object) then closeAll true outer rest
      else if comma then
        match o with
        | .list => .error .expectedCommaOrBracket
        | .object => .error .expectedCommaOrBrace
      else .ok (.within (o :: outer) (c :: rest))

/-- Passes over a key and its colon, within an object. -/
def skipKey (opened : List Opened) (cs : List Char) : Except Fault (List Char) :=
  match opened with
  | .object :: _ =>
    match blank cs with
    | [] => .error (.unfinished .object)
    | c :: rest =>
      if c = '"' then
        match skipText rest with
        | .error e => .error e
        | .ok (_, rest) =>
          match blank rest with
          | [] => .error (.unfinished .object)
          | c :: rest => if c = ':' then .ok rest else .error .expectedColon
      else .error .keyNotText
  | _ => .ok cs

/-- Passes over a value that is neither list nor object and starts with the given character. -/
def skipScalar (c : Char) (rest : List Char) : Except Fault (List Char) :=
  if c = 'n' then (readWord ['u', 'l', 'l'] rest).map (·.2)
  else if c = 't' then (readWord ['r', 'u', 'e'] rest).map (·.2)
  else if c = 'f' then (readWord ['a', 'l', 's', 'e'] rest).map (·.2)
  else if c = '-' then (skipNumber rest).map (·.2)
  else if isDigit c then (skipNumber (c :: rest)).map (·.2)
  else if c = '"' then (skipText rest).map (·.2)
  else .error .expectedValue

/-- Passes over values until nothing is open. Every step takes a character. -/
def skipWithin : Nat → List Opened → List Char → Except Fault (List Char)
  | 0, _, _ => .error (.unfinished .value)
  | k + 1, opened, cs =>
    match blank cs with
    | [] => .error (.unfinished .value)
    | c :: rest =>
      let place :=
        if c = '[' then closeAll false (.list :: opened) rest
        else if c = '{' then closeAll false (.object :: opened) rest
        else match skipScalar c rest with
          | .error e => .error e
          | .ok rest => closeAll true opened rest
      match place with
      | .error e => .error e
      | .ok (.behind rest) => .ok rest
      | .ok (.within opened rest) =>
        match skipKey opened rest with
        | .error e => .error e
        | .ok rest => skipWithin k opened rest

/-- Passes over one value. -/
def skipValue : Reader Unit := fun cs =>
  (skipWithin (cs.length + 1) [] cs).map fun rest => ((), rest)

end Notary.Json
