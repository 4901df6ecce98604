/-
Values that are written in a shape are read again.

A value is written without white space, so a reader meets its first character at once, which tells a
value from the end of a list. What stands behind the value does not matter. Lists come back when
their items do, and structures when they are written with all required fields, in order.

* `Written` — what is written is read as the value, and starts like one.
* `written_text`, `written_boolean`, `written_variant`, `Written.nullable` — single values.
* `written_list` — lists of written items.
* `Fills`, `Fills.value`, `written_object` — structures, by the drafts between their fields.
-/

import Notary.Metadata.Document
import Notary.Proofs.Json.Text

namespace Notary.Metadata

open Json

/-- The characters with which texts, lists, objects and truth values start. -/
def opening : List Char := ['"', '[', '{', 't', 'f']

/-- What is written is read as the value, whatever stands behind it, and starts like a value. -/
structure Written {α : Type} (read : Reader α) (written : List Char) (a : α) : Prop where
  reads : ∀ rest, read (written ++ rest) = .ok (a, rest)
  opens : ∃ c ∈ opening, ∃ tail, written = c :: tail

variable {α : Type} {read : Reader α} {written : List Char} {a : α} {c : Char}

theorem blank_of_opening (opens : c ∈ opening) (cs : List Char) : blank (c :: cs) = c :: cs := by
  simp only [opening, List.mem_cons, List.not_mem_nil, or_false] at opens
  rcases opens with rfl | rfl | rfl | rfl | rfl <;> rfl

/-! ### Single values -/

theorem written_textAs (expected s : String) : Written (textAs expected) (writeText s) s where
  reads rest := by
    rw [writeText, List.cons_append, List.append_assoc, textAs, blank_of_opening (by decide)]
    exact readText_written s rest
  opens := ⟨'"', by decide, _, rfl⟩

theorem written_text (s : String) : Written text (writeText s) s := written_textAs _ s

theorem written_boolean (b : Bool) : Written boolean (writeBoolean b) b where
  reads rest := by cases b <;> rfl
  opens := by
    cases b with
    | false => exact ⟨'f', by decide, _, rfl⟩
    | true => exact ⟨'t', by decide, _, rfl⟩

/-- A name comes back as what it stands for. -/
theorem written_variant {names : List (String × α)} {name : String}
    (known : names.lookup name = some a) : Written (variant names) (writeText name) a where
  reads rest := by
    have read := (written_textAs "variant identifier" name).reads rest
    rw [writeText, List.cons_append] at read ⊢
    rw [variant, blank_of_opening (by decide)]
    simp only [if_true, variantName, read, known]
  opens := (written_text name).opens

/-- A value that can be nothing comes back when it is something. -/
theorem Written.nullable (w : Written read written a) :
    Written (nullable read) written (some a) where
  reads rest := by
    obtain ⟨c, opens, tail, rfl⟩ := w.opens
    have value := w.reads rest
    rw [List.cons_append] at value ⊢
    rw [Json.nullable, blank_of_opening opens]
    split
    · rename_i same
      cases same
      exact absurd opens (by decide)
    · rw [value, Except.map]
  opens := w.opens

/-! ### Items and what stands between them -/

/-- What stands in front of an item. -/
def comma (first : Bool) : List Char := if first then [] else [',']

/-- Items, each behind its comma. -/
def parts : Bool → List (List Char) → List Char
  | _, [] => []
  | first, w :: ws => comma first ++ (w ++ parts false ws)

theorem joined_eq (ws : List (List Char)) : joined ws = parts true ws := by
  induction ws with
  | nil => rfl
  | cons w ws ih =>
    cases ws with
    | nil => simp [joined, parts, comma]
    | cons next ws => simp [joined, ih, parts, comma]

theorem length_le_parts {ws : List (List Char)} (filled : ∀ w ∈ ws, w ≠ []) (first : Bool) :
    ws.length ≤ (parts first ws).length := by
  induction ws generalizing first with
  | nil => exact Nat.le_refl _
  | cons w ws ih =>
    rw [List.forall_mem_cons] at filled
    have some := List.length_pos_iff.mpr filled.1
    have more := ih filled.2 false
    simp only [parts, List.length_append, List.length_cons]
    omega

/-- The number of characters from the first item on bounds the number of items. -/
theorem length_lt_parts {ws : List (List Char)} (filled : ∀ w ∈ ws, w ≠ []) (rest : List Char) :
    ws.length < (parts true ws ++ rest).length + 1 := by
  have := length_le_parts filled true
  rw [List.length_append]
  omega

theorem Written.ne_nil (w : Written read written a) : written ≠ [] := by
  obtain ⟨c, -, tail, rfl⟩ := w.opens
  exact List.cons_ne_nil c tail

/-! ### Lists -/

theorem nextItem_written (first : Bool) (opens : c ∈ opening) (cs : List Char) :
    nextItem first (comma first ++ c :: cs) = .ok (true, c :: cs) := by
  have other : c ≠ ']' := by
    rintro rfl
    exact absurd opens (by decide)
  cases first with
  | true => simp [nextItem, comma, blank_of_opening opens, other]
  | false =>
    have visible : blank (',' :: c :: cs) = ',' :: c :: cs := rfl
    simp [nextItem, comma, blank_of_opening opens, other, visible]

/-- Items are read up to the end of their list. -/
theorem items_written {write : α → List Char} {as : List α}
    (ws : ∀ a ∈ as, Written read (write a) a) (first : Bool) {k : Nat} (enough : as.length < k)
    (rest : List Char) :
    items read k first (parts first (as.map write) ++ ']' :: rest) = .ok (as, ']' :: rest) := by
  induction as generalizing first k with
  | nil =>
    obtain ⟨k, rfl⟩ := Nat.exists_eq_add_one_of_ne_zero (Nat.ne_of_gt enough)
    rfl
  | cons a as ih =>
    obtain ⟨k, rfl⟩ := Nat.exists_eq_add_one_of_ne_zero (Nat.ne_of_gt (Nat.zero_lt_of_lt enough))
    rw [List.forall_mem_cons] at ws
    obtain ⟨c, opens, tail, start⟩ := ws.1.opens
    have next := nextItem_written first opens
      (tail ++ (parts false (as.map write) ++ ']' :: rest))
    have item := ws.1.reads (parts false (as.map write) ++ ']' :: rest)
    rw [start, List.cons_append] at item
    simp only [List.map_cons, parts, start, List.append_assoc, List.cons_append, items, next, item,
      ih ws.2 false (Nat.lt_of_succ_lt_succ enough), Except.map]

/-- A list comes back when each of its items does. -/
theorem written_list {write : α → List Char} {as : List α}
    (ws : ∀ a ∈ as, Written read (write a) a) :
    Written (list read) (writeList (as.map write)) as where
  reads rest := by
    have filled : ∀ w ∈ as.map write, w ≠ [] := by
      intro w member
      obtain ⟨a, listed, rfl⟩ := List.mem_map.mp member
      exact (ws a listed).ne_nil
    have enough := length_lt_parts filled (']' :: rest)
    rw [List.length_map] at enough
    have read := items_written ws true enough rest
    simp only [writeList, joined_eq, List.cons_append, List.append_assoc, List.nil_append, list,
      blank_of_opening (show '[' ∈ opening by decide), if_true, read]
    rfl
  opens := ⟨'[', by decide, _, rfl⟩

/-! ### Structures -/

/-- Of items with different names, the first one with the name of an item is that item. -/
theorem find?_of_nodup {name : α → String} {as : List α} (distinct : (as.map name).Nodup)
    (member : a ∈ as) : as.find? (fun b => name b == name a) = some a := by
  induction as with
  | nil => cases member
  | cons b as ih =>
    rw [List.map_cons, List.nodup_cons] at distinct
    rcases List.mem_cons.mp member with rfl | behind
    · exact List.find?_cons_of_pos (by simp)
    · have other : name b ≠ name a := fun same => distinct.1 (same ▸ List.mem_map_of_mem behind)
      rw [List.find?_cons_of_neg (by simpa using other)]
      exact ih distinct.2 behind

section Structures

variable {D M : Type} {s : Shape D M} {d d' : D} {m : M} {f : Json.Field D}

/-- Fields that are written one behind the other fill a draft. -/
inductive Fills : D → List (Json.Field D × List Char) → D → Prop where
  | done (d : D) : Fills d [] d
  | field {d d' d'' : D} {f : Json.Field D} {w : List Char}
      {entries : List (Json.Field D × List Char)}
      (unset : f.isSet d = false) (reads : ∀ rest, f.read d (w ++ rest) = .ok (d', rest))
      (later : Fills d' entries d'') : Fills d ((f, w) :: entries) d''

/-- A field with its value, under the field's name. -/
def named (entry : Json.Field D × List Char) : String × List Char := (entry.1.name, entry.2)

def writeEntry (entry : String × List Char) : List Char := writeText entry.1 ++ ':' :: entry.2

theorem nextKey_written (first : Bool) (cs : List Char) :
    Shape.nextKey first (comma first ++ '"' :: cs) = .ok (true, cs) := by
  cases first <;> rfl

/-- The value behind the name of a field goes into the draft. -/
theorem readEntry_written (distinct : (s.fields.map (·.name)).Nodup) (known : f ∈ s.fields)
    (unset : f.isSet d = false) {w rest : List Char}
    (reads : f.read d (w ++ rest) = .ok (d', rest)) :
    s.readEntry d f.name (':' :: (w ++ rest)) = .ok (d', rest) := by
  have found : s.fields.find? (·.name == f.name) = some f := find?_of_nodup distinct known
  have behind : colon (':' :: (w ++ rest)) = .ok (w ++ rest) := rfl
  simp only [Shape.readEntry, found, unset, behind, reads]
  rfl

/-- Entries are read up to the end of their object. -/
theorem readEntries_written (distinct : (s.fields.map (·.name)).Nodup)
    {entries : List (Json.Field D × List Char)} (known : ∀ e ∈ entries, e.1 ∈ s.fields)
    (fills : Fills d entries d') (first : Bool) {k : Nat} (enough : entries.length < k)
    (rest : List Char) :
    s.readEntries k first d
        (parts first (entries.map fun e => writeEntry (named e)) ++ '}' :: rest) =
      .ok (d', '}' :: rest) := by
  induction fills generalizing first k with
  | done d =>
    obtain ⟨k, rfl⟩ := Nat.exists_eq_add_one_of_ne_zero (Nat.ne_of_gt enough)
    rfl
  | @field d d' d'' f w entries unset reads later ih =>
    obtain ⟨k, rfl⟩ := Nat.exists_eq_add_one_of_ne_zero (Nat.ne_of_gt (Nat.zero_lt_of_lt enough))
    rw [List.forall_mem_cons] at known
    have value := reads (parts false (entries.map fun e => writeEntry (named e)) ++ '}' :: rest)
    have entry := readEntry_written distinct known.1 unset value
    have key := readText_written f.name (':' :: (w ++
      (parts false (entries.map fun e => writeEntry (named e)) ++ '}' :: rest)))
    have start : writeEntry (named (f, w)) =
        '"' :: (f.name.toList.flatMap writeChar ++ '"' :: ':' :: w) := by
      simp [writeEntry, named, writeText]
    simp only [List.map_cons, parts, start, List.append_assoc, List.cons_append,
      Shape.readEntries, nextKey_written, key, entry]
    exact ih known.2 false (Nat.lt_of_succ_lt_succ enough)

/-- A structure comes back when its fields are written in order and fill a complete draft. Optional
fields at the end may be left out. -/
theorem written_object {ws : List (List Char)} (distinct : (s.fields.map (·.name)).Nodup)
    (fills : Fills s.blank (s.fields.zip ws) d) (complete : s.complete d = .ok m) :
    Written s.read (writeObject ((s.fields.zip ws).map named)) m where
  reads rest := by
    have known : ∀ e ∈ s.fields.zip ws, e.1 ∈ s.fields := fun e member => (List.of_mem_zip member).1
    have filled : ∀ w ∈ (s.fields.zip ws).map fun e => writeEntry (named e), w ≠ [] := by
      intro w member
      obtain ⟨e, -, rfl⟩ := List.mem_map.mp member
      exact List.cons_ne_nil _ _
    have enough := length_lt_parts filled ('}' :: rest)
    rw [List.length_map] at enough
    have entries := readEntries_written distinct known fills true enough rest
    have start : ¬ '{' = '[' := by decide
    have written : writeObject ((s.fields.zip ws).map named) ++ rest = '{' ::
        (parts true ((s.fields.zip ws).map fun e => writeEntry (named e)) ++ '}' :: rest) := by
      rw [writeObject, joined_eq, List.map_map]
      simp [Function.comp_def, writeEntry]
    rw [written, Shape.read, blank_of_opening (by decide)]
    simp only [if_neg start, if_true, entries, complete]
    rfl
  opens := ⟨'{', by decide, _, rfl⟩

/-- A value that is read into the draft fills its field. -/
theorem Fills.value {α : Type} {read : Reader α} {set : D → α → D} {name : String}
    {required : Bool} {isSet : D → Bool} {w : List Char} {a : α}
    {entries : List (Json.Field D × List Char)} (unset : isSet d = false)
    (written : Written read w a) (later : Fills (set d a) entries d') :
    Fills d ((⟨name, required, isSet, into read set⟩, w) :: entries) d' := by
  have reads (rest : List Char) : into read set d (w ++ rest) = .ok (set d a, rest) := by
    rw [into, written.reads rest]
    rfl
  exact .field unset reads later

end Structures

end Notary.Metadata
