/-
White space: the characters with the Unicode property of that name.

* `trim` — a text without the blanks at its ends.
* `exists_ends`, `trim_of_solid` — only blanks are lost, and a text without blanks is found between
  them.
-/

namespace Notary.Text.Blank

/-- The ranges of code points that are white space, ends included. -/
def ranges : List (Nat × Nat) :=
  [(0x9, 0xD), (0x20, 0x20), (0x85, 0x85), (0xA0, 0xA0), (0x1680, 0x1680), (0x2000, 0x200A),
   (0x2028, 0x2029), (0x202F, 0x202F), (0x205F, 0x205F), (0x3000, 0x3000)]

def isBlank (c : Char) : Bool := ranges.any fun (lo, hi) => lo ≤ c.toNat && c.toNat ≤ hi

/-- The characters without the blanks at both ends. -/
def trim (cs : List Char) : List Char :=
  (((cs.dropWhile isBlank).reverse).dropWhile isBlank).reverse

theorem exists_ends (cs : List Char) : ∃ front back, cs = front ++ trim cs ++ back ∧
    (∀ c ∈ front, isBlank c = true) ∧ ∀ c ∈ back, isBlank c = true := by
  let rest := cs.dropWhile isBlank
  refine ⟨cs.takeWhile isBlank, (rest.reverse.takeWhile isBlank).reverse, ?_, ?_, ?_⟩
  · have shorter : trim cs ++ (rest.reverse.takeWhile isBlank).reverse = rest := by
      rw [trim, ← List.reverse_append, List.takeWhile_append_dropWhile, List.reverse_reverse]
    rw [List.append_assoc, shorter, List.takeWhile_append_dropWhile]
  · exact List.all_eq_true.mp List.all_takeWhile
  · intro c member
    exact List.all_eq_true.mp List.all_takeWhile c (List.mem_reverse.mp member)

theorem dropWhile_of_blank {front : List Char} (blank : ∀ c ∈ front, isBlank c = true)
    (cs : List Char) : (front ++ cs).dropWhile isBlank = cs.dropWhile isBlank :=
  List.dropWhile_append_of_pos blank

theorem dropWhile_of_solid {cs : List Char} (solid : ∀ c ∈ cs, isBlank c = false) :
    cs.dropWhile isBlank = cs := by
  cases cs with
  | nil => rfl
  | cons c cs => exact List.dropWhile_cons_of_neg (by simp [solid])

theorem trim_of_solid {front cs back : List Char} (before : ∀ c ∈ front, isBlank c = true)
    (solid : ∀ c ∈ cs, isBlank c = false) (after : ∀ c ∈ back, isBlank c = true) :
    trim (front ++ cs ++ back) = cs := by
  cases cs with
  | nil =>
    have blank : ∀ c ∈ front ++ back, isBlank c = true := by
      simpa [or_imp, forall_and] using And.intro before after
    have gone : (front ++ back).dropWhile isBlank = [] := by
      simpa using dropWhile_of_blank blank []
    simp [trim, gone]
  | cons c cs =>
    have first : (front ++ (c :: cs ++ back)).dropWhile isBlank = c :: cs ++ back := by
      rw [dropWhile_of_blank before, List.cons_append,
        List.dropWhile_cons_of_neg (by simp [solid])]
    have last : (c :: cs).reverse.dropWhile isBlank = (c :: cs).reverse :=
      dropWhile_of_solid fun d member => solid d (List.mem_reverse.mp member)
    rw [List.append_assoc, trim, first, List.reverse_append,
      dropWhile_of_blank (by simpa using after), last, List.reverse_reverse]

end Notary.Text.Blank
