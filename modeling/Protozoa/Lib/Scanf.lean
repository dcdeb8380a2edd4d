import Mathlib.Data.List.Basic

/-!
# Formatted input

`sscanf` as a list of conversions, each of which takes a value from the front of the input. The
first that does not match ends it; the values before it are those that have been converted.

* `decimal` is `%d` with any number of digits, `word n` is `%ns`; both skip white space (`isSpace`)
  first.
* `decimal_digits`, `decimal_minus`, `decimal_plus`: a number is taken up to the first character
  that is no digit, with its sign.

Out of scope: numbers beyond the type they are stored in, for which C promises nothing, and every
other conversion.
-/

namespace Lib.Scanf

/-- A value from the front of the input and what is left, or no match. -/
abbrev Conversion (α : Type) := List Char → Option (α × List Char)

/-- The values of the conversions before the first that does not match. -/
def sscanf {α : Type} : List (Conversion α) → List Char → List α
  | [], _ => []
  | c :: cs, s =>
    match c s with
    | some (v, rest) => v :: sscanf cs rest
    | none => []

/-- `isspace`. -/
def isSpace (c : Char) : Bool := [' ', '\t', '\n', '\x0b', '\x0c', '\r'].contains c

def skipSpace (s : List Char) : List Char := s.dropWhile isSpace

/-- The number that digits stand for. -/
def value (digits : List Char) : Nat := digits.foldl (fun n c => 10 * n + (c.toNat - '0'.toNat)) 0

/-- The optional sign of a number, and what follows it. -/
def takeSign : List Char → Bool × List Char
  | '-' :: s => (true, s)
  | '+' :: s => (false, s)
  | s => (false, s)

/-- `%d`. -/
def decimal : Conversion Int := fun s =>
  let (minus, s) := takeSign (skipSpace s)
  let digits := s.takeWhile Char.isDigit
  if digits = [] then none
  else some (if minus then -(value digits : Int) else value digits, s.dropWhile Char.isDigit)

/-- `%ns`. -/
def word (n : Nat) : Conversion (List Char) := fun s =>
  let s := skipSpace s
  let w := (s.takeWhile fun c => !isSpace c).take n
  if w = [] then none else some (w, s.drop w.length)

/-! ## Numbers -/

/-- A text of digits. -/
def Digits (s : List Char) : Prop := s ≠ [] ∧ ∀ c ∈ s, c.isDigit = true

variable {s rest : List Char}

theorem digits_of_all (hne : s ≠ []) (h : s.all Char.isDigit = true) : Digits s :=
  ⟨hne, List.all_eq_true.mp h⟩

/-- A digit is no blank and no sign. -/
theorem isDigit_spec {c : Char} (h : c.isDigit = true) : isSpace c = false ∧ c ≠ '-' ∧ c ≠ '+' := by
  have hne : ∀ d : Char, d.isDigit = false → c ≠ d := by
    rintro d hd rfl
    rw [h] at hd
    cases hd
  refine ⟨?_, hne '-' rfl, hne '+' rfl⟩
  simp [isSpace, hne ' ' rfl, hne '\t' rfl, hne '\n' rfl, hne '\x0b' rfl, hne '\x0c' rfl, hne '\r' rfl]

theorem Digits.takeWhile (h : Digits s) (hrest : ∀ c ∈ rest.head?, c.isDigit = false) :
    (s ++ rest).takeWhile Char.isDigit = s ∧ (s ++ rest).dropWhile Char.isDigit = rest := by
  rw [List.takeWhile_append_of_pos h.2, List.dropWhile_append_of_pos h.2]
  cases rest with
  | nil => exact ⟨List.append_nil s, rfl⟩
  | cons c rest =>
    have hc : ¬c.isDigit = true := Bool.eq_false_iff.mp (hrest c rfl)
    rw [List.takeWhile_cons_of_neg hc, List.dropWhile_cons_of_neg hc]
    exact ⟨List.append_nil s, rfl⟩

theorem Digits.skipSpace (h : Digits s) (rest : List Char) : skipSpace (s ++ rest) = s ++ rest := by
  obtain ⟨hne, hall⟩ := h
  cases s with
  | nil => exact absurd rfl hne
  | cons c s => exact List.dropWhile_cons_of_neg (Bool.eq_false_iff.mp (isDigit_spec (hall c List.mem_cons_self)).1)

theorem Digits.takeSign (h : Digits s) (rest : List Char) : takeSign (s ++ rest) = (false, s ++ rest) := by
  obtain ⟨hne, hall⟩ := h
  cases s with
  | nil => exact absurd rfl hne
  | cons c s =>
    obtain ⟨-, hminus, hplus⟩ := isDigit_spec (hall c List.mem_cons_self)
    unfold Scanf.takeSign
    split
    · rename_i heq
      exact absurd (List.cons.inj heq).1 hminus
    · rename_i heq
      exact absurd (List.cons.inj heq).1 hplus
    · rfl

/-- **A number without a sign**. -/
theorem decimal_digits (h : Digits s) (hrest : ∀ c ∈ rest.head?, c.isDigit = false) :
    decimal (s ++ rest) = some ((value s : Int), rest) := by
  obtain ⟨htake, hdrop⟩ := h.takeWhile hrest
  simp only [decimal, h.skipSpace, h.takeSign, htake, hdrop, if_neg h.1]
  rfl

/-- **A negative number**. -/
theorem decimal_minus (h : Digits s) (hrest : ∀ c ∈ rest.head?, c.isDigit = false) :
    decimal ('-' :: (s ++ rest)) = some (-(value s : Int), rest) := by
  obtain ⟨htake, hdrop⟩ := h.takeWhile hrest
  have hskip : skipSpace ('-' :: (s ++ rest)) = '-' :: (s ++ rest) := rfl
  simp only [decimal, hskip, takeSign, htake, hdrop, if_neg h.1]
  rfl

/-- A number with a plus sign. -/
theorem decimal_plus (h : Digits s) (hrest : ∀ c ∈ rest.head?, c.isDigit = false) :
    decimal ('+' :: (s ++ rest)) = some ((value s : Int), rest) := by
  obtain ⟨htake, hdrop⟩ := h.takeWhile hrest
  have hskip : skipSpace ('+' :: (s ++ rest)) = '+' :: (s ++ rest) := rfl
  simp only [decimal, hskip, takeSign, htake, hdrop, if_neg h.1]
  rfl

end Lib.Scanf
