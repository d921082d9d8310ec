import Mathlib.Data.List.TakeWhile
import Mathlib.Tactic.Common

/-!
# Decimal texts

The decimal text of a number, the number at the beginning of a text, and numbers with
dots between them. Reading is the inverse of writing: of a number (`leadingNat_decimal`)
and of a sequence of them (`readDotted_dotted`). A number is read only in the text that it is
written in, so there are no zeros in front (`readDecimal_eq_some`).
-/

set_option autoImplicit false

namespace Jasl.Library

/-- The decimal text of a number. -/
def decimal (n : ℕ) : List Char := Nat.toDigits 10 n

theorem isDigit_of_mem_decimal {c : Char} {n : ℕ} (member : c ∈ decimal n) : c.isDigit = true :=
  Nat.isDigit_of_mem_toDigits (by decide) (by decide) member

theorem not_mem_decimal {c : Char} (other : c.isDigit = false) (n : ℕ) : c ∉ decimal n := by
  intro member
  rw [isDigit_of_mem_decimal member] at other
  cases other

theorem decimal_ne_nil (n : ℕ) : decimal n ≠ [] := Nat.toDigits_ne_nil

theorem ofDigitChars_decimal (n : ℕ) : Nat.ofDigitChars 10 (decimal n) 0 = n :=
  Nat.ofDigitChars_toDigits (by decide) (by decide)

/-- The number at the beginning of a text, if there is a digit. -/
def leadingNat (text : List Char) : Option ℕ :=
  if text.takeWhile Char.isDigit = [] then none
  else some (Nat.ofDigitChars 10 (text.takeWhile Char.isDigit) 0)

theorem leadingNat_decimal (n : ℕ) : leadingNat (decimal n) = some n := by
  have digits : (decimal n).takeWhile Char.isDigit = decimal n :=
    List.takeWhile_eq_self_iff.mpr fun _ => isDigit_of_mem_decimal
  rw [leadingNat, digits, if_neg (decimal_ne_nil n), ofDigitChars_decimal]

/-! ## Numbers with dots between them -/

/-- Numbers with dots between them. -/
def dotted : List ℕ → List Char
  | [] => []
  | [n] => decimal n
  | n :: rest => decimal n ++ '.' :: dotted rest

/-- The number that a text is the decimal text of. -/
def readDecimal (text : List Char) : Option ℕ :=
  if decimal (Nat.ofDigitChars 10 text 0) = text then some (Nat.ofDigitChars 10 text 0) else none

theorem readDecimal_eq_some {text : List Char} {n : ℕ} :
    readDecimal text = some n ↔ decimal n = text := by
  rw [readDecimal]
  constructor
  · intro read
    split at read
    · rename_i same
      rw [← Option.some.inj read]
      exact same
    · cases read
  · rintro rfl
    rw [ofDigitChars_decimal, if_pos rfl]

/-- The numbers between the dots. -/
def readDotted (text : List Char) : Option (List ℕ) := (text.splitOn '.').mapM readDecimal

theorem splitOn_dotted {n : ℕ} {rest : List ℕ} :
    (dotted (n :: rest)).splitOn '.' = (n :: rest).map decimal := by
  induction rest generalizing n with
  | nil => exact List.splitOn_eq_singleton (not_mem_decimal (by decide) n)
  | cons m rest ih =>
      have first : '.' ∉ decimal n := not_mem_decimal (by decide) n
      rw [dotted, List.splitOn_append_cons_self_of_not_mem first, ih]
      · rfl
      · exact List.cons_ne_nil m rest

theorem mapM_readDecimal (numbers : List ℕ) :
    (numbers.map decimal).mapM readDecimal = some numbers := by
  induction numbers with
  | nil => rfl
  | cons n rest ih =>
      rw [List.map_cons, List.mapM_cons, readDecimal_eq_some.mpr rfl, ih]
      rfl

/-- **What is written is read.** -/
theorem readDotted_dotted {numbers : List ℕ} (some_ : numbers ≠ []) :
    readDotted (dotted numbers) = some numbers := by
  obtain ⟨n, rest, rfl⟩ := List.exists_cons_of_ne_nil some_
  rw [readDotted, splitOn_dotted, mapM_readDecimal]

theorem digit_or_dot_of_mem_dotted {c : Char} {numbers : List ℕ} (member : c ∈ dotted numbers) :
    c.isDigit = true ∨ c = '.' := by
  induction numbers using dotted.induct with
  | case1 => cases member
  | case2 n => exact .inl (isDigit_of_mem_decimal member)
  | case3 n rest more ih =>
      rw [dotted] at member
      · rcases List.mem_append.mp member with digit | behind
        · exact .inl (isDigit_of_mem_decimal digit)
        · rcases List.mem_cons.mp behind with dot | behind
          · exact .inr dot
          · exact ih behind
      · exact more

end Jasl.Library
