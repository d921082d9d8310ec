import Mathlib.Algebra.Group.Nat.Defs
import Mathlib.Tactic.Common

/-!
# Pieces of a string

`StringWrapper`, a view of a string, and `SubString`, a range of indices that is read
from a string later (`SubString.str`). Indices are `uint64_t`: sums and differences
that may leave the range are taken modulo `2 ^ 64`.

A range that begins in the source reads what it covers of it (`SubString.str_eq`), and
one that begins behind the source throws (`SubString.str_eq_error`).
-/

set_option autoImplicit false

namespace Jasl

/-- How code on strings ends when it does not return. -/
inductive StringFault where
  /-- An `assert` fails. -/
  | assertion
  /-- `std::runtime_error`. -/
  | runtimeError (what : String)
  /-- An index or a range outside of the string. -/
  | outOfRange
deriving DecidableEq, Repr

/-- `std::string::npos`. -/
def npos : ℕ := 2 ^ 64 - 1

/-! ## The view of a string -/

namespace StringWrapper

/-- `StringWrapper::substr`. -/
def substr (source : List Char) (pos length : ℕ) : Except StringFault (List Char) :=
  if source.length < pos then .error (.runtimeError "position is out of range")
  else
    let realLength :=
      if (pos + length) % 2 ^ 64 ≤ source.length then length else source.length - pos
    -- the constructor of `std::string` reads this many characters, wherever the source ends
    if source.length < pos + realLength then .error .outOfRange
    else .ok ((source.drop pos).take realLength)

theorem substr_eq {source : List Char} {pos length : ℕ} (inside : pos + length ≤ source.length)
    (fits : source.length < 2 ^ 64) :
    substr source pos length = .ok ((source.drop pos).take length) := by
  have sum : (pos + length) % 2 ^ 64 = pos + length := by omega
  simp only [substr, sum, if_pos inside, if_neg (by omega : ¬source.length < pos),
    if_neg (Nat.not_lt.mpr inside)]

end StringWrapper

/-! ## Ranges -/

/-- `SubString`. -/
structure SubString where
  mBegin : ℕ := 0
  mEnd : ℕ := 0
  mLength : ℕ := 0
deriving DecidableEq, Repr

namespace SubString

/-- `SubString::set`; the assertion is compiled in unless `NDEBUG` is set. -/
def set (ndebug : Bool) (first last : ℕ) : Except StringFault SubString :=
  let last := if last = 0 then first else last
  if ndebug = false ∧ last < first then .error .assertion
  else .ok { mBegin := first, mEnd := last, mLength := (last + 2 ^ 64 - first) % 2 ^ 64 }

/-- `SubString::operator bool`. -/
def isSet (s : SubString) : Bool := 0 < s.mLength

/-- `SubString::substr`. -/
def substr (s : SubString) (source : List Char) (offset length : ℕ) :
    Except StringFault (List Char) :=
  let substrOffset := (s.mBegin + offset) % 2 ^ 64
  let sourceSize := source.length
  if sourceSize < substrOffset then
    .error (.runtimeError "SubString's begin is out of range")
  else
    let realSize := if length ≠ 0 then length else s.mLength
    let realSize :=
      if sourceSize < (substrOffset + realSize) % 2 ^ 64 then sourceSize - substrOffset
      else realSize
    StringWrapper.substr source substrOffset realSize

/-- `SubString::str`. -/
def str (s : SubString) (source : List Char) : Except StringFault (List Char) :=
  s.substr source 0 0

/-- The range from `first` up to `last`. -/
def between (first last : ℕ) : SubString where
  mBegin := first
  mEnd := last
  mLength := last - first

@[simp] theorem between_mBegin (first last : ℕ) : (between first last).mBegin = first := rfl

@[simp] theorem between_mEnd (first last : ℕ) : (between first last).mEnd = last := rfl

@[simp] theorem between_mLength (first last : ℕ) :
    (between first last).mLength = last - first := rfl

@[simp] theorem isSet_empty : ({} : SubString).isSet = false := rfl

theorem isSet_iff {s : SubString} : s.isSet = true ↔ 0 < s.mLength := decide_eq_true_iff

theorem isSet_eq_false_iff {s : SubString} : s.isSet = false ↔ s.mLength = 0 := by
  rw [isSet, decide_eq_false_iff_not]
  omega

theorem isSet_between {first last : ℕ} : (between first last).isSet = true ↔ first < last := by
  rw [isSet_iff, between_mLength]
  omega

theorem set_eq {ndebug : Bool} {first last : ℕ} (ordered : first ≤ last) (fits : last < 2 ^ 64) :
    set ndebug first last = .ok (between first last) := by
  have same : (if last = 0 then first else last) = last := by
    split <;> omega
  have length : (last + 2 ^ 64 - first) % 2 ^ 64 = last - first := by omega
  rw [set, same, if_neg (by omega), length]
  rfl

/-- With the assertion, a range that is set is ordered; an end of zero stands for the begin. -/
theorem set_eq_ok {first last : ℕ} {s : SubString} (fits : last < 2 ^ 64) (begins : first < 2 ^ 64)
    (done : set false first last = .ok s) :
    first ≤ last ∧ s = between first last ∨ last = 0 ∧ s = between first first := by
  by_cases ordered : first ≤ last
  · rw [set_eq ordered fits] at done
    cases done
    exact .inl ⟨ordered, rfl⟩
  · by_cases zero : last = 0
    · have same : set false first last = set false first first := by
        simp only [set, zero, if_true, ite_self]
      rw [same, set_eq (Nat.le_refl first) begins] at done
      cases done
      exact .inr ⟨zero, rfl⟩
    · rw [set, if_neg zero, if_pos ⟨rfl, by omega⟩] at done
      cases done

/-- A range that begins in the source reads what it covers of it. -/
theorem str_eq {s : SubString} {source : List Char} (inside : s.mBegin ≤ source.length)
    (fits : s.mBegin + s.mLength < 2 ^ 64) (sourceFits : source.length < 2 ^ 64) :
    s.str source = .ok ((source.drop s.mBegin).take s.mLength) := by
  have offset : (s.mBegin + 0) % 2 ^ 64 = s.mBegin := by omega
  simp only [str, substr, offset, if_neg (Nat.not_lt.mpr inside), ne_eq, not_true_eq_false,
    if_false, Nat.mod_eq_of_lt fits]
  by_cases clipped : source.length < s.mBegin + s.mLength
  · rw [if_pos clipped, StringWrapper.substr_eq (by omega) sourceFits,
      List.take_of_length_le (Nat.le_of_eq List.length_drop),
      List.take_of_length_le (by rw [List.length_drop]; omega)]
  · rw [if_neg clipped, StringWrapper.substr_eq (Nat.not_lt.mp clipped) sourceFits]

theorem between_str {first last : ℕ} {source : List Char} (inside : first ≤ source.length)
    (fits : last < 2 ^ 64) (sourceFits : source.length < 2 ^ 64) :
    (between first last).str source = .ok ((source.drop first).take (last - first)) :=
  str_eq inside (by rw [between_mBegin, between_mLength]; omega) sourceFits

/-- How much a range covers of the source. -/
theorem length_of_str {first last : ℕ} {source text : List Char} (inside : first ≤ source.length)
    (fits : last < 2 ^ 64) (sourceFits : source.length < 2 ^ 64)
    (reads : (between first last).str source = .ok text) :
    text.length = min (last - first) (source.length - first) := by
  rw [between_str inside fits sourceFits] at reads
  rw [← Except.ok.inj reads, List.length_take, List.length_drop]

/-- Two ranges that read the same cover as much. -/
theorem covers_of_same_str {first last first' last' : ℕ} {source : List Char}
    (inside : first ≤ source.length) (inside' : first' ≤ source.length) (fits : last < 2 ^ 64)
    (fits' : last' < 2 ^ 64) (sourceFits : source.length < 2 ^ 64)
    (same : (between first last).str source = (between first' last').str source) :
    min (last - first) (source.length - first) =
      min (last' - first') (source.length - first') := by
  have reads := between_str inside' fits' sourceFits
  rw [← length_of_str inside fits sourceFits (same.trans reads),
    length_of_str inside' fits' sourceFits reads]

/-- A range that begins behind the source throws. -/
theorem str_eq_error {s : SubString} {source : List Char} (outside : source.length < s.mBegin)
    (fits : s.mBegin < 2 ^ 64) :
    s.str source = .error (.runtimeError "SubString's begin is out of range") := by
  have offset : (s.mBegin + 0) % 2 ^ 64 = s.mBegin := by omega
  simp only [str, substr, offset, if_pos outside]

theorem str_empty {source : List Char} (fits : source.length < 2 ^ 64) :
    ({} : SubString).str source = .ok [] := by
  rw [str_eq (Nat.zero_le _) (by decide) fits]
  rfl

/-- A range that is not empty reads nothing only from the end of the source. -/
theorem length_eq_of_str_eq_nil {first last : ℕ} {source : List Char} (long : first < last)
    (fits : last < 2 ^ 64) (sourceFits : source.length < 2 ^ 64)
    (reads : (between first last).str source = .ok []) : source.length = first := by
  rcases Nat.lt_or_ge source.length first with outside | inside
  · rw [str_eq_error outside (Nat.lt_trans long fits)] at reads
    cases reads
  · have length := length_of_str inside fits sourceFits reads
    rw [List.length_nil] at length
    omega

end SubString

end Jasl
