import Jasl.Common.SubString
import Jasl.Library.Words

/-!
# Extraction at the limits

What `substr` of a range and of a view are for: an index behind the end of the source
is refused, and a stretch that reaches beyond the end is cut there (`Extracts`), as with
integers. Both functions compare sums that are taken modulo `2 ^ 64`. A sum that wraps
looks as if it were inside, so a length of all ones does not mean "to the end" but is
handed on to the constructor of `std::string`, and a begin that wraps is a place in the
source.

They do what they are for exactly when these sums do not wrap into the source
(`substr_extracts_iff`).
-/

set_option autoImplicit false

namespace Jasl

/-- An index behind the end of the source is refused, and from any other `length` characters are
read, or as many as there are. -/
structure Extracts (source : List Char) (first length : ℕ)
    (result : Except StringFault (List Char)) : Prop where
  throws : (∃ what, result = .error (.runtimeError what)) ↔ source.length < first
  reads : first ≤ source.length →
    result = .ok ((source.drop first).take (min length (source.length - first)))

namespace Extracts

variable {source : List Char} {first length : ℕ} {result : Except StringFault (List Char)}

theorem of_refused {what : String} (outside : source.length < first)
    (refused : result = .error (.runtimeError what)) : Extracts source first length result where
  throws := iff_of_true ⟨what, refused⟩ outside
  reads := fun inside => absurd outside (Nat.not_lt.mpr inside)

theorem of_read (inside : first ≤ source.length)
    (read : result = .ok ((source.drop first).take (min length (source.length - first)))) :
    Extracts source first length result where
  throws := by
    refine iff_of_false ?_ (Nat.not_lt.mpr inside)
    rintro ⟨what, refused⟩
    rw [read] at refused
    cases refused
  reads := fun _ => read

/-- What is extracted behind the end is an error of its own kind. -/
theorem refused (extracts : Extracts source first length result) (outside : source.length < first) :
    ∃ what, result = .error (.runtimeError what) :=
  extracts.throws.mpr outside

end Extracts

/-! ## The view -/

namespace StringWrapper

/-- The end of the stretch does not wrap. -/
def LengthFits (source : List Char) (pos length : ℕ) : Prop :=
  pos ≤ source.length → pos + length < 2 ^ 64

variable {source : List Char} {pos length : ℕ}

theorem substr_of_outside (outside : source.length < pos) :
    substr source pos length = .error (.runtimeError "position is out of range") := by
  rw [substr, if_pos outside]

/-- A stretch whose end does not wrap is cut at the end of the source. -/
theorem substr_of_fits (inside : pos ≤ source.length) (fits : pos + length < 2 ^ 64)
    (sourceFits : source.length < 2 ^ 63) :
    substr source pos length =
      .ok ((source.drop pos).take (min length (source.length - pos))) := by
  by_cases within : pos + length ≤ source.length
  · rw [substr_eq within (by omega), Nat.min_eq_left (by omega)]
  · have real : pos + (source.length - pos) = source.length := Nat.add_sub_cancel' inside
    simp only [substr, if_neg (Nat.not_lt.mpr inside), Nat.mod_eq_of_lt fits, if_neg within, real,
      if_neg (Nat.lt_irrefl _), Nat.min_eq_right (show source.length - pos ≤ length by omega)]

/-- A stretch whose end wraps is asked for as it is. -/
theorem substr_of_wraps (inside : pos ≤ source.length) (wraps : 2 ^ 64 ≤ pos + length)
    (lengthFits : length < 2 ^ 64) (sourceFits : source.length < 2 ^ 63) :
    substr source pos length = .error .outOfRange := by
  have wrapped : (pos + length) % 2 ^ 64 ≤ source.length := by omega
  simp only [substr, if_neg (Nat.not_lt.mpr inside), if_pos wrapped]
  rw [if_pos (by omega)]

/-- **A view extracts exactly the stretches whose end does not wrap.** -/
theorem extracts_iff (lengthFits : length < 2 ^ 64) (sourceFits : source.length < 2 ^ 63) :
    Extracts source pos length (substr source pos length) ↔ LengthFits source pos length := by
  rcases Nat.lt_or_ge source.length pos with outside | inside
  · exact iff_of_true (.of_refused outside (substr_of_outside outside))
      fun inside => absurd outside (Nat.not_lt.mpr inside)
  · rcases Nat.lt_or_ge (pos + length) (2 ^ 64) with fits | wraps
    · exact iff_of_true (.of_read inside (substr_of_fits inside fits sourceFits)) fun _ => fits
    · refine iff_of_false ?_ fun fits => absurd (fits inside) (Nat.not_lt.mpr wraps)
      intro extracts
      have read := extracts.reads inside
      rw [substr_of_wraps inside wraps lengthFits sourceFits] at read
      cases read

end StringWrapper

/-! ## Ranges -/

namespace SubString

/-- The length that is asked for: that of the range, when none is given. -/
def asked (first last length : ℕ) : ℕ := if length ≠ 0 then length else last - first

/-- Neither the begin wraps into the source, nor the end of a stretch that begins in it. -/
def SumsFit (source : List Char) (first offset length : ℕ) : Prop :=
  if first + offset < 2 ^ 64 then StringWrapper.LengthFits source (first + offset) length
  else source.length < first + offset - 2 ^ 64

variable {source : List Char} {first last offset length : ℕ}

/-- Behind the check of the begin a range is read like a view. -/
theorem substr_of_inside {begin_ : ℕ} (wrapped : (first + offset) % 2 ^ 64 = begin_)
    (inside : begin_ ≤ source.length) (lengthFits : asked first last length < 2 ^ 64)
    (sourceFits : source.length < 2 ^ 63) :
    (between first last).substr source offset length =
      StringWrapper.substr source begin_ (asked first last length) := by
  have size : (if length ≠ 0 then length else (between first last).mLength) =
    asked first last length := rfl
  simp only [substr, between_mBegin, wrapped, if_neg (Nat.not_lt.mpr inside), size]
  split
  · rename_i beyond
    rcases Nat.lt_or_ge (begin_ + asked first last length) (2 ^ 64) with fits | wraps
    · rw [Nat.mod_eq_of_lt fits] at beyond
      rw [StringWrapper.substr_of_fits inside (by omega) sourceFits,
        StringWrapper.substr_of_fits inside fits sourceFits, Nat.min_self,
        Nat.min_eq_right (by omega)]
    · omega
  · rfl

theorem substr_of_outside (outside : source.length < (first + offset) % 2 ^ 64) :
    (between first last).substr source offset length =
      .error (.runtimeError "SubString's begin is out of range") := by
  simp only [substr, between_mBegin]
  exact if_pos outside

/-- **A range extracts exactly when the sums fit.** -/
theorem extracts_iff (firstFits : first < 2 ^ 64) (offsetFits : offset < 2 ^ 64)
    (lengthFits : asked first last length < 2 ^ 64) (sourceFits : source.length < 2 ^ 63) :
    Extracts source (first + offset) (asked first last length)
        ((between first last).substr source offset length) ↔
      SumsFit source first offset (asked first last length) := by
  rw [SumsFit]
  split
  · rename_i fits
    have begins : (first + offset) % 2 ^ 64 = first + offset := Nat.mod_eq_of_lt fits
    rcases Nat.lt_or_ge source.length (first + offset) with outside | inside
    · have refused : (between first last).substr source offset length = _ :=
        substr_of_outside (by rw [begins]; exact outside)
      exact iff_of_true (.of_refused outside refused)
        fun inside => absurd outside (Nat.not_lt.mpr inside)
    · rw [substr_of_inside begins inside lengthFits sourceFits,
        StringWrapper.extracts_iff lengthFits sourceFits]
  · rename_i wraps
    have begins : (first + offset) % 2 ^ 64 = first + offset - 2 ^ 64 := by omega
    have outside : source.length < first + offset := by omega
    rcases Nat.lt_or_ge source.length (first + offset - 2 ^ 64) with behind | inside
    · have refused : (between first last).substr source offset length = _ :=
        substr_of_outside (by rw [begins]; exact behind)
      exact iff_of_true (.of_refused outside refused) behind
    · -- The begin is a place in the source, and nothing is refused.
      refine iff_of_false ?_ (Nat.not_lt.mpr inside)
      intro extracts
      obtain ⟨what, refused⟩ := extracts.refused outside
      rw [substr_of_inside begins inside lengthFits sourceFits] at refused
      rcases Nat.lt_or_ge (first + offset - 2 ^ 64 + asked first last length) (2 ^ 64) with
        fits | long
      · rw [StringWrapper.substr_of_fits inside fits sourceFits] at refused
        cases refused
      · rw [StringWrapper.substr_of_wraps inside long lengthFits sourceFits] at refused
        cases refused

end SubString

/-- **Where extraction does what it does with integers**: for every source, range, offset and
length exactly when the sums fit, and so for every view. -/
theorem substr_extracts_iff {source : List Char} (sourceFits : source.length < 2 ^ 63)
    (first last offset length : Word) (pos : Word) :
    (Extracts source (first.toNat + offset.toNat)
          (SubString.asked first.toNat last.toNat length.toNat)
          ((SubString.between first.toNat last.toNat).substr source offset.toNat length.toNat) ↔
        SubString.SumsFit source first.toNat offset.toNat
          (SubString.asked first.toNat last.toNat length.toNat)) ∧
      (Extracts source pos.toNat length.toNat
          (StringWrapper.substr source pos.toNat length.toNat) ↔
        StringWrapper.LengthFits source pos.toNat length.toNat) := by
  have lengthFits : SubString.asked first.toNat last.toNat length.toNat < 2 ^ 64 := by
    rw [SubString.asked]
    split
    · exact length.isLt
    · exact Nat.lt_of_le_of_lt (Nat.sub_le _ _) last.isLt
  exact ⟨SubString.extracts_iff first.isLt offset.isLt lengthFits sourceFits,
    StringWrapper.extracts_iff length.isLt sourceFits⟩

theorem substr_extracts_iff_abc :
    Extracts ['a', 'b', 'c'] (1 + 1) 5 ((SubString.between 1 3).substr ['a', 'b', 'c'] 1 5) ∧
      Extracts ['a', 'b', 'c'] 2 5 (StringWrapper.substr ['a', 'b', 'c'] 2 5) := by
  have extracts := substr_extracts_iff (show ['a', 'b', 'c'].length < 2 ^ 63 by decide) 1 3 1 5 2
  exact ⟨extracts.1.mpr fun _ => by decide, extracts.2.mpr fun _ => by decide⟩

/-- From the second character on, a length of all ones is not read to the end. -/
theorem all_ones_is_not_to_the_end :
    ¬Extracts ['a', 'b', 'c'] (1 + 0) (2 ^ 64 - 1)
        ((SubString.between 1 3).substr ['a', 'b', 'c'] 0 (2 ^ 64 - 1)) ∧
      ¬Extracts ['a', 'b', 'c'] 1 (2 ^ 64 - 1)
        (StringWrapper.substr ['a', 'b', 'c'] 1 (2 ^ 64 - 1)) := by
  constructor
  · intro extracts
    exact absurd (extracts.reads (by decide)) (by decide +kernel)
  · intro extracts
    exact absurd (extracts.reads (by decide)) (by decide +kernel)

end Jasl
