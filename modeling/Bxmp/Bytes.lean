import Mathlib

namespace Bxmp

/-- The bytes of a Go string literal. Go strings are byte sequences, and so are the
strings of this model. -/
def bytesOf (s : String) : List UInt8 := s.toUTF8.data.toList

/-- `[0-9]`. -/
def isDigit (b : UInt8) : Bool := 48 ≤ b.toNat && b.toNat ≤ 57

/-- `[a-zA-Z]`. -/
def isLetter (b : UInt8) : Bool :=
  (97 ≤ b.toNat && b.toNat ≤ 122) || (65 ≤ b.toNat && b.toNat ≤ 90)

/-- `[a-zA-Z0-9]`. -/
def isAlnum (b : UInt8) : Bool := isLetter b || isDigit b

theorem isAlnum_of_isDigit {b : UInt8} (h : isDigit b) : isAlnum b := by
  simp [isAlnum, h]

theorem isAlnum_of_isLetter {b : UInt8} (h : isLetter b) : isAlnum b := by
  simp [isAlnum, h]

theorem not_isLetter_of_isDigit {b : UInt8} (h : isDigit b) : isLetter b = false := by
  simp only [isDigit, isLetter, Bool.and_eq_true, decide_eq_true_eq] at h ⊢
  simp only [Bool.or_eq_false_iff, Bool.and_eq_false_iff, decide_eq_false_iff_not]
  omega

theorem ne_of_isDigit {b c : UInt8} (h : isDigit b) (hc : isDigit c = false) : b ≠ c := by
  rintro rfl
  simp [h] at hc

end Bxmp
