import Minifier.Text.Blank
import Minifier.Text.Word

/-!
# Words and blanks

No blank is a word character (`Glyph.isWord_eq_false_of_isBlank`), so that a run of word characters
never reaches across a gap.
-/

set_option autoImplicit false

namespace Minifier

/-- The code points of the blanks. -/
def blankCodes : List Nat :=
  [9, 10, 11, 12, 13, 28, 29, 30, 31, 32, 0x85, 0xA0, 0x1680, 0x2000, 0x2001, 0x2002, 0x2003,
    0x2004, 0x2005, 0x2006, 0x2007, 0x2008, 0x2009, 0x200A, 0x2028, 0x2029, 0x202F, 0x205F, 0x3000]

theorem mem_blankCodes {code : Nat} (h : isBlankCode code = true) : code ∈ blankCodes := by
  rw [isBlankCode] at h
  simp only [blankCodes, List.mem_cons, List.not_mem_nil, or_false]
  split at h
  · simp only [Bool.or_eq_true, Bool.and_eq_true, decide_eq_true_eq] at h
    omega
  · simp only [Bool.or_eq_true, Bool.and_eq_true, decide_eq_true_eq, beq_iff_eq] at h
    omega

theorem isWordCode_of_mem_blankCodes : ∀ code ∈ blankCodes, isWordCode code = false := by
  decide +kernel

/-- No blank is a word character. -/
theorem Glyph.isWord_eq_false_of_isBlank {g : Glyph} (h : g.isBlank = true) :
    g.isWord = false := by
  cases g with
  | char c => exact isWordCode_of_mem_blankCodes c.toNat (mem_blankCodes h)
  | byte b => rfl

end Minifier
