import Minifier.Proofs.Decimal.Order
import Minifier.Reporter

/-!
# How full a bar is

The number of full cells of a bar is made from the share of the files that is done in four steps,
each of which rounds (`Meter.Fills`). Rounding keeps the order, so a larger share fills no fewer
cells (`Meter.Fills.mono`), and the most cells are full when all files are done. These are as many
as the bar has, unless the bar is so wide that the errors of rounding add up to half a cell; the
least width at which they are more is `Meter.widthLimit` (`Meter.exists_fullCells_le`).
-/

set_option autoImplicit false

namespace Minifier

namespace Meter

open Binary64

variable {width done total full full' : ℕ} {share share' : ℚ}

/-- The number of full cells for a share of the files: the share is rounded, put into percent,
multiplied with the width and divided by a hundred, and the quotient is rounded to cells. -/
def Fills (width : ℕ) (share : ℚ) (full : ℕ) : Prop :=
  ∃ portion percentage hundredths quotient : ℚ,
    Rounds share portion ∧ Rounds (portion * 100) percentage ∧
      Rounds (percentage * width) hundredths ∧ Rounds (hundredths / 100) quotient ∧
        IsNearest quotient full

/-- A larger share fills no fewer cells. -/
theorem Fills.mono (h : Fills width share full) (h' : Fills width share' full')
    (hle : share ≤ share') : full ≤ full' := by
  obtain ⟨portion, percentage, hundredths, quotient, hportion, hpercentage, hhundredths, hquotient,
    hnear⟩ := h
  obtain ⟨portion', percentage', hundredths', quotient', hportion', hpercentage', hhundredths',
    hquotient', hnear'⟩ := h'
  have hle₁ : portion ≤ portion' := hportion.mono hportion' hle
  have hle₂ : percentage ≤ percentage' :=
    hpercentage.mono hpercentage' (mul_le_mul_of_nonneg_right hle₁ (by norm_num))
  have hle₃ : hundredths ≤ hundredths' :=
    hhundredths.mono hhundredths' (mul_le_mul_of_nonneg_right hle₂ (Nat.cast_nonneg width))
  have hle₄ : quotient ≤ quotient' :=
    hquotient.mono hquotient' (div_le_div_of_nonneg_right hle₃ (by norm_num))
  exact hnear.mono hnear' hle₄

theorem Fills.unique (h : Fills width share full) (h' : Fills width share full') : full = full' :=
  Nat.le_antisymm (h.mono h' le_rfl) (h'.mono h le_rfl)

/-- When all files are done, the percentage is exact, and two errors of rounding are left. -/
theorem Fills.exists_hundredths (h : Fills width 1 full) : ∃ hundredths quotient : ℚ,
    Rounds (100 * width) hundredths ∧ Rounds (hundredths / 100) quotient ∧
      IsNearest quotient full := by
  obtain ⟨portion, percentage, hundredths, quotient, hportion, hpercentage, hhundredths, hquotient,
    hnear⟩ := h
  have hone : Rounds ((1 : ℕ) : ℚ) ((1 : ℕ) : ℚ) := rounds_natCast (by decide)
  have hhundred : Rounds ((100 : ℕ) : ℚ) ((100 : ℕ) : ℚ) := rounds_natCast (by decide)
  rw [Nat.cast_one] at hone
  rw [Nat.cast_ofNat] at hhundred
  rw [hportion.unique hone, one_mul] at hpercentage
  rw [hpercentage.unique hhundred] at hhundredths
  exact ⟨hundredths, quotient, hhundredths, hquotient, hnear⟩

/-- Both errors together are less than half a cell where the bar is not too wide. -/
theorem Fills.full_eq (h : Fills width 1 full) (hwidth : 100 * width < 2 ^ 58) : full = width := by
  obtain ⟨hundredths, quotient, hhundredths, hquotient, hnear⟩ := h.exists_hundredths
  have hbound : (100 * width : ℚ) < 2 ^ (58 : ℤ) := by exact_mod_cast hwidth
  have herror := hhundredths.near hbound (by decide)
  have hfirst : (2 : ℚ) ^ ((58 : ℤ) - precision - 1) = 16 := by
    rw [precision]
    norm_num
  rw [hfirst] at herror
  obtain ⟨hlow, hhigh⟩ := abs_le.1 herror
  norm_num at hbound
  have hbound' : hundredths / 100 < 2 ^ (52 : ℤ) := by
    norm_num
    linarith
  have herror' := hquotient.near hbound' (by decide)
  have hsecond : (2 : ℚ) ^ ((52 : ℤ) - precision - 1) = 1 / 4 := by
    rw [precision]
    norm_num
  rw [hsecond] at herror'
  obtain ⟨hlow', hhigh'⟩ := abs_le.1 herror'
  refine hnear.unique (isNearest_of_lt ?_)
  rw [abs_lt]
  constructor <;> linarith

/-! ## Full cells are counted -/

/-- The share of the files that is done, as a floating-point number. -/
theorem exists_portion (htotal : 0 < total) (hdone : done ≤ total) : ∃ portion : ℚ,
    (Binary64.ofRatio false done total).Represents portion ∧ Rounds (done / total) portion ∧
      portion ≤ 1 := by
  have hpos : (0 : ℚ) < total := by exact_mod_cast htotal
  have hshare : (done : ℚ) / total ≤ 1 := by
    rw [div_le_one hpos]
    exact_mod_cast hdone
  have hone : Rounds ((1 : ℕ) : ℚ) ((1 : ℕ) : ℚ) := rounds_natCast (by decide)
  rw [Nat.cast_one] at hone
  obtain ⟨portion, hvalue, hrounds⟩ :=
    rounds_ofRatio done htotal (hshare.trans_lt (one_lt_pow₀ one_lt_two (by decide)))
  exact ⟨portion, hvalue, hrounds, hrounds.mono hone hshare⟩

/-- Where all files are done, the share is one from the start, as it is when it is divided. -/
theorem represents_share {portion : ℚ} (htotal : 0 < total) (hdone : done ≤ total)
    (hvalue : (Binary64.ofRatio false done total).Represents portion)
    (hrounds : Rounds (done / total) portion) :
    (if 0 < (total : Int) && (total : Int) ≤ done then Binary64.ofInt 1
      else Binary64.ofRatio ((total : Int) < 0) done (total : Int).natAbs).Represents portion := by
  have hneg : decide ((total : Int) < 0) = false := decide_eq_false (by omega)
  rw [hneg, Int.natAbs_natCast]
  split
  · next hall =>
    have hle : total ≤ done := by simpa [htotal] using hall
    obtain rfl : done = total := Nat.le_antisymm hdone hle
    have hone : (Binary64.ofInt (1 : ℕ)).Represents ((1 : ℕ) : ℚ) := represents_ofInt (by decide)
    have hrounds_one : Rounds ((1 : ℕ) : ℚ) ((1 : ℕ) : ℚ) := rounds_natCast (by decide)
    rw [div_self (by exact_mod_cast htotal.ne')] at hrounds
    rw [Nat.cast_one] at hrounds_one
    rw [hrounds.unique hrounds_one]
    rw [Nat.cast_one (R := ℚ)] at hone
    exact hone
  · exact hvalue

/-- The percentage of a meter is its share, rounded twice. -/
theorem exists_percentage (htotal : 0 < total) (hdone : done ≤ total) : ∃ portion percentage : ℚ,
    (Meter.mk total done).percentage.Represents percentage ∧
      Rounds (done / total) portion ∧ Rounds (portion * 100) percentage ∧ percentage ≤ 100 := by
  have hhundred : Rounds ((100 : ℕ) : ℚ) ((100 : ℕ) : ℚ) := rounds_natCast (by decide)
  have hvalue_hundred : (Binary64.ofInt (100 : ℕ)).Represents ((100 : ℕ) : ℚ) :=
    represents_ofInt (by decide)
  rw [Nat.cast_ofNat] at hhundred
  rw [Nat.cast_ofNat (R := ℚ)] at hvalue_hundred
  obtain ⟨portion, hvalue, hrounds, hle⟩ := exists_portion htotal hdone
  have hshare := represents_share htotal hdone hvalue hrounds
  have hlimit : portion * 100 < 2 ^ 1023 := by
    calc portion * 100 ≤ 1 * 100 := mul_le_mul_of_nonneg_right hle (by norm_num)
      _ < 2 ^ 7 := by norm_num
      _ ≤ 2 ^ 1023 := pow_le_pow_right₀ one_le_two (by decide)
  obtain ⟨percentage, hpercentage, hrounds'⟩ := hshare.mul hvalue_hundred hlimit
  refine ⟨portion, percentage, hpercentage, hrounds, hrounds', ?_⟩
  exact hrounds'.mono hhundred (by linarith)

/-- The full cells of a bar that is not too wide are a number of cells. -/
theorem exists_fullCells (hwidth : width < 2 ^ precision) (htotal : 0 < total)
    (hdone : done ≤ total) : ∃ full : ℕ,
      (Meter.mk total done).fullCells? width = .ok (full : Int) ∧
        Fills width (done / total) full := by
  obtain ⟨share, hshare, -, -⟩ := exists_portion htotal hdone
  obtain ⟨portion, percentage, hpercentage, hrounds, hrounds', hle⟩ :=
    exists_percentage htotal hdone
  have hwide : (width : ℚ) ≤ 2 ^ precision := by exact_mod_cast hwidth.le
  -- a hundred times the width is far below the least number that is not finite
  have hbound : percentage * width < 2 ^ (60 : ℤ) := by
    calc percentage * width ≤ 100 * 2 ^ precision :=
          mul_le_mul hle hwide (Nat.cast_nonneg width) (by norm_num)
      _ < 2 ^ (60 : ℤ) := by
          rw [precision]
          norm_num
  obtain ⟨hundredths, hhundredths, hrounds₃⟩ := hpercentage.mul (represents_ofInt hwidth)
    (hbound.trans (zpow_lt_zpow_right₀ one_lt_two (by decide : (60 : ℤ) < (1023 : ℕ))))
  have hbound' : hundredths / (100 : ℕ) < 2 ^ 1023 := by
    have hnear := (abs_le.1 (hrounds₃.near hbound (by decide))).1
    have herror : (2 : ℚ) ^ ((60 : ℤ) - precision - 1) = 64 := by
      rw [precision]
      norm_num
    rw [herror] at hnear
    norm_num at hbound
    rw [Nat.cast_ofNat, div_lt_iff₀ (by norm_num)]
    calc hundredths < 2 ^ 62 := by linarith
      _ ≤ 2 ^ 1023 := pow_le_pow_right₀ one_le_two (by decide)
      _ ≤ 2 ^ 1023 * 100 := le_mul_of_one_le_right (by positivity) (by norm_num)
  obtain ⟨quotient, hquotient, hrounds₄⟩ := hhundredths.divNat (by decide) hbound'
  obtain ⟨full, hround, hnear⟩ := hquotient.exists_round?
  refine ⟨full, ?_, portion, percentage, hundredths, quotient, hrounds, hrounds', hrounds₃,
    hrounds₄, hnear⟩
  have hneg : decide ((total : Int) < 0) = false := decide_eq_false (by omega)
  simp only [fullCells?, hneg, Int.natAbs_natCast, hshare.isInfinite_eq_false,
    (represents_ofInt hwidth).isInfinite_eq_false, hquotient.isInfinite_eq_false,
    hquotient.ne_notANumber, Bool.false_eq_true, if_false, filledCells, hround, Option.getD_some]

/-! ## Bars that are not too wide -/

/-- The least width of a bar that can get more full cells than it has. -/
def widthLimit : ℕ :=
  2882303761517121

/-- The cells that are full when all files are done are no more than the bar has. -/
theorem Fills.full_le (h : Fills width 1 full) (hwidth : width < widthLimit) : full ≤ width := by
  rcases lt_or_ge (100 * width) (2 ^ 58) with hsmall | hlarge
  · exact Nat.le_of_eq (h.full_eq hsmall)
  · -- three widths are left, and their bars are filled by computation
    have hcases : width = 2882303761517118 ∨ width = 2882303761517119 ∨
        width = 2882303761517120 := by
      rw [widthLimit] at hwidth
      omega
    have hbits : width < 2 ^ precision := by
      rw [precision]
      omega
    obtain ⟨full', hcount, hfills⟩ := exists_fullCells hbits one_pos le_rfl
    rw [div_self (by norm_num)] at hfills
    rw [h.unique hfills]
    have hcount₁ : (Meter.mk 1 1).fullCells? 2882303761517118 = .ok 2882303761517118 := rfl
    have hcount₂ : (Meter.mk 1 1).fullCells? 2882303761517119 = .ok 2882303761517118 := rfl
    have hcount₃ : (Meter.mk 1 1).fullCells? 2882303761517120 = .ok 2882303761517120 := rfl
    rcases hcases with rfl | rfl | rfl
    · have hsame := Except.ok.inj (hcount.symm.trans hcount₁)
      omega
    · have hsame := Except.ok.inj (hcount.symm.trans hcount₂)
      omega
    · have hsame := Except.ok.inj (hcount.symm.trans hcount₃)
      omega

/-- The full cells of a bar that is not too wide are no more than all its cells. -/
theorem exists_fullCells_le (hwidth : width < widthLimit) (htotal : 0 < total)
    (hdone : done ≤ total) : ∃ full : ℕ,
      (Meter.mk total done).fullCells? width = .ok (full : Int) ∧
        Fills width (done / total) full ∧ full ≤ width := by
  have hbits : width < 2 ^ precision := by
    rw [widthLimit] at hwidth
    rw [precision]
    omega
  obtain ⟨full, hcount, hfills⟩ := exists_fullCells hbits htotal hdone
  obtain ⟨most, -, hmost⟩ := exists_fullCells hbits one_pos (le_refl 1)
  rw [div_self (by norm_num)] at hmost
  have hshare : (done : ℚ) / total ≤ 1 := by
    rw [div_le_one (by exact_mod_cast htotal)]
    exact_mod_cast hdone
  exact ⟨full, hcount, hfills, (hfills.mono hmost hshare).trans (hmost.full_le hwidth)⟩

end Meter

end Minifier
