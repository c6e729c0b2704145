import Mathlib.Algebra.Order.Field.Rat
import Mathlib.Algebra.Order.Field.Power
import Mathlib.Algebra.Order.Round
import Mathlib.Tactic.FieldSimp
import Mathlib.Tactic.Linarith
import Mathlib.Tactic.NormNum
import Mathlib.Tactic.Positivity
import Mathlib.Tactic.Ring
import Minifier.Decimal.Fixed

/-!
# Rounding against the rational numbers

`roundQuotient` gives the nearest natural, a tie going to the even one (`isNearest_roundQuotient`),
and there is only one such (`IsNearest.unique`). A binary floating-point number represents the
rational that its significand and exponent make up (`Binary64.Represents`). What `Binary64.ofRatio`
gives represents a multiple of a power of two that is nearest to the ratio
(`Binary64.exists_ofRatio`), so it is exact on ratios that have a significand of their own
(`Binary64.represents_ofRatio`) and close to all others (`Binary64.exists_near_ofRatio`). In
particular a value that is rounded to some places is written with just these places
(`Binary64.fixed_roundedTo`).
-/

set_option autoImplicit false

namespace Minifier

/-! ## Nearest naturals -/

/-- A natural that no other one is nearer to a rational; of two it is the even one. -/
structure IsNearest (q : ℚ) (n : ℕ) : Prop where
  near : |q - n| ≤ 1 / 2
  even : |q - n| = 1 / 2 → Even n

/-- Two neighbours that are equally near are not both even. -/
theorem IsNearest.le {q : ℚ} {m n : ℕ} (hm : IsNearest q m) (hn : IsNearest q n) : m ≤ n := by
  by_contra hlt
  have hgap : (n : ℚ) + 1 ≤ m := by exact_mod_cast Nat.lt_of_not_le hlt
  obtain ⟨hm₁, hm₂⟩ := abs_le.1 hm.near
  obtain ⟨hn₁, hn₂⟩ := abs_le.1 hn.near
  -- the rational can only be halfway between them
  have hhalf : q - n = 1 / 2 := by linarith
  have hnext : (m : ℚ) = n + 1 := by linarith
  have hmhalf : |q - m| = 1 / 2 := by
    rw [show q - m = -(1 / 2) by linarith, abs_neg, abs_of_pos (by norm_num)]
  have heven := hm.even hmhalf
  have heven' := hn.even (by rw [hhalf, abs_of_pos (by norm_num)])
  have hsucc : m = n + 1 := by exact_mod_cast hnext
  rw [hsucc, Nat.even_add_one] at heven
  exact heven heven'

theorem IsNearest.unique {q : ℚ} {m n : ℕ} (hm : IsNearest q m) (hn : IsNearest q n) : m = n :=
  Nat.le_antisymm (hm.le hn) (hn.le hm)

theorem isNearest_of_lt {q : ℚ} {n : ℕ} (h : |q - n| < 1 / 2) : IsNearest q n :=
  ⟨h.le, fun htie => absurd htie h.ne⟩

theorem isNearest_natCast (n : ℕ) : IsNearest n n :=
  isNearest_of_lt (by simp)

/-- The quotient of two naturals is rounded to the nearest one. -/
theorem isNearest_roundQuotient (numerator : ℕ) {denominator : ℕ} (h : 0 < denominator) :
    IsNearest ((numerator : ℚ) / denominator) (roundQuotient numerator denominator) := by
  obtain ⟨whole, hwhole⟩ : ∃ whole, whole = numerator / denominator := ⟨_, rfl⟩
  obtain ⟨rest, hrest⟩ : ∃ rest, rest = numerator % denominator := ⟨_, rfl⟩
  have hpos : (0 : ℚ) < denominator := by exact_mod_cast h
  have hlt : rest < denominator := hrest ▸ Nat.mod_lt _ h
  have hsplit : (numerator : ℚ) / denominator = whole + rest / denominator := by
    rw [div_eq_iff hpos.ne', add_mul, div_mul_cancel₀ _ hpos.ne', hwhole, hrest]
    exact_mod_cast (Nat.div_add_mod' numerator denominator).symm
  have hround : roundQuotient numerator denominator =
      if denominator < 2 * rest ∨ 2 * rest = denominator ∧ whole % 2 = 1 then whole + 1
      else whole := by
    simp [roundQuotient, hwhole, hrest]
  have hfraction : (rest : ℚ) / denominator * (2 * denominator) = 2 * rest := by
    field_simp
  rw [hsplit, hround]
  -- the fraction that is left is below a half, a half, or above it
  rcases lt_trichotomy (2 * rest) denominator with hbelow | htie | habove
  · rw [if_neg (by omega)]
    have hhalf : (rest : ℚ) / denominator < 1 / 2 := by
      rw [div_lt_div_iff₀ hpos two_pos]
      have : (2 * rest : ℚ) < denominator := by exact_mod_cast hbelow
      linarith
    refine isNearest_of_lt ?_
    rw [add_sub_cancel_left, abs_of_nonneg (by positivity)]
    exact hhalf
  · have hhalf : (rest : ℚ) / denominator = 1 / 2 := by
      rw [div_eq_div_iff hpos.ne' two_ne_zero]
      have : (2 * rest : ℚ) = denominator := by exact_mod_cast htie
      linarith
    rw [hhalf]
    by_cases hodd : whole % 2 = 1
    · rw [if_pos (Or.inr ⟨htie, hodd⟩)]
      refine ⟨by rw [Nat.cast_add, Nat.cast_one, abs_le]; constructor <;> linarith, fun _ => ?_⟩
      exact Nat.even_iff.2 (by omega)
    · rw [if_neg (by omega)]
      refine ⟨by rw [add_sub_cancel_left, abs_of_pos (by norm_num)], fun _ => ?_⟩
      exact Nat.even_iff.2 (by omega)
  · rw [if_pos (Or.inl habove)]
    have hhalf : 1 / 2 < (rest : ℚ) / denominator := by
      rw [div_lt_div_iff₀ two_pos hpos]
      have : (denominator : ℚ) < 2 * rest := by exact_mod_cast habove
      linarith
    have hone : (rest : ℚ) / denominator < 1 := by
      rw [div_lt_one hpos]
      exact_mod_cast hlt
    refine isNearest_of_lt ?_
    rw [Nat.cast_add, Nat.cast_one, abs_lt]
    constructor <;> linarith

namespace Binary64

/-! ## Powers of two -/

/-- A scaled ratio is the ratio in units of the power of two. -/
theorem unscale_spec (numerator : ℕ) {denominator : ℕ} (h : 0 < denominator) (exponent : ℤ) :
    0 < (unscale numerator denominator exponent).2 ∧
      ((unscale numerator denominator exponent).1 : ℚ) /
          (unscale numerator denominator exponent).2 =
        (numerator : ℚ) / denominator / 2 ^ exponent := by
  rw [unscale]
  split
  · rename_i hneg
    have hexponent : exponent = -(exponent.natAbs : ℤ) := by omega
    refine ⟨h, ?_⟩
    rw [hexponent, zpow_neg, zpow_natCast, div_inv_eq_mul, Int.natAbs_neg, Int.natAbs_natCast,
      Nat.pow_eq, Nat.cast_mul, Nat.cast_pow, Nat.cast_ofNat, div_mul_eq_mul_div]
  · rename_i hneg
    have hexponent : exponent = (exponent.natAbs : ℤ) := by omega
    refine ⟨Nat.mul_pos h (Nat.pow_pos two_pos), ?_⟩
    rw [hexponent, zpow_natCast, div_div, Int.natAbs_natCast, Nat.pow_eq, Nat.cast_mul,
      Nat.cast_pow, Nat.cast_ofNat]

section Ratio

variable {numerator denominator : ℕ} (hn : 0 < numerator) (hd : 0 < denominator)

include hn hd

/-- The powers of two next to a positive ratio. -/
theorem binade_spec :
    (2 : ℚ) ^ binade numerator denominator ≤ (numerator : ℚ) / denominator ∧
      (numerator : ℚ) / denominator < 2 ^ (binade numerator denominator + 1) := by
  obtain ⟨guess, hguess⟩ : ∃ guess : ℤ, guess = (numerator.log2 : ℤ) - (denominator.log2 : ℤ) :=
    ⟨_, rfl⟩
  have hpower : ∀ i j : ℕ, (2 : ℚ) ^ ((i : ℤ) - j) = 2 ^ i / 2 ^ j := fun i j => by
    rw [zpow_sub₀ two_ne_zero, zpow_natCast, zpow_natCast]
  have hpos : (0 : ℚ) < denominator := by exact_mod_cast hd
  have hbelow : (2 : ℚ) ^ (guess - 1) < (numerator : ℚ) / denominator := by
    have hexponent : guess - 1 = (numerator.log2 : ℤ) - (denominator.log2 + 1 : ℕ) := by omega
    rw [hexponent, hpower]
    exact div_lt_div₀' (by exact_mod_cast Nat.log2_self_le hn.ne')
      (by exact_mod_cast Nat.lt_log2_self) (by exact_mod_cast hn) hpos
  have habove : (numerator : ℚ) / denominator < 2 ^ (guess + 1) := by
    have hexponent : guess + 1 = (numerator.log2 + 1 : ℕ) - (denominator.log2 : ℤ) := by omega
    rw [hexponent, hpower]
    exact div_lt_div₀ (by exact_mod_cast Nat.lt_log2_self)
      (by exact_mod_cast Nat.log2_self_le hd.ne') (by positivity) (by positivity)
  -- the scaled ratio is at least one exactly when the guess is not too large
  obtain ⟨hscaled, hratio⟩ := unscale_spec numerator hd guess
  have htest : (unscale numerator denominator guess).2 ≤ (unscale numerator denominator guess).1 ↔
      (2 : ℚ) ^ guess ≤ (numerator : ℚ) / denominator := by
    rw [← one_le_div (by positivity : (0 : ℚ) < 2 ^ guess), ← hratio,
      one_le_div (by exact_mod_cast hscaled), Nat.cast_le]
  have hbinade : binade numerator denominator =
      if (unscale numerator denominator guess).2 ≤ (unscale numerator denominator guess).1
        then guess else guess - 1 := by
    rw [binade, hguess]
  rw [hbinade]
  split
  · rename_i hle
    exact ⟨htest.1 hle, habove⟩
  · rename_i hlt
    rw [htest, not_le] at hlt
    exact ⟨hbelow.le, by rwa [sub_add_cancel]⟩

end Ratio

/-! ## The nearest value -/

/-- A finite value without a sign, and the rational that it stands for. -/
def Represents (x : Binary64) (q : ℚ) : Prop :=
  ∃ significand exponent, x = .finite false significand exponent ∧
    (significand : ℚ) * 2 ^ exponent = q

/-- The exponent of the power of two whose multiples a positive ratio is rounded to. -/
def unitExponent (numerator denominator : ℕ) : ℤ :=
  max (binade numerator denominator - (precision - 1)) leastExponent

theorem represents_zero : (Binary64.finite false 0 leastExponent).Represents 0 :=
  ⟨0, leastExponent, rfl, by simp⟩

/-- Carrying into a new bit keeps the value. -/
theorem represents_normalize {significand : ℕ} {exponent : ℤ} (hfits : significand ≤ 2 ^ precision)
    (hlimit : exponent < exponentLimit) :
    (normalize false significand exponent).Represents (significand * 2 ^ exponent) := by
  rw [normalize]
  by_cases hcarry : Nat.pow 2 precision ≤ significand
  · obtain rfl : significand = 2 ^ precision := Nat.le_antisymm hfits hcarry
    simp only [hcarry, if_true, if_neg (by omega : ¬ exponentLimit < exponent + 1)]
    refine ⟨2 ^ precision / 2, exponent + 1, rfl, ?_⟩
    rw [zpow_add_one₀ two_ne_zero, precision]
    norm_num
    ring
  · simp only [hcarry, if_false, if_neg (by omega : ¬ exponentLimit < exponent)]
    exact ⟨significand, exponent, rfl, rfl⟩

section Ratio

variable {numerator denominator : ℕ} (hn : 0 < numerator) (hd : 0 < denominator)
  (hlimit : (numerator : ℚ) / denominator < 2 ^ 1023)

include hn hd hlimit

/-- A ratio that is not too large is rounded to the nearest multiple of its power of two. -/
theorem exists_ofRatio : ∃ units,
    IsNearest ((numerator : ℚ) / denominator / 2 ^ unitExponent numerator denominator) units ∧
      (ofRatio false numerator denominator).Represents
        (units * 2 ^ unitExponent numerator denominator) := by
  obtain ⟨hbelow, habove⟩ := binade_spec hn hd
  obtain ⟨hscaled, hratio⟩ :=
    unscale_spec numerator hd (unitExponent numerator denominator)
  have hnearest := isNearest_roundQuotient
    (unscale numerator denominator (unitExponent numerator denominator)).1 hscaled
  rw [hratio] at hnearest
  refine ⟨_, hnearest, ?_⟩
  have hround : ofRatio false numerator denominator = normalize false
      (roundQuotient (unscale numerator denominator (unitExponent numerator denominator)).1
        (unscale numerator denominator (unitExponent numerator denominator)).2)
      (unitExponent numerator denominator) := by
    rw [ofRatio, if_neg hn.ne', unitExponent]
  rw [hround]
  refine represents_normalize ?_ ?_
  · -- the ratio is below the next power of two, and so is no nearest natural above it
    have hunits : (numerator : ℚ) / denominator / 2 ^ unitExponent numerator denominator <
        2 ^ precision := by
      rw [div_lt_iff₀ (by positivity), ← zpow_natCast, ← zpow_add₀ two_ne_zero]
      refine habove.trans_le (zpow_le_zpow_right₀ one_le_two ?_)
      rw [unitExponent]
      omega
    have hnear := (abs_le.1 hnearest.near).1
    have hlt : ((roundQuotient
        (unscale numerator denominator (unitExponent numerator denominator)).1
        (unscale numerator denominator (unitExponent numerator denominator)).2 : ℕ) : ℚ) <
          (2 ^ precision + 1 : ℕ) := by
      push_cast
      linarith
    exact Nat.lt_succ_iff.1 (by exact_mod_cast hlt)
  · have hbinade : (2 : ℚ) ^ binade numerator denominator < 2 ^ (1023 : ℤ) :=
      hbelow.trans_lt (by exact_mod_cast hlimit)
    rw [zpow_lt_zpow_iff_right₀ one_lt_two] at hbinade
    rw [unitExponent, precision, leastExponent, exponentLimit]
    omega

/-- A ratio that is a small enough natural times a power of two is represented exactly. -/
theorem represents_ofRatio {significand : ℕ} {exponent : ℤ} (hsmall : significand < 2 ^ precision)
    (hleast : leastExponent ≤ exponent)
    (hratio : (numerator : ℚ) / denominator = significand * 2 ^ exponent) :
    (ofRatio false numerator denominator).Represents ((numerator : ℚ) / denominator) := by
  obtain ⟨units, hnearest, hvalue⟩ := exists_ofRatio hn hd hlimit
  -- the unit is not above the power of two, so the ratio is a multiple of the unit
  have hunit : unitExponent numerator denominator ≤ exponent := by
    have hbinade : (2 : ℚ) ^ binade numerator denominator < 2 ^ (precision + exponent) := by
      refine (binade_spec hn hd).1.trans_lt ?_
      rw [hratio, zpow_add₀ two_ne_zero, zpow_natCast]
      exact mul_lt_mul_of_pos_right (by exact_mod_cast hsmall) (by positivity)
    rw [zpow_lt_zpow_iff_right₀ one_lt_two] at hbinade
    rw [unitExponent]
    omega
  obtain ⟨shift, hshift⟩ := Int.le.dest hunit
  have hmultiple : (numerator : ℚ) / denominator / 2 ^ unitExponent numerator denominator =
      (significand * 2 ^ shift : ℕ) := by
    rw [hratio, ← hshift, zpow_add₀ two_ne_zero, zpow_natCast]
    push_cast
    field_simp
  have hunits : units = significand * 2 ^ shift :=
    hnearest.unique (hmultiple ▸ isNearest_natCast _)
  rwa [hunits, ← hmultiple, div_mul_cancel₀ _ (by positivity)] at hvalue

/-- A ratio that is neither too large nor too small is represented to 53 significant bits. -/
theorem exists_near_ofRatio (hleast : 2 ^ (-1022 : ℤ) ≤ (numerator : ℚ) / denominator) :
    ∃ value, (ofRatio false numerator denominator).Represents value ∧
      |(numerator : ℚ) / denominator - value| ≤ (numerator : ℚ) / denominator / 2 ^ precision := by
  obtain ⟨units, hnearest, hvalue⟩ := exists_ofRatio hn hd hlimit
  refine ⟨_, hvalue, ?_⟩
  obtain ⟨hbelow, habove⟩ := binade_spec hn hd
  have hunit : unitExponent numerator denominator + precision =
      binade numerator denominator + 1 := by
    have hbinade := hleast.trans_lt habove
    rw [zpow_lt_zpow_iff_right₀ one_lt_two] at hbinade
    rw [unitExponent, precision, leastExponent]
    omega
  have hpos : (0 : ℚ) < 2 ^ unitExponent numerator denominator := by positivity
  calc |(numerator : ℚ) / denominator - units * 2 ^ unitExponent numerator denominator|
      = |(numerator : ℚ) / denominator / 2 ^ unitExponent numerator denominator - units| *
          2 ^ unitExponent numerator denominator := by
        rw [← abs_of_pos hpos, ← abs_mul, abs_of_pos hpos, sub_mul, div_mul_cancel₀ _ hpos.ne']
    _ ≤ 1 / 2 * 2 ^ unitExponent numerator denominator :=
        mul_le_mul_of_nonneg_right hnearest.near hpos.le
    _ = 2 ^ binade numerator denominator / 2 ^ precision := by
        rw [eq_div_iff (by positivity), mul_assoc, ← zpow_natCast, ← zpow_add₀ two_ne_zero, hunit,
          zpow_add_one₀ two_ne_zero]
        ring
    _ ≤ (numerator : ℚ) / denominator / 2 ^ precision :=
        div_le_div_of_nonneg_right hbelow (by positivity)

end Ratio

/-! ## Decimal places -/

variable {x : Binary64} {q : ℚ} {places n : ℕ}

theorem represents_iff_ratio {negative : Bool} {significand : ℕ} {exponent : ℤ} :
    (Binary64.finite negative significand exponent).Represents q ↔ negative = false ∧
      0 < (ratio significand exponent).2 ∧
        ((ratio significand exponent).1 : ℚ) / (ratio significand exponent).2 = q := by
  obtain ⟨hpos, hratio⟩ := unscale_spec significand one_pos (-exponent)
  rw [Nat.cast_one, div_one, zpow_neg, div_inv_eq_mul] at hratio
  rw [ratio, hratio]
  constructor
  · rintro ⟨significand', exponent', hsame, rfl⟩
    cases hsame
    exact ⟨rfl, hpos, rfl⟩
  · rintro ⟨rfl, -, rfl⟩
    exact ⟨significand, exponent, rfl, rfl⟩

/-- A value is written with the places of the nearest multiple of the last of them. -/
theorem Represents.fixed_eq (hx : x.Represents q) (hn : IsNearest (q * 10 ^ places) n) :
    x.fixed places = withPlaces places n := by
  obtain ⟨significand, exponent, rfl, -⟩ := id hx
  obtain ⟨-, hpos, rfl⟩ := represents_iff_ratio.1 hx
  have hround := isNearest_roundQuotient
    ((ratio significand exponent).1 * Nat.pow 10 places) hpos
  rw [Nat.pow_eq, Nat.cast_mul, Nat.cast_pow, Nat.cast_ofNat, ← div_mul_eq_mul_div] at hround
  have hfixed : (Binary64.finite false significand exponent).fixed places =
      fixedRatio places (ratio significand exponent).1 (ratio significand exponent).2 := rfl
  rw [hfixed, fixedRatio, hn.unique hround, Nat.pow_eq]

/-- A value is rounded to the value nearest to the nearest multiple of its last place. -/
theorem Represents.roundedTo_eq (hx : x.Represents q) (hn : IsNearest (q * 10 ^ places) n) :
    x.roundedTo places = ofRatio false n (10 ^ places) := by
  obtain ⟨significand, exponent, rfl, -⟩ := id hx
  obtain ⟨-, hpos, rfl⟩ := represents_iff_ratio.1 hx
  have hround := isNearest_roundQuotient
    ((ratio significand exponent).1 * Nat.pow 10 places) hpos
  rw [Nat.pow_eq, Nat.cast_mul, Nat.cast_pow, Nat.cast_ofNat, ← div_mul_eq_mul_div] at hround
  rw [Binary64.roundedTo, hn.unique hround]
  rfl

/-- What a value is rounded to is written with just the places that it was rounded to, though it
need not be a multiple of the last of them. -/
theorem Represents.fixed_roundedTo (hx : x.Represents q) (hn : IsNearest (q * 10 ^ places) n)
    (hsmall : n < 2 ^ (precision - 1)) (hplaces : 10 ^ places ≤ 2 ^ precision) :
    (x.roundedTo places).fixed places = withPlaces places n := by
  rw [hx.roundedTo_eq hn]
  have hpower : (0 : ℚ) < 10 ^ places := by positivity
  rcases Nat.eq_zero_or_pos n with rfl | hpos
  · rw [ofRatio, if_pos rfl]
    exact represents_zero.fixed_eq (by simpa using isNearest_natCast 0)
  · have hpos' : (1 : ℚ) ≤ n := by exact_mod_cast hpos
    have hcast : ((10 ^ places : ℕ) : ℚ) = 10 ^ places := by push_cast; rfl
    have hbound : (n : ℚ) < 2 ^ (precision - 1) := by exact_mod_cast hsmall
    have hlimit : (n : ℚ) / (10 ^ places : ℕ) < 2 ^ 1023 := by
      rw [hcast, div_lt_iff₀ hpower]
      calc (n : ℚ) < 2 ^ (precision - 1) := hbound
        _ ≤ 2 ^ 1023 := pow_le_pow_right₀ one_le_two (by decide)
        _ ≤ 2 ^ 1023 * 10 ^ places :=
          le_mul_of_one_le_right (by positivity) (one_le_pow₀ (by norm_num))
    have hleast : 2 ^ (-1022 : ℤ) ≤ (n : ℚ) / (10 ^ places : ℕ) := by
      rw [hcast, le_div_iff₀ hpower, zpow_neg, inv_mul_le_iff₀ (by positivity)]
      calc (10 : ℚ) ^ places ≤ 2 ^ precision := by exact_mod_cast hplaces
        _ ≤ 2 ^ (1022 : ℤ) := pow_le_pow_right₀ one_le_two (by decide)
        _ ≤ 2 ^ (1022 : ℤ) * n := le_mul_of_one_le_right (by positivity) hpos'
    obtain ⟨value, hvalue, hnear⟩ := exists_near_ofRatio hpos (by positivity) hlimit hleast
    refine hvalue.fixed_eq (isNearest_of_lt ?_)
    rw [hcast] at hnear
    -- the error is far less than half a unit of the last place
    calc |value * 10 ^ places - n| = |(n : ℚ) / 10 ^ places - value| * 10 ^ places := by
          rw [← abs_of_pos hpower, ← abs_mul, abs_of_pos hpower, sub_mul,
            div_mul_cancel₀ _ hpower.ne', abs_sub_comm]
      _ ≤ (n : ℚ) / 10 ^ places / 2 ^ precision * 10 ^ places :=
          mul_le_mul_of_nonneg_right hnear hpower.le
      _ = n / 2 ^ precision := by field_simp
      _ < 1 / 2 := by
          have hdouble : (2 : ℚ) ^ precision = 2 ^ (precision - 1) * 2 := by
            rw [precision]
            norm_num
          rw [div_lt_div_iff₀ (by positivity) two_pos, one_mul, hdouble]
          exact mul_lt_mul_of_pos_right hbound two_pos

end Binary64

end Minifier
