import Minifier.Proofs.Decimal.Nearest

/-!
# Rounding keeps the order

A ratio is rounded to a multiple of a power of two, its unit, which depends on the size of the ratio
alone (`Binary64.HasUnit`). So rounding is a relation of rationals, `Binary64.Rounds`, and a larger
rational is rounded to no smaller one (`Binary64.Rounds.mono`): either both have the same unit, or a
power of two that is a multiple of both units separates them. The operations on binary
floating-point numbers round the exact results (`Binary64.Represents.mul`,
`Binary64.Represents.divNat`).
-/

set_option autoImplicit false

namespace Minifier

/-- A larger rational has no smaller nearest natural. -/
theorem IsNearest.mono {q r : ℚ} {m n : ℕ} (hm : IsNearest q m) (hn : IsNearest r n) (h : q ≤ r) :
    m ≤ n := by
  by_contra hlt
  have hgap : (n : ℚ) + 1 ≤ m := by exact_mod_cast Nat.lt_of_not_le hlt
  obtain ⟨hm₁, -⟩ := abs_le.1 hm.near
  obtain ⟨-, hn₂⟩ := abs_le.1 hn.near
  -- only one rational, halfway between, is that near to both
  obtain rfl : q = r := by linarith
  exact hlt (hm.le hn)

namespace Binary64

variable {x y : Binary64} {q r value value' : ℚ} {unit unit' : ℤ}

/-! ## Units -/

/-- A rational that is no negative number is a multiple of the unit with 53 bits at most, and with
so many where the unit is not the least one, but for what is left over. -/
structure HasUnit (q : ℚ) (unit : ℤ) : Prop where
  least_le : leastExponent ≤ unit
  lt_pow : q < 2 ^ (unit + precision)
  least_or : unit = leastExponent ∨ 2 ^ (unit + precision - 1) ≤ q

/-- A larger rational has no smaller unit. -/
theorem HasUnit.mono (hq : HasUnit q unit) (hr : HasUnit r unit') (h : q ≤ r) : unit ≤ unit' := by
  rcases hq.least_or with hleast | hpow
  · rw [hleast]
    exact hr.least_le
  · have hlt := (hpow.trans h).trans_lt hr.lt_pow
    rw [zpow_lt_zpow_iff_right₀ one_lt_two] at hlt
    omega

/-- A rational with a smaller unit is below the least one with the larger unit. -/
theorem HasUnit.pow_le (hq : HasUnit q unit) (hr : HasUnit r unit') (hlt : unit < unit') :
    q < 2 ^ (unit' + precision - 1) ∧ 2 ^ (unit' + precision - 1) ≤ r := by
  constructor
  · exact hq.lt_pow.trans_le (zpow_le_zpow_right₀ one_le_two (by omega))
  · rcases hr.least_or with hleast | hpow
    · exact absurd hq.least_le (by omega)
    · exact hpow

theorem hasUnit_unitExponent {numerator denominator : ℕ} (hn : 0 < numerator)
    (hd : 0 < denominator) :
    HasUnit ((numerator : ℚ) / denominator) (unitExponent numerator denominator) := by
  obtain ⟨hbelow, habove⟩ := binade_spec hn hd
  refine ⟨le_max_right _ _, habove.trans_le ?_, ?_⟩
  · apply zpow_le_zpow_right₀ one_le_two
    rw [unitExponent]
    omega
  · rcases le_total (binade numerator denominator - (precision - 1)) leastExponent with hle | hle
    · exact .inl (max_eq_right hle)
    · right
      have hunit : unitExponent numerator denominator + precision - 1 =
          binade numerator denominator := by
        rw [unitExponent, max_eq_left hle]
        omega
      rw [hunit]
      exact hbelow

/-! ## Rounding -/

/-- A rational is rounded to the nearest multiple of its unit. -/
def Rounds (q value : ℚ) : Prop :=
  ∃ unit units, HasUnit q unit ∧ IsNearest (q / 2 ^ unit) units ∧ value = units * 2 ^ unit

/-- A power of two that is a multiple of a unit is the nearest multiple to itself. -/
theorem isNearest_two_zpow {exponent : ℤ} (h : unit ≤ exponent) :
    IsNearest ((2 : ℚ) ^ exponent / 2 ^ unit) (2 ^ (exponent - unit).toNat) := by
  have hpow : (2 : ℚ) ^ exponent / 2 ^ unit = (2 ^ (exponent - unit).toNat : ℕ) := by
    rw [← zpow_sub₀ two_ne_zero, Nat.cast_pow, Nat.cast_ofNat, ← zpow_natCast,
      Int.toNat_of_nonneg (by omega)]
  rw [hpow]
  exact isNearest_natCast _

/-- A larger rational is rounded to no smaller one. -/
theorem Rounds.mono (hq : Rounds q value) (hr : Rounds r value') (h : q ≤ r) : value ≤ value' := by
  obtain ⟨unit, units, hunit, hnear, rfl⟩ := hq
  obtain ⟨unit', units', hunit', hnear', rfl⟩ := hr
  have hpos : (0 : ℚ) < 2 ^ unit := by positivity
  have hpos' : (0 : ℚ) < 2 ^ unit' := by positivity
  rcases (hunit.mono hunit' h).eq_or_lt with rfl | hlt
  · have hle := hnear.mono hnear' (div_le_div_of_nonneg_right h hpos.le)
    exact mul_le_mul_of_nonneg_right (by exact_mod_cast hle) hpos.le
  · -- a power of two between the rationals is a multiple of both units
    obtain ⟨hbelow, habove⟩ := hunit.pow_le hunit' hlt
    obtain ⟨exponent, hexponent⟩ : ∃ exponent : ℤ, exponent = unit' + precision - 1 := ⟨_, rfl⟩
    rw [← hexponent] at hbelow habove
    have hle : unit ≤ exponent := by
      rw [hexponent, precision]
      omega
    have hle' : unit' ≤ exponent := by
      rw [hexponent, precision]
      omega
    have hcast : ∀ {u : ℤ}, u ≤ exponent →
        ((2 ^ (exponent - u).toNat : ℕ) : ℚ) * 2 ^ u = 2 ^ exponent := by
      intro u hu
      rw [Nat.cast_pow, Nat.cast_ofNat, ← zpow_natCast, Int.toNat_of_nonneg (by omega),
        ← zpow_add₀ two_ne_zero, sub_add_cancel]
    have hunits := hnear.mono (isNearest_two_zpow hle)
      (div_le_div_of_nonneg_right hbelow.le hpos.le)
    have hunits' := (isNearest_two_zpow hle').mono hnear'
      (div_le_div_of_nonneg_right habove hpos'.le)
    calc (units : ℚ) * 2 ^ unit
        ≤ ((2 ^ (exponent - unit).toNat : ℕ) : ℚ) * 2 ^ unit :=
          mul_le_mul_of_nonneg_right (by exact_mod_cast hunits) hpos.le
      _ = ((2 ^ (exponent - unit').toNat : ℕ) : ℚ) * 2 ^ unit' := by rw [hcast hle, hcast hle']
      _ ≤ units' * 2 ^ unit' :=
          mul_le_mul_of_nonneg_right (by exact_mod_cast hunits') hpos'.le

theorem Rounds.unique (h : Rounds q value) (h' : Rounds q value') : value = value' :=
  le_antisymm (h.mono h' le_rfl) (h'.mono h le_rfl)

/-- The error is at most half a unit. -/
theorem Rounds.near (h : Rounds q value) {exponent : ℤ} (hq : q < 2 ^ exponent)
    (hleast : leastExponent + precision ≤ exponent) :
    |q - value| ≤ 2 ^ (exponent - precision - 1) := by
  obtain ⟨unit, units, hunit, hnear, rfl⟩ := h
  have hpos : (0 : ℚ) < 2 ^ unit := by positivity
  have hle : unit ≤ exponent - precision := by
    rcases hunit.least_or with rfl | hpow
    · omega
    · have hlt := hpow.trans_lt hq
      rw [zpow_lt_zpow_iff_right₀ one_lt_two] at hlt
      omega
  calc |q - units * 2 ^ unit| = |q / 2 ^ unit - units| * 2 ^ unit := by
        rw [← abs_of_pos hpos, ← abs_mul, abs_of_pos hpos, sub_mul, div_mul_cancel₀ _ hpos.ne']
    _ ≤ 1 / 2 * 2 ^ unit := mul_le_mul_of_nonneg_right hnear.near hpos.le
    _ = 2 ^ (unit - 1) := by
        rw [zpow_sub_one₀ two_ne_zero]
        ring
    _ ≤ 2 ^ (exponent - precision - 1) := zpow_le_zpow_right₀ one_le_two (by omega)

theorem rounds_zero : Rounds 0 0 :=
  ⟨leastExponent, 0, ⟨le_rfl, by positivity, .inl rfl⟩, by simpa using isNearest_natCast 0,
    by simp⟩

/-! ## Operations -/

theorem Represents.unique (h : x.Represents q) (h' : x.Represents r) : q = r := by
  obtain ⟨significand, exponent, rfl, rfl⟩ := h
  obtain ⟨significand', exponent', hsame, rfl⟩ := h'
  cases hsame
  rfl

/-- What represents a rational is a finite number. -/
theorem Represents.isInfinite_eq_false (h : x.Represents q) : x.isInfinite = false := by
  obtain ⟨significand, exponent, rfl, -⟩ := h
  rfl

theorem Represents.ne_notANumber (h : x.Represents q) : x ≠ .notANumber := by
  obtain ⟨significand, exponent, rfl, -⟩ := h
  exact Binary64.noConfusion

/-- A ratio that is not too large is rounded. -/
theorem rounds_ofRatio (numerator : ℕ) {denominator : ℕ} (hd : 0 < denominator)
    (hlimit : (numerator : ℚ) / denominator < 2 ^ 1023) :
    ∃ value, (ofRatio false numerator denominator).Represents value ∧
      Rounds ((numerator : ℚ) / denominator) value := by
  rcases Nat.eq_zero_or_pos numerator with rfl | hn
  · refine ⟨0, ?_, ?_⟩
    · rw [ofRatio, if_pos rfl]
      exact represents_zero
    · rw [Nat.cast_zero, zero_div]
      exact rounds_zero
  · obtain ⟨units, hnearest, hvalue⟩ := exists_ofRatio hn hd hlimit
    exact ⟨_, hvalue, _, units, hasUnit_unitExponent hn hd, hnearest, rfl⟩

/-- A natural of at most 53 bits is represented exactly. -/
theorem represents_ofInt {n : ℕ} (h : n < 2 ^ precision) : (ofInt n).Represents n := by
  have hneg : decide ((n : ℤ) < 0) = false := decide_eq_false (by omega)
  rw [ofInt, hneg, Int.natAbs_natCast]
  rcases Nat.eq_zero_or_pos n with rfl | hn
  · rw [ofRatio, if_pos rfl, Nat.cast_zero]
    exact represents_zero
  · have hlimit : (n : ℚ) / (1 : ℕ) < 2 ^ 1023 := by
      rw [Nat.cast_one, div_one]
      calc (n : ℚ) < 2 ^ precision := by exact_mod_cast h
        _ ≤ 2 ^ 1023 := pow_le_pow_right₀ one_le_two (by decide)
    have hvalue := represents_ofRatio hn one_pos hlimit h (show leastExponent ≤ 0 by decide)
      (by simp)
    rwa [Nat.cast_one, div_one] at hvalue

/-- Rounding keeps naturals of at most 53 bits. -/
theorem rounds_natCast {n : ℕ} (h : n < 2 ^ precision) : Rounds n n := by
  have hlimit : (n : ℚ) / (1 : ℕ) < 2 ^ 1023 := by
    rw [Nat.cast_one, div_one]
    calc (n : ℚ) < 2 ^ precision := by exact_mod_cast h
      _ ≤ 2 ^ 1023 := pow_le_pow_right₀ one_le_two (by decide)
  obtain ⟨value, hvalue, hrounds⟩ := rounds_ofRatio n one_pos hlimit
  have hneg : decide ((n : ℤ) < 0) = false := decide_eq_false (by omega)
  have hexact := represents_ofInt h
  rw [ofInt, hneg, Int.natAbs_natCast] at hexact
  rw [Nat.cast_one, div_one, hvalue.unique hexact] at hrounds
  exact hrounds

/-- The product of two values is the rounded exact product. -/
theorem Represents.mul (hx : x.Represents q) (hy : y.Represents r) (hlimit : q * r < 2 ^ 1023) :
    ∃ value, (x.mul y).Represents value ∧ Rounds (q * r) value := by
  obtain ⟨significand, exponent, rfl, -⟩ := id hx
  obtain ⟨significand', exponent', rfl, -⟩ := id hy
  obtain ⟨-, hpos, rfl⟩ := represents_iff_ratio.1 hx
  obtain ⟨-, hpos', rfl⟩ := represents_iff_ratio.1 hy
  rw [div_mul_div_comm, ← Nat.cast_mul, ← Nat.cast_mul] at hlimit ⊢
  exact rounds_ofRatio _ (Nat.mul_pos hpos hpos') hlimit

/-- The quotient of a value and a natural is the rounded exact quotient. -/
theorem Represents.divNat (hx : x.Represents q) {divisor : ℕ} (hdivisor : 0 < divisor)
    (hlimit : q / divisor < 2 ^ 1023) :
    ∃ value, (x.divNat divisor).Represents value ∧ Rounds (q / divisor) value := by
  obtain ⟨significand, exponent, rfl, -⟩ := id hx
  obtain ⟨-, hpos, rfl⟩ := represents_iff_ratio.1 hx
  rw [div_div, ← Nat.cast_mul] at hlimit ⊢
  exact rounds_ofRatio _ (Nat.mul_pos hpos hdivisor) hlimit

/-- A value is rounded to the nearest natural. -/
theorem Represents.exists_round? (hx : x.Represents q) :
    ∃ n : ℕ, x.round? = some (n : ℤ) ∧ IsNearest q n := by
  obtain ⟨significand, exponent, rfl, -⟩ := id hx
  obtain ⟨-, hpos, rfl⟩ := represents_iff_ratio.1 hx
  exact ⟨_, rfl, isNearest_roundQuotient _ hpos⟩

end Binary64

end Minifier
