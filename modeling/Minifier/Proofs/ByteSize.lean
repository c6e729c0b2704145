import Mathlib.Data.List.DropRight
import Minifier.ByteSize
import Minifier.Proofs.Decimal.Nearest

/-!
# Sizes are shown as they are

A short decimal has no zero behind its point that it could do without, and no point that nothing
follows (`IsShortDecimal`). Every decimal of some places becomes a short one of the same value when
the zeros at its end are dropped (`isShortDecimal_dropTrailingZeros`). A size that is shown in
kilobytes or megabytes is its exact quotient, rounded to hundredths with ties to even and written as
a short decimal (`byteSizeText_shows_hundredths`).
-/

set_option autoImplicit false

namespace Minifier

/-! ## Short decimals -/

/-- The value of digits behind a point. -/
def fractionValue (places : List Char) : ℚ :=
  Nat.ofDigitChars 10 places 0 / 10 ^ places.length

/-- A text that writes a rational shortly: all digits of a natural, and, if there are any, further
digits behind a point, the last of which is not zero. -/
inductive IsShortDecimal : List Char → ℚ → Prop
  | whole (n : ℕ) : IsShortDecimal (Nat.toDigits 10 n) n
  | pointed (n : ℕ) (places : List Char) (isDigit : ∀ c ∈ places, c.isDigit = true)
      (ne_nil : places ≠ []) (last : places.getLast ne_nil ≠ '0') :
      IsShortDecimal (Nat.toDigits 10 n ++ '.' :: places) (n + fractionValue places)

theorem fractionValue_concat_zero (places : List Char) :
    fractionValue (places ++ ['0']) = fractionValue places := by
  have hzero : Nat.ofDigitChars 10 ['0'] (Nat.ofDigitChars 10 places 0) =
      10 * Nat.ofDigitChars 10 places 0 := by
    simpa using Nat.ofDigitChars_replicate_zero (n := 1)
  rw [fractionValue, fractionValue, Nat.ofDigitChars_append, hzero, List.length_append,
    List.length_singleton, pow_succ, Nat.cast_mul, Nat.cast_ofNat, mul_comm (10 : ℚ),
    mul_div_mul_right _ _ (by norm_num)]

/-- Zeros at the end of the digits behind a point have no value. -/
theorem fractionValue_rdropWhile (places : List Char) :
    fractionValue (places.rdropWhile (· == '0')) = fractionValue places := by
  induction places using List.reverseRecOn with
  | nil => rfl
  | append_singleton places c ih =>
    by_cases hc : c = '0'
    · rw [hc, List.rdropWhile_concat_pos _ _ _ rfl, ih, fractionValue_concat_zero]
    · rw [List.rdropWhile_concat_neg _ _ _ (by simpa using hc)]

/-- Dropping zeros stops in front of the point, which goes when nothing is left behind it. -/
theorem dropTrailingZeros_append (whole : List Char) {places : List Char}
    (hplaces : ∀ c ∈ places, c.isDigit = true) :
    dropTrailingZeros (whole ++ '.' :: places) =
      if places.rdropWhile (· == '0') = [] then whole
      else whole ++ '.' :: places.rdropWhile (· == '0') := by
  obtain ⟨kept, hkept⟩ : ∃ kept, kept = places.reverse.dropWhile (· == '0') := ⟨_, rfl⟩
  have hrdrop : places.rdropWhile (· == '0') = kept.reverse := by rw [List.rdropWhile, hkept]
  have hdrop : (whole ++ '.' :: places).reverse.dropWhile (· == '0') =
      kept ++ '.' :: whole.reverse := by
    rw [List.reverse_append, List.reverse_cons, List.append_assoc, List.dropWhile_append, ← hkept]
    cases kept with
    | nil => rfl
    | cons c kept => rfl
  rw [dropTrailingZeros, hdrop, hrdrop]
  cases hcases : kept with
  | nil => simp
  | cons c rest =>
    have hc : c.isDigit = true := by
      refine hplaces c (List.mem_reverse.1 ((List.dropWhile_sublist (· == '0')).subset ?_))
      rw [← hkept, hcases]
      exact List.mem_cons_self
    rw [if_neg (by simp), List.cons_append]
    split
    · rename_i hpoint
      -- a point is no digit
      obtain ⟨rfl, -⟩ := List.cons.inj hpoint
      cases hc
    · simp

/-- As many digits as there are places, whose value is the number of units of the last place. -/
theorem paddedDigits_spec {places units : ℕ} (hplaces : 0 < places) (hunits : units < 10 ^ places) :
    (∀ c ∈ paddedDigits places units, c.isDigit = true) ∧
      (paddedDigits places units).length = places ∧
      Nat.ofDigitChars 10 (paddedDigits places units) 0 = units := by
  have hlength := (Nat.length_toDigits_le_iff (b := 10) (by norm_num) hplaces).2 hunits
  rw [paddedDigits]
  refine ⟨fun c hc => ?_, ?_, ?_⟩
  · rcases List.mem_append.1 hc with hzero | hdigit
    · rw [List.eq_of_mem_replicate hzero]
      rfl
    · exact Nat.isDigit_of_mem_toDigits (by norm_num) le_rfl hdigit
  · rw [List.length_append, List.length_replicate, Nat.sub_add_cancel hlength]
  · rw [Nat.ofDigitChars_append, Nat.ofDigitChars_replicate_zero, mul_zero,
      Nat.ofDigitChars_ten_toDigits]

/-- A number of units of the last place is written shortly when the zeros at its end are dropped. -/
theorem isShortDecimal_dropTrailingZeros {places : ℕ} (hplaces : 0 < places) (units : ℕ) :
    IsShortDecimal (dropTrailingZeros (withPlaces places units)) (units / 10 ^ places) := by
  obtain ⟨hdigits, hlength, hvalue⟩ :=
    paddedDigits_spec hplaces (Nat.mod_lt units (Nat.pow_pos (by norm_num : 0 < 10)))
  obtain ⟨kept, hkept⟩ : ∃ kept, kept =
      (paddedDigits places (units % 10 ^ places)).rdropWhile (· == '0') := ⟨_, rfl⟩
  have hfraction : fractionValue kept = (units % 10 ^ places : ℕ) / 10 ^ places := by
    rw [hkept, fractionValue_rdropWhile, fractionValue, hlength, hvalue]
  have hsplit : (units : ℚ) / 10 ^ places = (units / 10 ^ places : ℕ) + fractionValue kept := by
    rw [hfraction, div_eq_iff (by positivity), add_mul, div_mul_cancel₀ _ (by positivity)]
    exact_mod_cast (Nat.div_add_mod' units (10 ^ places)).symm
  have hwhole : paddedDigits 1 (units / 10 ^ places) = Nat.toDigits 10 (units / 10 ^ places) := by
    rw [paddedDigits, Nat.sub_eq_zero_of_le Nat.length_toDigits_pos]
    rfl
  rw [withPlaces, Nat.pow_eq, hwhole, dropTrailingZeros_append _ hdigits, ← hkept, hsplit]
  split
  · rename_i hnone
    rw [hnone, fractionValue]
    simpa using IsShortDecimal.whole (units / 10 ^ places)
  · rename_i hsome
    refine .pointed _ kept (fun c hc => ?_) hsome ?_
    · rw [hkept] at hc
      exact hdigits c ((List.rdropWhile_prefix (· == '0') _).subset hc)
    · subst hkept
      simpa using List.rdropWhile_last_not _ _ hsome

/-! ## Sizes -/

/-- A size below `2 ^ 53` in units of a power of two is exact before it is rounded. -/
theorem exists_inUnit {size : ℕ} (shift : ℕ) (hpos : 0 < size) (hsize : size < 2 ^ 53)
    (hshift : 10 ≤ shift) (hunit : shift ≤ 1000) : ∃ text hundredths,
      inUnit size (2 ^ shift) = .ok (String.ofList text) ∧
        IsNearest ((size : ℚ) / 2 ^ shift * 10 ^ sizePlaces) hundredths ∧
        IsShortDecimal text (hundredths / 10 ^ sizePlaces) := by
  have hcast : ((2 ^ shift : ℕ) : ℚ) = 2 ^ shift := by push_cast; rfl
  have hunitPos : 0 < 2 ^ shift := by positivity
  have hbound : (size : ℚ) / (2 ^ shift : ℕ) < 2 ^ 43 := by
    rw [hcast, div_lt_iff₀ (by positivity)]
    calc (size : ℚ) < 2 ^ 53 := by exact_mod_cast hsize
      _ = 2 ^ 43 * 2 ^ 10 := by norm_num
      _ ≤ 2 ^ 43 * 2 ^ shift :=
        mul_le_mul_of_nonneg_left (pow_le_pow_right₀ one_le_two hshift) (by positivity)
  have hlimit : (size : ℚ) / (2 ^ shift : ℕ) < 2 ^ 1023 :=
    hbound.trans_le (pow_le_pow_right₀ one_le_two (by norm_num))
  have hratio : (size : ℚ) / (2 ^ shift : ℕ) = size * 2 ^ (-(shift : ℤ)) := by
    rw [hcast, zpow_neg, zpow_natCast, div_eq_mul_inv]
  -- the size itself is the significand
  have hexact := Binary64.represents_ofRatio hpos hunitPos hlimit hsize
    (by rw [Binary64.leastExponent]; omega) hratio
  rw [hcast] at hexact hbound
  obtain ⟨hundredths, hnearest⟩ : ∃ hundredths,
      IsNearest ((size : ℚ) / 2 ^ shift * 10 ^ sizePlaces) hundredths := by
    have hround := isNearest_roundQuotient (size * 10 ^ sizePlaces) hunitPos
    rw [Nat.cast_mul, Nat.cast_pow, Nat.cast_ofNat, hcast, ← div_mul_eq_mul_div] at hround
    exact ⟨_, hround⟩
  have hsmall : hundredths < 2 ^ (Binary64.precision - 1) := by
    have hnear := (abs_le.1 hnearest.near).1
    have hlt : (hundredths : ℚ) < 2 ^ 52 := by
      rw [sizePlaces] at hnear
      linarith
    exact_mod_cast hlt
  have hfixed := hexact.fixed_roundedTo hnearest hsmall (by decide)
  obtain ⟨significand, exponent, hfinite, -⟩ := id hexact
  refine ⟨_, hundredths, ?_, hnearest, isShortDecimal_dropTrailingZeros (by decide) hundredths⟩
  rw [inUnit, hfixed, hfinite]
  rfl

/-- A size that is shown in kilobytes or megabytes is its exact quotient, rounded to hundredths with
ties to even, and written with all digits of its whole part and without a zero at its end. -/
theorem byteSizeText_shows_hundredths {size : ℤ} (hleast : 1024 ≤ size) (hsize : size < 2 ^ 53) :
    ∃ text hundredths,
      byteSizeText size = .ok (String.ofList text ++ if size < 1024 ^ 2 then " KB" else " MB") ∧
        IsNearest ((size : ℚ) / (if size < 1024 ^ 2 then 1024 else 1024 ^ 2) * 100) hundredths ∧
        IsShortDecimal text (hundredths / 100) := by
  obtain ⟨n, rfl⟩ := Int.eq_ofNat_of_zero_le (by omega : 0 ≤ size)
  have hplaces : (10 : ℚ) ^ sizePlaces = 100 := by
    rw [sizePlaces]
    norm_num
  have hpos : 0 < n := by omega
  have hn : n < 2 ^ 53 := by omega
  rw [byteSizeText, if_neg (by omega), Int.natAbs_natCast]
  by_cases hunit : (n : ℤ) < 1024 ^ 2
  · obtain ⟨text, hundredths, htext, hnearest, hshort⟩ :=
      exists_inUnit 10 hpos hn le_rfl (by norm_num)
    rw [hplaces] at hnearest hshort
    refine ⟨text, hundredths, ?_, ?_, hshort⟩
    · rw [if_pos (by omega), if_pos hunit, show 1024 = 2 ^ 10 by norm_num, htext]
      rfl
    · rw [if_pos hunit]
      norm_num at hnearest ⊢
      exact hnearest
  · obtain ⟨text, hundredths, htext, hnearest, hshort⟩ :=
      exists_inUnit 20 hpos hn (by norm_num) (by norm_num)
    rw [hplaces] at hnearest hshort
    refine ⟨text, hundredths, ?_, ?_, hshort⟩
    · rw [if_neg (by omega), if_neg hunit, show 1024 * 1024 = 2 ^ 20 by norm_num, htext]
      rfl
    · rw [if_neg hunit]
      norm_num at hnearest ⊢
      exact hnearest

/-- A tie goes to the even hundredth. -/
theorem byteSizeText_shows_hundredths_tie : ∃ text hundredths,
    byteSizeText 1152 = .ok (String.ofList text ++ if (1152 : ℤ) < 1024 ^ 2 then " KB" else " MB") ∧
      IsNearest (((1152 : ℤ) : ℚ) / (if (1152 : ℤ) < 1024 ^ 2 then 1024 else 1024 ^ 2) * 100)
        hundredths ∧
      IsShortDecimal text (hundredths / 100) :=
  byteSizeText_shows_hundredths (by decide) (by decide)

end Minifier
