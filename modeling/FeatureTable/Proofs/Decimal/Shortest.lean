import FeatureTable.Decimal.Shortest
import FeatureTable.Proofs.Decimal.Nearest

namespace FeatureTable.Decimal

/-! The digits that are written for a float lie in the interval of the float. -/

def Fraction.ratio (f : Fraction) : ℚ :=
  f.numerator / f.denominator

theorem Fraction.denominator_scale_pos {f : Fraction} (h : 0 < f.denominator) (power : Int) :
    0 < (f.scale power).denominator := by
  unfold scale
  split_ifs
  · exact h
  · exact Nat.mul_pos h (Nat.pow_pos (by decide))

theorem Fraction.ratio_scale (f : Fraction) (power : Int) :
    (f.scale power).ratio = f.ratio * 10 ^ power := by
  unfold scale ratio
  split_ifs with hpower
  · obtain ⟨k, rfl⟩ := Int.eq_ofNat_of_zero_le hpower
    simp only [Nat.pow_eq, Int.toNat_natCast, zpow_natCast]
    push_cast
    ring
  · obtain ⟨k, rfl⟩ := Int.exists_eq_neg_ofNat (not_le.mp hpower).le
    simp only [Nat.pow_eq, neg_neg, Int.toNat_natCast, zpow_neg, zpow_natCast]
    push_cast
    rw [div_mul_eq_div_div, div_eq_mul_inv _ ((10 : ℚ) ^ k)]

namespace Binary

variable {b : Binary} {d : Digits}

theorem denominator_quarters_pos (b : Binary) (quarters : Nat) :
    0 < (b.quarters quarters).denominator := by
  unfold Binary.quarters
  split_ifs
  · exact Nat.succ_pos 3
  · exact Nat.mul_pos (by decide) (Nat.pow_pos (by decide))

theorem ratio_quarters (b : Binary) (quarters : Nat) :
    (b.quarters quarters).ratio = quarters / 4 * 2 ^ b.exponent := by
  unfold Binary.quarters Fraction.ratio
  split_ifs with hexponent
  · obtain ⟨k, hk⟩ := Int.eq_ofNat_of_zero_le hexponent
    simp only [hk, Nat.pow_eq, Int.toNat_natCast, zpow_natCast]
    push_cast
    ring
  · obtain ⟨k, hk⟩ := Int.exists_eq_neg_ofNat (not_le.mp hexponent).le
    simp only [hk, Nat.pow_eq, neg_neg, Int.toNat_natCast, zpow_neg, zpow_natCast]
    push_cast
    rw [div_mul_eq_div_div, div_eq_mul_inv _ ((2 : ℚ) ^ k)]

def digitUnit (b : Binary) (d : Digits) : ℚ :=
  10 ^ d.exponent / 2 ^ b.exponent

theorem digitUnit_pos (b : Binary) (d : Digits) : 0 < b.digitUnit d :=
  div_pos (zpow_pos (by norm_num) _) (zpow_pos two_pos _)

theorem ratio_mul_digitUnit (b : Binary) (d : Digits) (quarters : Nat) :
    ((b.quarters quarters).scale (-d.exponent)).ratio * b.digitUnit d = quarters / 4 := by
  have htwo : (2 : ℚ) ^ b.exponent ≠ 0 := zpow_ne_zero _ two_ne_zero
  have hten : (10 : ℚ) ^ d.exponent ≠ 0 := zpow_ne_zero _ (by norm_num)
  rw [Fraction.ratio_scale, ratio_quarters, digitUnit, zpow_neg]
  field_simp

theorem le_digits_iff (quarters : Nat) :
    ((b.quarters quarters).scale (-d.exponent)).numerator ≤
        d.digits * ((b.quarters quarters).scale (-d.exponent)).denominator ↔
      (quarters : ℚ) / 4 ≤ d.digits * b.digitUnit d := by
  have hden : (0 : ℚ) < ((b.quarters quarters).scale (-d.exponent)).denominator := by
    exact_mod_cast Fraction.denominator_scale_pos (denominator_quarters_pos b quarters) _
  rw [← ratio_mul_digitUnit b d, mul_le_mul_iff_left₀ (digitUnit_pos b d), Fraction.ratio,
    div_le_iff₀ hden]
  exact_mod_cast Iff.rfl

theorem digits_le_iff (quarters : Nat) :
    d.digits * ((b.quarters quarters).scale (-d.exponent)).denominator ≤
        ((b.quarters quarters).scale (-d.exponent)).numerator ↔
      d.digits * b.digitUnit d ≤ (quarters : ℚ) / 4 := by
  have hden : (0 : ℚ) < ((b.quarters quarters).scale (-d.exponent)).denominator := by
    exact_mod_cast Fraction.denominator_scale_pos (denominator_quarters_pos b quarters) _
  rw [← ratio_mul_digitUnit b d, mul_le_mul_iff_left₀ (digitUnit_pos b d), Fraction.ratio,
    le_div_iff₀ hden]
  exact_mod_cast Iff.rfl

/-- Digits that the search accepts lie in the interval. -/
theorem roundsTo_of_holds (hbelow : b.below ≤ 4 * b.mantissa) (h : b.holds d = true) :
    RoundsTo (d.digits * b.digitUnit d) b.mantissa b.below := by
  have hlow : ((4 * b.mantissa - b.below : Nat) : ℚ) / 4 = b.mantissa - b.below / 4 := by
    rw [Nat.cast_sub hbelow]
    push_cast
    ring
  have hhigh : ((4 * b.mantissa + 2 : Nat) : ℚ) / 4 = b.mantissa + 1 / 2 := by
    push_cast
    ring
  unfold holds at h
  simp only [] at h
  split_ifs at h with heven
  · rw [Bool.and_eq_true, decide_eq_true_eq, decide_eq_true_eq, le_digits_iff, digits_le_iff, hlow,
      hhigh] at h
    exact ⟨h.1, h.2, fun hodd => absurd heven (by omega)⟩
  · rw [Bool.and_eq_true, decide_eq_true_eq, decide_eq_true_eq, ← not_le, ← not_le, digits_le_iff,
      le_digits_iff, hlow, hhigh, not_le, not_le] at h
    exact ⟨h.1.le, h.2.le, fun _ => h⟩

theorem holds_of_onGrid? {exponent : Int} (h : b.onGrid? exponent = some d) :
    b.holds d = true ∧ d.exponent = exponent := by
  unfold onGrid? at h
  simp only [] at h
  split_ifs at h with hup hdown
  · cases h
    rw [Bool.and_eq_true] at hup
    exact ⟨hup.1, rfl⟩
  · cases h
    exact ⟨hdown, rfl⟩

theorem value_exactly (m : Nat) (e : Int) :
    ((m * Nat.pow 5 (-e).toNat * Nat.pow 2 e.toNat : Nat) : ℚ) * 10 ^ (min e 0) = m * 2 ^ e := by
  simp only [Nat.pow_eq]
  push_cast
  rcases le_total 0 e with he | he
  · obtain ⟨k, rfl⟩ := Int.eq_ofNat_of_zero_le he
    simp
  · obtain ⟨k, rfl⟩ := Int.exists_eq_neg_ofNat he
    have hfive : (5 : ℚ) ^ k ≠ 0 := pow_ne_zero _ (by norm_num)
    rw [min_eq_left he, neg_neg, Int.toNat_natCast, Int.toNat_neg_natCast, pow_zero, mul_one,
      zpow_neg, zpow_neg, zpow_natCast, zpow_natCast, show (10 : ℚ) = 5 * 2 by norm_num, mul_pow,
      mul_inv, mul_assoc, mul_inv_cancel_left₀ hfive]

/-- The digits of a float lie in its interval, and not too far behind the point. -/
theorem shortest_spec {m : Nat} {e : Int} (hc : Canonical m e) {d : Digits}
    (hd : Binary.shortest ⟨m, e, quartersBelow m e⟩ = d) :
    RoundsTo (d.digits * (10 : ℚ) ^ d.exponent / 2 ^ e) m (quartersBelow m e) ∧
      -1100 ≤ d.exponent := by
  have hlow := hc.low
  have hpos := hc.pos
  have hbelow : quartersBelow m e ≤ 4 * m := (quartersBelow_le_two m e).trans (by omega)
  unfold shortest at hd
  cases hsearch : (List.range 20).findSome? fun step : Nat =>
      Binary.onGrid? ⟨m, e, quartersBelow m e⟩
        (Binary.magnitude ⟨m, e, quartersBelow m e⟩ - step) with
  | some found =>
      rw [hsearch, Option.getD_some] at hd
      subst hd
      obtain ⟨step, hstep, hgrid⟩ := List.exists_of_findSome?_eq_some hsearch
      obtain ⟨hholds, hexponent⟩ := holds_of_onGrid? hgrid
      have hstep := List.mem_range.mp hstep
      refine ⟨?_, ?_⟩
      · rw [mul_div_assoc]
        exact roundsTo_of_holds (b := ⟨m, e, quartersBelow m e⟩) hbelow hholds
      · rw [hexponent, magnitude]
        simp only []
        omega
  | none =>
      -- the digits of last resort are the value itself, which lies in every interval
      rw [hsearch, Option.getD_none] at hd
      subst hd
      refine ⟨?_, by simp only []; omega⟩
      simp only []
      rw [value_exactly, mul_div_assoc, div_self (zpow_ne_zero _ two_ne_zero), mul_one]
      exact roundsTo_self (quartersBelow_pos _ _) _

end Binary

end FeatureTable.Decimal
