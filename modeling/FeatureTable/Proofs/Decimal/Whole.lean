import FeatureTable.Decimal.Significant
import FeatureTable.Expression.Kernel
import FeatureTable.Proofs.Decimal.Shortest

namespace FeatureTable.Decimal

open Float.Model Float.Model.UnpackedFloat

/-!
Adding `2 ^ 52` to a smaller number and taking it away again rounds the number to a whole one, to
the even one of two: the floats from `2 ^ 52` to `2 ^ 53` are the whole numbers there.
-/

variable {s : Sign} {m n : Nat} {e : Int} {x y : Float}

/-- The nearest whole number with the sign of the number; a half goes to the even neighbour. -/
def nearestWhole (x : Float) : Float :=
  if x.isNaN || x.isInf then x
  else
    let whole := nearest (Binary.ofFloat x).value.round 0
    if isNegative x then -whole else whole

theorem Fraction.roundsTo_round {f : Fraction} (h : 0 < f.denominator) :
    RoundsTo f.ratio f.round 2 := by
  obtain ⟨a, b⟩ := f
  have hb : (0 : ℚ) < b := by exact_mod_cast h
  have hrest : a % b < b := Nat.mod_lt a h
  have hratio : (a : ℚ) / b = (a / b : Nat) + (a % b : Nat) / b := by
    rw [div_eq_iff hb.ne', add_mul, div_mul_cancel₀ _ hb.ne', mul_comm]
    exact_mod_cast (Nat.div_add_mod a b).symm
  simp only [Fraction.ratio, Fraction.round, hratio]
  generalize a / b = q
  generalize a % b = r at hrest ⊢
  have hnonneg : (0 : ℚ) ≤ r / b := by positivity
  have hone : (r : ℚ) / b < 1 := (div_lt_one hb).mpr (by exact_mod_cast hrest)
  rcases lt_trichotomy (2 * r) b with hless | hhalf | hmore
  · have hbelow : (r : ℚ) / b < 1 / 2 := by
      rw [div_lt_div_iff₀ hb two_pos]
      exact_mod_cast (by omega : r * 2 < 1 * b)
    rw [if_pos (by simp [hless])]
    refine ⟨?_, ?_, fun _ => ⟨?_, ?_⟩⟩ <;> push_cast <;> linarith
  · have hequal : (r : ℚ) / b = 1 / 2 := by
      rw [div_eq_div_iff hb.ne' two_ne_zero]
      exact_mod_cast (by omega : r * 2 = 1 * b)
    rw [hequal]
    rcases Nat.mod_two_eq_zero_or_one q with heven | hodd
    · rw [if_pos (by simp [hhalf, heven])]
      refine ⟨?_, ?_, fun hodd => ?_⟩
      · push_cast
        linarith
      · linarith
      · omega
    · rw [if_neg (by simp [hhalf, hodd])]
      refine ⟨?_, ?_, fun hodd' => ?_⟩
      · push_cast
        linarith
      · push_cast
        linarith
      · omega
  · have habove : 1 / 2 < (r : ℚ) / b := by
      rw [div_lt_div_iff₀ two_pos hb]
      exact_mod_cast (by omega : 1 * b < r * 2)
    rw [if_neg (by simp; omega)]
    refine ⟨?_, ?_, fun _ => ⟨?_, ?_⟩⟩ <;> push_cast <;> linarith

theorem RoundsTo.add_even {v : ℚ} {k : Nat} (h : RoundsTo v n 2) (hk : k % 2 = 0) :
    RoundsTo (v + k) (k + n) 2 := by
  have hleast := h.least
  have hgreatest := h.greatest
  refine ⟨?_, ?_, fun hodd => ?_⟩
  · push_cast at hleast ⊢
    linarith
  · push_cast
    linarith
  · obtain ⟨hbelow, habove⟩ := h.inside (by omega)
    push_cast at hbelow habove ⊢
    constructor <;> linarith

theorem roundsTo_value (m : Nat) (e : Int) (below : Nat) :
    RoundsTo (m * 2 ^ e) (Binary.mk m e below).value.round 2 := by
  have hvalue : (Binary.mk m e below).value.ratio = m * 2 ^ e := by
    rw [Binary.value, Binary.ratio_quarters]
    push_cast
    ring
  rw [← hvalue]
  exact Fraction.roundsTo_round (Binary.denominator_quarters_pos _ _)

theorem nearest_of_lt (hlt : n < 2 ^ 53) :
    nearest n 0 = ofUnpacked (UnpackedFloat.ofNat Format.binary64 n) := by
  rcases Nat.eq_zero_or_pos n with rfl | hn
  · rfl
  · have hc := canonical_full hn hlt (k := 0) (by decide)
    rw [Nat.cast_zero, add_zero] at hc
    rw [ofNat_eq hn hlt, nearest_eq hn (by decide) hc]
    rw [zpow_zero, mul_one, ← full_value hlt hn, mul_div_assoc,
      div_self (zpow_ne_zero _ two_ne_zero), mul_one]
    exact roundsTo_self (quartersBelow_pos _ _) _

/-- Without a fraction there is nothing to round. -/
theorem nearest_value_round (hc : Canonical m e) (he : 0 ≤ e) (below : Nat) :
    nearest (Binary.mk m e below).value.round 0 = ofUnpacked (.finite .positive m e hc.pos) := by
  obtain ⟨k, rfl⟩ := Int.eq_ofNat_of_zero_le he
  have hwhole : m * 2 ^ k = (Binary.mk m k below).value.round := by
    refine (represents_exact (m * 2 ^ k)).roundedMantissa_eq ?_
    have hrounds := roundsTo_value m k below
    rw [zpow_natCast] at hrounds
    push_cast
    exact hrounds
  have hm := hc.pos
  rw [← hwhole, nearest_eq (by positivity) (by decide) hc]
  rw [zpow_zero, mul_one, zpow_natCast, Nat.cast_mul, Nat.cast_pow, Nat.cast_ofNat,
    mul_div_cancel_right₀ _ (pow_ne_zero _ two_ne_zero)]
  exact roundsTo_self (quartersBelow_pos _ _) m

theorem add_eq {m₁ m₂ M : Nat} {e₁ e₂ E : Int} {h₁ : 0 < m₁} {h₂ : 0 < m₂} (he : e₁ ≤ e₂)
    (hlarge : 2 ^ 52 ≤ m₁ + m₂ <<< (e₂ - e₁).toNat) (hc : Canonical M E)
    (hv : RoundsTo ((m₁ * 2 ^ e₁ + m₂ * 2 ^ e₂) / 2 ^ E) M (quartersBelow M E)) :
    UnpackedFloat.add Format.binary64 (.finite .positive m₁ e₁ h₁) (.finite .positive m₂ e₂ h₂) =
      .finite .positive M E hc.pos := by
  have hsum : UnpackedFloat.add Format.binary64 (.finite .positive m₁ e₁ h₁)
        (.finite .positive m₂ e₂ h₂) =
      UnpackedFloat.normalize Format.binary64 ((m₁ + m₂ <<< (e₂ - e₁).toNat : Nat) : Int) e₁
        .positive := by
    simp only [UnpackedFloat.add, decreaseExponent, min_eq_left he, sub_self, Int.toNat_zero,
      Nat.shiftLeft_zero, Sign.apply]
    push_cast
    rfl
  rw [hsum]
  generalize hk : m₁ + m₂ <<< (e₂ - e₁).toNat = k at hlarge
  have hpos : compare (k : Int) 0 = .gt := Int.compare_eq_gt.mpr (by omega)
  have htarget := le_targetExponent hlarge e₁
  have hkept : decreaseExponent k e₁ (Format.targetExponent Format.binary64 (totalExponent k e₁)) =
      (k, e₁) := by
    have hzero : (e₁ - Format.targetExponent Format.binary64 (totalExponent k e₁)).toNat = 0 := by
      omega
    simp only [decreaseExponent, hzero, Nat.shiftLeft_zero]
    exact Prod.ext rfl (sub_zero e₁)
  simp only [UnpackedFloat.normalize, hpos, UnpackedFloat.round, Int.toNat_natCast, hkept]
  refine roundWithAccuracy_eq (represents_exact k) htarget hc ?_
  have hvalue : (k : ℚ) * 2 ^ e₁ = m₁ * 2 ^ e₁ + m₂ * 2 ^ e₂ := by
    rw [← hk, Nat.shiftLeft_eq]
    obtain ⟨d, rfl⟩ : ∃ d : Nat, e₂ = e₁ + d := ⟨(e₂ - e₁).toNat, by omega⟩
    rw [add_sub_cancel_left, Int.toNat_natCast, zpow_add₀ two_ne_zero, zpow_natCast]
    push_cast
    ring
  rwa [hvalue]

theorem sub_eq (hn : n < 2 ^ 52) :
    UnpackedFloat.sub Format.binary64 (.finite .positive (2 ^ 52 + n) 0 (by omega))
      (.finite .positive (2 ^ 52) 0 (by decide)) = UnpackedFloat.ofNat Format.binary64 n := by
  have hdifference : ((2 ^ 52 + n : Nat) : Int) - (2 ^ 52 : Nat) = n := by omega
  simp only [UnpackedFloat.sub, decreaseExponent, min_self, sub_self, Int.toNat_zero,
    Nat.shiftLeft_zero, Sign.apply, hdifference]
  rfl

theorem unpack_two_pow_52 :
    (4503599627370496 : Float).toModel.unpack = .finite .positive (2 ^ 52) 0 (by decide) := rfl

theorem lt_two_pow_52 (hm : m < 2 ^ 53) (he : e < 0) : (m : ℚ) * 2 ^ e < 2 ^ 52 := by
  have hcast : (m : ℚ) < 2 ^ 53 := by exact_mod_cast hm
  calc (m : ℚ) * 2 ^ e ≤ m * 2 ^ (-1 : Int) :=
        mul_le_mul_of_nonneg_left (zpow_le_zpow_right₀ one_le_two (by omega)) (Nat.cast_nonneg m)
    _ < 2 ^ 52 := by
        rw [zpow_neg_one]
        linarith

theorem RoundsTo.le_two_pow_52 {v : ℚ} (h : RoundsTo v n 2) (hv : v < 2 ^ 52) : n ≤ 2 ^ 52 := by
  have hleast := h.least
  push_cast at hleast
  have hcast : (n : ℚ) < (2 ^ 52 + 1 : Nat) := by
    push_cast
    linarith
  exact Nat.lt_succ_iff.mp (by exact_mod_cast hcast)

theorem RoundsTo.add_two_pow_52 {v : ℚ} (h : RoundsTo v n 2) (hv : 0 < v) :
    RoundsTo (v + (2 ^ 52 : Nat)) (2 ^ 52 + n) (quartersBelow (2 ^ 52 + n) 0) := by
  have hshifted := h.add_even (k := 2 ^ 52) (by decide)
  unfold quartersBelow
  split_ifs with hpower
  · -- the interval is narrower below `2 ^ 52`, but the sum is above it
    obtain rfl : n = 0 := by omega
    refine ⟨?_, hshifted.greatest, fun hodd => ?_⟩
    · push_cast
      linarith
    · omega
  · exact hshifted

/-- A sum that is rounded up to `2 ^ 53` has the next exponent. -/
theorem RoundsTo.half_add_two_pow_52 {v : ℚ} (h : RoundsTo v (2 ^ 52) 2) (hv : v < 2 ^ 52) :
    RoundsTo ((v + (2 ^ 52 : Nat)) / 2) (2 ^ 52) (quartersBelow (2 ^ 52) 1) := by
  have hleast := h.least
  push_cast at hleast
  show RoundsTo _ _ 1
  refine ⟨?_, ?_, fun hodd => ?_⟩
  · push_cast
    linarith
  · push_cast
    linarith
  · norm_num at hodd

theorem add_sub_eq {h : 0 < m} (hx : x.toModel.unpack = .finite .positive m e h) (he : e < 0)
    (hn : RoundsTo (m * 2 ^ e) n 2) :
    x + 4503599627370496 - 4503599627370496 = nearest n 0 := by
  have hpos : (0 : ℚ) < m * 2 ^ e := by positivity
  have hsmall := lt_two_pow_52 (of_unpack_finite hx).1.lt he
  have hle := hn.le_two_pow_52 hsmall
  have hlarge : 2 ^ 52 ≤ m + 2 ^ 52 <<< (0 - e).toNat := by
    rw [Nat.shiftLeft_eq]
    exact Nat.le_add_left_of_le (Nat.le_mul_of_pos_right _ (by positivity))
  show ofUnpacked (UnpackedFloat.sub Format.binary64
    (ofUnpacked (UnpackedFloat.add Format.binary64 x.toModel.unpack
      (4503599627370496 : Float).toModel.unpack)).toModel.unpack
    (4503599627370496 : Float).toModel.unpack) = _
  rw [hx, unpack_two_pow_52, nearest_of_lt (by omega)]
  rcases Nat.lt_or_eq_of_le hle with hlt | rfl
  · have hc : Canonical (2 ^ 52 + n) 0 :=
      ⟨by omega, by omega, by decide, by decide, .inl (by omega)⟩
    rw [add_eq he.le hlarge hc (by simpa using hn.add_two_pow_52 hpos), unpack_ofUnpacked hc,
      sub_eq hlt]
  · have hc : Canonical (2 ^ 52) 1 := ⟨by decide, by decide, by decide, by decide, .inl (by decide)⟩
    rw [add_eq he.le hlarge hc (by simpa using hn.half_add_two_pow_52 hsmall),
      unpack_ofUnpacked hc]
    rfl

theorem eq_ofUnpacked {u : UnpackedFloat} (h : x.toModel.unpack = u) : x = ofUnpacked u := by
  rw [← h, ofUnpacked_unpack]

theorem lt_iff : x < y ↔ UnpackedFloat.compare x.toModel.unpack y.toModel.unpack = some .lt := by
  show decide (UnpackedFloat.lt x.toModel.unpack y.toModel.unpack = true) = true ↔ _
  rw [decide_eq_true_iff, UnpackedFloat.lt, beq_iff_eq]

theorem unpack_zero : (0 : Float).toModel.unpack = .zero .positive := rfl

theorem beq_zero_of_finite {h : 0 < m} (hx : x.toModel.unpack = .finite s m e h) :
    (x == 0) = false := by
  show (UnpackedFloat.compare x.toModel.unpack (0 : Float).toModel.unpack == some .eq) = false
  rw [hx, unpack_zero]
  cases s <;> rfl

theorem lt_two_pow_52_iff {h : 0 < m} (hx : x.toModel.unpack = .finite .positive m e h) :
    x < 4503599627370496 ↔ e < 0 := by
  have hfull := (of_unpack_finite hx).1.full
  rw [lt_iff, hx, unpack_two_pow_52]
  simp only [UnpackedFloat.compare, Option.some.injEq, Ordering.then_eq_lt, Int.compare_eq_lt,
    Int.compare_eq_eq, Nat.compare_eq_lt]
  omega

theorem unpack_neg {h : 0 < m} (hx : x.toModel.unpack = .finite s m e h) :
    (-x).toModel.unpack = .finite (-s) m e h := by
  show (ofUnpacked (UnpackedFloat.neg x.toModel.unpack)).toModel.unpack = _
  rw [hx]
  exact unpack_ofUnpacked (of_unpack_finite hx).1

theorem neg_two_pow_52_lt_iff {h : 0 < m} (hx : x.toModel.unpack = .finite .negative m e h) :
    -4503599627370496 < x ↔ e < 0 := by
  have hfull := (of_unpack_finite hx).1.full
  rw [lt_iff, hx, unpack_neg unpack_two_pow_52]
  simp only [UnpackedFloat.compare, Option.some.injEq, Ordering.swap_eq_lt,
    Ordering.then_eq_gt, Int.compare_eq_gt, Int.compare_eq_eq, Nat.compare_eq_gt]
  omega

theorem zero_lt_iff {h : 0 < m} (hx : x.toModel.unpack = .finite s m e h) :
    0 < x ↔ s = .positive := by
  rw [lt_iff, hx, unpack_zero]
  cases s <;> simp [UnpackedFloat.compare]

theorem lt_zero_iff {h : 0 < m} (hx : x.toModel.unpack = .finite s m e h) :
    x < 0 ↔ s = .negative := by
  rw [lt_iff, hx, unpack_zero]
  cases s <;> simp [UnpackedFloat.compare]

theorem nearestWhole_of_finite {h : 0 < m} (hx : x.toModel.unpack = .finite s m e h) :
    nearestWhole x =
      if s == .negative then -nearest (Binary.mk m e (quartersBelow m e)).value.round 0
      else nearest (Binary.mk m e (quartersBelow m e)).value.round 0 := by
  obtain ⟨-, hparts, hsign⟩ := of_unpack_finite hx
  have hnumber : (x.isNaN || x.isInf) = false := by
    show (x.toModel.unpack.isNaN || x.toModel.unpack.isInf) = false
    rw [hx]
    rfl
  unfold nearestWhole
  rw [hnumber, hparts, hsign]
  rfl

theorem toEven_positive {h : 0 < m} (hx : x.toModel.unpack = .finite .positive m e h) :
    toEven x = nearestWhole x := by
  rw [nearestWhole_of_finite hx]
  by_cases he : e < 0
  · have hrounded : toEven x = x + 4503599627370496 - 4503599627370496 := by
      simp [toEven, beq_zero_of_finite hx, zero_lt_iff hx, lt_two_pow_52_iff hx, he]
    rw [hrounded, add_sub_eq hx he (roundsTo_value m e _)]
    rfl
  · have hkept : toEven x = x := by
      simp [toEven, lt_zero_iff hx, lt_two_pow_52_iff hx, he]
    rw [hkept, nearest_value_round (of_unpack_finite hx).1 (not_lt.mp he)]
    exact eq_ofUnpacked hx

theorem toEven_negative {h : 0 < m} (hx : x.toModel.unpack = .finite .negative m e h) :
    toEven x = nearestWhole x := by
  rw [nearestWhole_of_finite hx]
  by_cases he : e < 0
  · have hrounded : toEven x = -(-x + 4503599627370496 - 4503599627370496) := by
      simp [toEven, beq_zero_of_finite hx, zero_lt_iff hx, lt_zero_iff hx,
        neg_two_pow_52_lt_iff hx, he]
    rw [hrounded, add_sub_eq (unpack_neg hx) he (roundsTo_value m e _)]
    rfl
  · have hkept : toEven x = x := by
      simp [toEven, zero_lt_iff hx, neg_two_pow_52_lt_iff hx, he]
    have hc := (of_unpack_finite hx).1
    rw [hkept, nearest_value_round hc (not_lt.mp he)]
    show x = ofUnpacked (UnpackedFloat.neg (ofUnpacked (.finite .positive m e h)).toModel.unpack)
    rw [unpack_ofUnpacked hc]
    exact eq_ofUnpacked hx

theorem toEven_eq_nearestWhole (x : Float) : toEven x = nearestWhole x := by
  cases hx : x.toModel.unpack with
  | notANumber =>
      rw [eq_ofUnpacked hx]
      decide +kernel
  | infinity s =>
      rw [eq_ofUnpacked hx]
      cases s <;> decide +kernel
  | zero s =>
      rw [eq_ofUnpacked hx]
      cases s <;> decide +kernel
  | finite s m e h =>
      cases s with
      | positive => exact toEven_positive hx
      | negative => exact toEven_negative hx

end FeatureTable.Decimal
