import FeatureTable.Decimal.Read
import FeatureTable.Proofs.Decimal.Round

namespace FeatureTable.Decimal

open Float.Model Float.Model.UnpackedFloat

/-! Reading digits and a power of ten gives the float in whose interval the number lies. -/

variable {e E e₁ e₂ : Int} {m M m₁ m₂ : Nat}

theorem roundsTo_self {low : Nat} (hlow : 0 < low) (m : Nat) : RoundsTo (m : ℚ) m low := by
  have hcast : (0 : ℚ) < low := by exact_mod_cast hlow
  exact ⟨by linarith, by linarith, fun _ => ⟨by linarith, by linarith⟩⟩

theorem le_targetExponent (hm : 2 ^ 52 ≤ m) (e : Int) :
    e ≤ Format.targetExponent Format.binary64 (totalExponent m e) := by
  have hlog : 52 ≤ m.log2 := (Nat.le_log2 (by omega)).mpr hm
  rw [Decimal.targetExponent_eq, totalExponent]
  omega

theorem mul_eq {h₁ : 0 < m₁} {h₂ : 0 < m₂} (hlarge : 2 ^ 52 ≤ m₁ * m₂) (hc : Canonical M E)
    (hv : RoundsTo ((m₁ * 2 ^ e₁) * (m₂ * 2 ^ e₂) / 2 ^ E) M (quartersBelow M E)) :
    UnpackedFloat.mul Format.binary64 (.finite .positive m₁ e₁ h₁) (.finite .positive m₂ e₂ h₂) =
      .finite .positive M E hc.pos := by
  refine roundWithAccuracy_eq (represents_exact (m₁ * m₂)) (le_targetExponent hlarge _) hc ?_
  have hvalue : ((m₁ * m₂ : Nat) : ℚ) * 2 ^ (e₁ + e₂) = (m₁ * 2 ^ e₁) * (m₂ * 2 ^ e₂) := by
    rw [zpow_add₀ two_ne_zero]
    push_cast
    ring
  rwa [hvalue]

theorem represents_div (m : Nat) {d : Nat} (hd : 0 < d) :
    Represents (ExtendedMantissa.ofMantissaAndAccuracy (m / d) (accuracyOfFraction (m % d) d))
      (m / d) := by
  have hdcast : (0 : ℚ) < d := by exact_mod_cast hd
  have hvalue : (m : ℚ) / d = (m / d : Nat) + (m % d : Nat) / d := by
    rw [div_eq_iff hdcast.ne', add_mul, div_mul_cancel₀ _ hdcast.ne']
    have hmod : (m : ℚ) = d * (m / d : Nat) + (m % d : Nat) := by
      exact_mod_cast (Nat.div_add_mod m d).symm
    linarith
  have hlt : ((m % d : Nat) : ℚ) / d < 1 := by
    rw [div_lt_one hdcast]
    exact_mod_cast Nat.mod_lt m hd
  rw [hvalue]
  generalize m / d = q
  generalize m % d = r at hlt
  unfold accuracyOfFraction
  split_ifs with hr
  · subst hr
    simp [Represents, ExtendedMantissa.ofMantissaAndAccuracy]
  · have hpos : (0 : ℚ) < r / d := div_pos (by exact_mod_cast Nat.pos_of_ne_zero hr) hdcast
    rcases lt_trichotomy (2 * r) d with h | h | h
    · have hhalf : (r : ℚ) / d < 1 / 2 := by
        rw [div_lt_div_iff₀ hdcast two_pos]
        exact_mod_cast (by omega : r * 2 < 1 * d)
      rw [Nat.compare_eq_lt.mpr h]
      exact ⟨by linarith, by linarith⟩
    · have hhalf : (r : ℚ) / d = 1 / 2 := by
        rw [div_eq_div_iff hdcast.ne' two_ne_zero]
        exact_mod_cast (by omega : r * 2 = 1 * d)
      rw [Nat.compare_eq_eq.mpr h]
      exact congrArg _ hhalf
    · have hhalf : (1 : ℚ) / 2 < r / d := by
        rw [div_lt_div_iff₀ two_pos hdcast]
        exact_mod_cast (by omega : 1 * d < r * 2)
      rw [Nat.compare_eq_gt.mpr h]
      exact ⟨by linarith, by linarith⟩

/-- A quotient has bits enough, or the exponent is the least. -/
theorem le_targetExponent_div (h₁ : 0 < m₁) (h₂ : 0 < m₂) {t : Int} (ht : t ≤ e₁ - e₂)
    (hlow : -1074 < t → t ≤ totalExponent m₁ e₁ - totalExponent m₂ e₂ - 53) :
    t ≤ Format.targetExponent Format.binary64
      (totalExponent (m₁ <<< (e₁ - e₂ - t).toNat / m₂) t) := by
  by_cases hsmall : t ≤ -1074
  · rw [Decimal.targetExponent_eq]
    omega
  · refine le_targetExponent ?_ t
    have htotal := hlow (by omega)
    unfold totalExponent at htotal
    have hshift : 53 + m₂.log2 ≤ m₁.log2 + (e₁ - e₂ - t).toNat := by omega
    rw [Nat.le_div_iff_mul_le h₂, Nat.shiftLeft_eq]
    calc 2 ^ 52 * m₂ ≤ 2 ^ 52 * 2 ^ (m₂.log2 + 1) :=
          Nat.mul_le_mul_left _ (Nat.lt_log2_self).le
      _ = 2 ^ (53 + m₂.log2) := by rw [← pow_add]; congr 1; omega
      _ ≤ 2 ^ (m₁.log2 + (e₁ - e₂ - t).toNat) := Nat.pow_le_pow_right two_pos hshift
      _ = 2 ^ m₁.log2 * 2 ^ (e₁ - e₂ - t).toNat := pow_add _ _ _
      _ ≤ m₁ * 2 ^ (e₁ - e₂ - t).toNat := Nat.mul_le_mul_right _ (Nat.log2_self_le h₁.ne')

theorem div_eq {h₁ : 0 < m₁} {h₂ : 0 < m₂} (hc : Canonical M E)
    (hv : RoundsTo ((m₁ * 2 ^ e₁) / (m₂ * 2 ^ e₂) / 2 ^ E) M (quartersBelow M E)) :
    UnpackedFloat.div Format.binary64 (.finite .positive m₁ e₁ h₁) (.finite .positive m₂ e₂ h₂) =
      .finite .positive M E hc.pos := by
  obtain ⟨t, htarget, ht, hlow⟩ : ∃ t,
      min (e₁ - e₂) (Format.targetExponent Format.binary64
        (totalExponent m₁ e₁ - totalExponent m₂ e₂)) = t ∧ t ≤ e₁ - e₂ ∧
      (-1074 < t → t ≤ totalExponent m₁ e₁ - totalExponent m₂ e₂ - 53) := by
    refine ⟨_, rfl, min_le_left _ _, ?_⟩
    rw [Decimal.targetExponent_eq]
    omega
  have hquotient : UnpackedFloat.div Format.binary64 (.finite .positive m₁ e₁ h₁)
        (.finite .positive m₂ e₂ h₂) =
      roundWithAccuracy Format.binary64 .positive (m₁ <<< (e₁ - e₂ - t).toNat / m₂) t
        (accuracyOfFraction (m₁ <<< (e₁ - e₂ - t).toNat % m₂) m₂) := by
    simp only [UnpackedFloat.div, divCore, htarget]
    rfl
  rw [hquotient]
  refine roundWithAccuracy_eq (represents_div _ h₂) (le_targetExponent_div h₁ h₂ ht hlow) hc ?_
  have hvalue : ((m₁ <<< (e₁ - e₂ - t).toNat : Nat) : ℚ) / m₂ * 2 ^ t =
      (m₁ * 2 ^ e₁) / (m₂ * 2 ^ e₂) := by
    have hshift : (((e₁ - e₂ - t).toNat : Nat) : Int) = e₁ - e₂ - t := by omega
    have hpow : (2 : ℚ) ^ (e₁ - e₂ - t).toNat * 2 ^ t = 2 ^ e₁ / 2 ^ e₂ := by
      rw [← zpow_natCast, hshift, ← zpow_add₀ two_ne_zero, sub_add_cancel, zpow_sub₀ two_ne_zero]
    rw [Nat.shiftLeft_eq, Nat.cast_mul, Nat.cast_pow, Nat.cast_ofNat, mul_div_mul_comm, ← hpow]
    ring
  rwa [hvalue]

def fullMantissa (n : Nat) : Nat :=
  n * 2 ^ (52 - n.log2)

def fullExponent (n : Nat) : Int :=
  (n.log2 : Int) - 52

theorem full_value {n : Nat} (hlt : n < 2 ^ 53) (hn : 0 < n) :
    (fullMantissa n : ℚ) * 2 ^ fullExponent n = n := by
  have hlog : n.log2 < 53 := (Nat.log2_lt hn.ne').mpr hlt
  have hexponent : fullExponent n = -((52 - n.log2 : Nat) : Int) := by
    unfold fullExponent
    omega
  rw [hexponent, fullMantissa, Nat.cast_mul, Nat.cast_pow, Nat.cast_ofNat, zpow_neg, zpow_natCast,
    mul_assoc, mul_inv_cancel₀ (pow_ne_zero _ two_ne_zero), mul_one]

theorem le_fullMantissa {n : Nat} (hn : 0 < n) (hlt : n < 2 ^ 53) : 2 ^ 52 ≤ fullMantissa n := by
  have hlog : n.log2 < 53 := (Nat.log2_lt hn.ne').mpr hlt
  calc 2 ^ 52 = 2 ^ n.log2 * 2 ^ (52 - n.log2) := by rw [← pow_add]; congr 1; omega
    _ ≤ n * 2 ^ (52 - n.log2) := Nat.mul_le_mul_right _ (Nat.log2_self_le hn.ne')

theorem fullMantissa_lt {n : Nat} (hn : 0 < n) (hlt : n < 2 ^ 53) : fullMantissa n < 2 ^ 53 := by
  have hlog : n.log2 < 53 := (Nat.log2_lt hn.ne').mpr hlt
  calc n * 2 ^ (52 - n.log2) < 2 ^ (n.log2 + 1) * 2 ^ (52 - n.log2) :=
        Nat.mul_lt_mul_of_pos_right Nat.lt_log2_self (by positivity)
    _ = 2 ^ 53 := by rw [← pow_add]; congr 1; omega

theorem canonical_full {n : Nat} (hn : 0 < n) (hlt : n < 2 ^ 53) {k : Nat} (hk : k < 23) :
    Canonical (fullMantissa n) (fullExponent n + k) := by
  have hlog : n.log2 < 53 := (Nat.log2_lt hn.ne').mpr hlt
  have hfull := le_fullMantissa hn hlt
  refine ⟨by omega, fullMantissa_lt hn hlt, ?_, ?_, .inl hfull⟩ <;> unfold fullExponent <;> omega

theorem ofNat_eq {n : Nat} (hn : 0 < n) (hlt : n < 2 ^ 53) :
    UnpackedFloat.ofNat Format.binary64 n = .finite .positive (fullMantissa n) (fullExponent n)
      (by have := le_fullMantissa hn hlt; omega) := by
  have hlog : n.log2 < 53 := (Nat.log2_lt hn.ne').mpr hlt
  have hc := canonical_full hn hlt (k := 0) (by decide)
  rw [Nat.cast_zero, add_zero] at hc
  have htarget : Format.targetExponent Format.binary64 (totalExponent n 0) = fullExponent n := by
    rw [Decimal.targetExponent_eq, totalExponent, fullExponent]
    omega
  have hshift : decreaseExponent n 0 (fullExponent n) = (fullMantissa n, fullExponent n) := by
    have htoNat : (0 - fullExponent n).toNat = 52 - n.log2 := by
      unfold fullExponent
      omega
    unfold decreaseExponent
    simp only [htoNat, Nat.shiftLeft_eq]
    refine Prod.ext rfl ?_
    show (0 : Int) - ((52 - n.log2 : Nat) : Int) = fullExponent n
    unfold fullExponent
    omega
  have hcompare : compare (n : Int) 0 = .gt := Int.compare_eq_gt.mpr (by omega)
  simp only [UnpackedFloat.ofNat, UnpackedFloat.ofInt, UnpackedFloat.normalize, hcompare,
    Int.toNat_natCast, UnpackedFloat.round, htarget, hshift]
  refine roundWithAccuracy_eq (represents_exact _)
    (le_targetExponent (le_fullMantissa hn hlt) _) hc ?_
  rw [mul_div_assoc, div_self (zpow_ne_zero _ two_ne_zero), mul_one]
  exact roundsTo_self (quartersBelow_pos _ _) _

theorem toFloat_eq {n : Nat} (hn : 0 < n) (hlt : n < 2 ^ 53) :
    n.toUInt64.toFloat = ofUnpacked (.finite .positive (fullMantissa n) (fullExponent n)
      (by have := le_fullMantissa hn hlt; omega)) := by
  have htoNat : n.toUInt64.toNat = n := by
    rw [Nat.toUInt64_eq, UInt64.toNat_ofNat_of_lt']
    exact hlt.trans (by decide)
  show ofUnpacked (UnpackedFloat.ofNat Format.binary64 n.toUInt64.toNat) = _
  rw [htoNat, ofNat_eq hn hlt]

theorem powerOfTen?_eq : ∀ k : Fin 23, Float.exactlyRepresentablePowersOfTen[k.val]? =
    some (ofUnpacked (.finite .positive (fullMantissa (5 ^ k.val))
      (fullExponent (5 ^ k.val) + k.val) (by unfold fullMantissa; positivity))) := by
  decide +kernel

theorem powerOfTen_eq {k : Nat} (hk : k < 23)
    (h : k < Float.exactlyRepresentablePowersOfTen.size) :
    Float.exactlyRepresentablePowersOfTen[k] =
      ofUnpacked (.finite .positive (fullMantissa (5 ^ k)) (fullExponent (5 ^ k) + k)
        (by unfold fullMantissa; positivity)) :=
  Option.some.inj ((getElem?_pos _ k h).symm.trans (powerOfTen?_eq ⟨k, hk⟩))

/-- Dividing or multiplying by a power of ten that is a float. -/
theorem ofScientific_fast {n : Nat} (hn : 0 < n) (hlt : n < 2 ^ 53) {k : Nat} (hk : k < 23)
    (hc : Canonical M E) (negative : Bool)
    (hv : RoundsTo (n * (10 : ℚ) ^ (if negative then -(k : Int) else k) / 2 ^ E) M
      (quartersBelow M E)) :
    Float.ofScientific n negative k = ofUnpacked (.finite .positive M E hc.pos) := by
  have hdigits := canonical_full hn hlt (k := 0) (by decide)
  have hfive : 5 ^ k < 2 ^ 53 :=
    (Nat.pow_le_pow_right (by decide) (by omega : k ≤ 22)).trans_lt (by decide)
  have hfivePos : 0 < 5 ^ k := by positivity
  have hpower := canonical_full hfivePos hfive hk
  have hdigitsValue := full_value hlt hn
  have hpowerValue : (fullMantissa (5 ^ k) : ℚ) * 2 ^ (fullExponent (5 ^ k) + k) = 10 ^ k := by
    rw [zpow_add₀ two_ne_zero, ← mul_assoc, full_value hfive hfivePos, zpow_natCast, Nat.cast_pow,
      ← mul_pow]
    norm_num
  rw [Nat.cast_zero, add_zero] at hdigits
  -- both operands are floats, so that the result alone is rounded
  have hpowerFloat := powerOfTen_eq hk
  have hunpackDigits := unpack_ofUnpacked (s := .positive) hdigits
  have hunpackPower := unpack_ofUnpacked (s := .positive) hpower
  unfold Float.ofScientific
  rw [dif_pos ⟨hlt, by omega⟩]
  simp only [hpowerFloat, toFloat_eq hn hlt]
  cases negative with
  | true =>
      rw [if_pos rfl]
      show Float.ofModel (Float.Model.pack (UnpackedFloat.div Format.binary64
        (ofUnpacked _).toModel.unpack (ofUnpacked _).toModel.unpack)) = _
      rw [hunpackDigits, hunpackPower, div_eq hc]
      · rfl
      · rw [hdigitsValue, hpowerValue, div_eq_mul_inv (n : ℚ)]
        simpa using hv
  | false =>
      rw [if_neg (by simp)]
      show Float.ofModel (Float.Model.pack (UnpackedFloat.mul Format.binary64
        (ofUnpacked _).toModel.unpack (ofUnpacked _).toModel.unpack)) = _
      rw [hunpackDigits, hunpackPower, mul_eq ?_ hc]
      · rfl
      · rw [hdigitsValue, hpowerValue]
        simpa using hv
      · exact (le_fullMantissa hn hlt).trans (Nat.le_mul_of_pos_right _ hpower.pos)

theorem model_ofScientific_eq {n : Nat} (hn : 0 < n) {p : Int} (hlow : -2048 ≤ p) (hhigh : p ≤ 2048)
    (hc : Canonical M E) (hv : RoundsTo (n * (10 : ℚ) ^ p / 2 ^ E) M (quartersBelow M E)) :
    UnpackedFloat.ofScientific Format.binary64 n p = .finite .positive M E hc.pos := by
  unfold UnpackedFloat.ofScientific
  rw [dif_neg hn.ne', if_neg (by norm_num; omega), if_neg (by norm_num; omega)]
  by_cases hp : 0 ≤ p
  · rw [if_pos hp]
    obtain ⟨k, rfl⟩ := Int.eq_ofNat_of_zero_le hp
    have hvalue : ((n <<< 53 : Nat) : ℚ) * 2 ^ (-((53 : Nat) : Int)) *
        (((10 ^ k : Nat) : ℚ) * 2 ^ (0 : Int)) = n * 10 ^ (k : Int) := by
      rw [Nat.shiftLeft_eq, zpow_neg, zpow_natCast, zpow_natCast, zpow_zero, mul_one,
        Nat.cast_mul, Nat.cast_pow, Nat.cast_pow, Nat.cast_ofNat, Nat.cast_ofNat,
        mul_inv_cancel_right₀ (pow_ne_zero _ two_ne_zero)]
    rw [← hvalue] at hv
    refine mul_eq ?_ hc hv
    rw [Nat.shiftLeft_eq]
    calc 2 ^ 52 ≤ 2 ^ 53 := by norm_num
      _ ≤ n * 2 ^ 53 := Nat.le_mul_of_pos_left _ hn
      _ ≤ n * 2 ^ 53 * 10 ^ k := Nat.le_mul_of_pos_right _ (by positivity)
  · rw [if_neg hp]
    obtain ⟨k, rfl⟩ := Int.exists_eq_neg_ofNat (not_le.mp hp).le
    have hvalue : (n : ℚ) * 2 ^ (0 : Int) /
        (((10 ^ (- -(k : Int)).toNat : Nat) : ℚ) * 2 ^ (0 : Int)) = n * 10 ^ (-(k : Int)) := by
      rw [neg_neg, Int.toNat_natCast, zpow_neg, zpow_natCast]
      push_cast
      simp [div_eq_mul_inv]
    rw [← hvalue] at hv
    exact div_eq hc hv

theorem RoundsTo.bounds (hc : Canonical M E) {v : ℚ}
    (hv : RoundsTo (v / 2 ^ E) M (quartersBelow M E)) :
    (2 : ℚ) ^ (-1075 : Int) ≤ v ∧ v < 2 ^ (1024 : Int) := by
  have hpow : (0 : ℚ) < 2 ^ E := zpow_pos two_pos _
  have hleast := (hv.mono (quartersBelow_le_two M E)).least
  have hgreatest := hv.greatest
  have hpos : (1 : ℚ) ≤ M := by exact_mod_cast hc.pos
  have hlt : (M : ℚ) + 1 ≤ 2 ^ (53 : Int) := by exact_mod_cast hc.lt
  have hlow : (1 : ℚ) / 2 ≤ v / 2 ^ E := by
    push_cast at hleast
    linarith
  have hhigh : v / 2 ^ E < 2 ^ (53 : Int) := by linarith
  constructor
  · calc (2 : ℚ) ^ (-1075 : Int) ≤ 2 ^ (-1 + E) :=
          zpow_le_zpow_right₀ one_le_two (by have := hc.low; omega)
      _ = 1 / 2 * 2 ^ E := by rw [zpow_add₀ two_ne_zero, zpow_neg_one, one_div]
      _ ≤ v := (le_div_iff₀ hpow).mp hlow
  · calc v < 2 ^ (53 : Int) * 2 ^ E := (div_lt_iff₀ hpow).mp hhigh
      _ = 2 ^ (53 + E) := (zpow_add₀ two_ne_zero _ _).symm
      _ ≤ 2 ^ (1024 : Int) := zpow_le_zpow_right₀ one_le_two (by have := hc.high; omega)

theorem two_zpow_1024_le : (2 : ℚ) ^ (1024 : Int) ≤ 10 ^ 309 := by
  have hnat : 2 ^ 1024 ≤ 10 ^ 309 := by decide +kernel
  have hcast : ((2 ^ 1024 : Nat) : ℚ) ≤ ((10 ^ 309 : Nat) : ℚ) := Nat.cast_le.mpr hnat
  rw [Nat.cast_pow, Nat.cast_pow] at hcast
  exact hcast

/-- Ten bits are more than three digits. -/
theorem size_lt {n : Nat} (hn : 0 < n) {p : Int} (h : n * (10 : ℚ) ^ p < 2 ^ (1024 : Int)) :
    10 * p + 3 * n.log2 < 3090 := by
  have hten : (0 : ℚ) < 10 ^ p := zpow_pos (by norm_num) _
  have hbits : (2 : ℚ) ^ n.log2 * 10 ^ p < 10 ^ 309 :=
    calc (2 : ℚ) ^ n.log2 * 10 ^ p ≤ n * 10 ^ p :=
          mul_le_mul_of_nonneg_right (by exact_mod_cast Nat.log2_self_le hn.ne') hten.le
      _ < 2 ^ (1024 : Int) := h
      _ ≤ 10 ^ 309 := two_zpow_1024_le
  have hpower : (10 : ℚ) ^ (p * 10 + 3 * n.log2) < 10 ^ ((309 * 10 : Nat) : Int) :=
    calc (10 : ℚ) ^ (p * 10 + 3 * n.log2) = (10 ^ p) ^ 10 * (10 ^ 3) ^ n.log2 := by
          rw [zpow_add₀ (by norm_num), zpow_mul, zpow_mul, zpow_natCast, zpow_ofNat, zpow_ofNat]
      _ ≤ (10 ^ p) ^ 10 * (2 ^ 10) ^ n.log2 :=
          mul_le_mul_of_nonneg_left (pow_le_pow_left₀ (by norm_num) (by norm_num) _) (by positivity)
      _ = (2 ^ n.log2 * 10 ^ p) ^ 10 := by
          rw [mul_pow, ← pow_mul, ← pow_mul, mul_comm 10 n.log2, mul_comm]
      _ < (10 ^ 309) ^ 10 := pow_lt_pow_left₀ hbits (by positivity) (by decide)
      _ = 10 ^ ((309 * 10 : Nat) : Int) := by rw [← pow_mul, zpow_natCast]
  have hlt := (zpow_lt_zpow_iff_right₀ (by norm_num)).mp hpower
  omega

/-- Ninety-three bits are fewer than 28 digits. -/
theorem lt_size {n : Nat} {p : Int} (h : (2 : ℚ) ^ (-1075 : Int) ≤ n * 10 ^ p) :
    -93 * p < 28 * (n.log2 + 1076) := by
  have hten : (0 : ℚ) < 10 ^ p := zpow_pos (by norm_num) _
  have hbits : (10 : ℚ) ^ (-p) < 2 ^ (n.log2 + 1076) := by
    rw [zpow_neg, inv_lt_iff_one_lt_mul₀ hten]
    calc (1 : ℚ) = 2 ^ (1075 : Int) * 2 ^ (-1075 : Int) := by
          rw [← zpow_add₀ two_ne_zero, add_neg_cancel, zpow_zero]
      _ ≤ 2 ^ (1075 : Int) * (n * 10 ^ p) :=
          mul_le_mul_of_nonneg_left h (zpow_nonneg two_pos.le _)
      _ < 2 ^ (1075 : Int) * (2 ^ (n.log2 + 1) * 10 ^ p) := by
          refine mul_lt_mul_of_pos_left (mul_lt_mul_of_pos_right ?_ hten) (zpow_pos two_pos _)
          exact_mod_cast Nat.lt_log2_self
      _ = 2 ^ (n.log2 + 1076) * 10 ^ p := by
          rw [← mul_assoc, zpow_ofNat, ← pow_add]
          congr 2
          omega
  have hpower : (10 : ℚ) ^ (-p * 93) < 10 ^ ((28 * (n.log2 + 1076) : Nat) : Int) :=
    calc (10 : ℚ) ^ (-p * 93) = (10 ^ (-p)) ^ 93 := by rw [zpow_mul, zpow_ofNat]
      _ < (2 ^ (n.log2 + 1076)) ^ 93 :=
          pow_lt_pow_left₀ hbits (zpow_nonneg (by norm_num) _) (by decide)
      _ = (2 ^ 93) ^ (n.log2 + 1076) := by rw [← pow_mul, ← pow_mul, mul_comm]
      _ ≤ (10 ^ 28) ^ (n.log2 + 1076) := pow_le_pow_left₀ (by norm_num) (by norm_num) _
      _ = 10 ^ ((28 * (n.log2 + 1076) : Nat) : Int) := by rw [← pow_mul, zpow_natCast]
  have hlt := (zpow_lt_zpow_iff_right₀ (by norm_num)).mp hpower
  omega

theorem nearest_eq {n : Nat} (hn : 0 < n) {p : Int} (hp : -1100 ≤ p) (hc : Canonical M E)
    (hv : RoundsTo (n * (10 : ℚ) ^ p / 2 ^ E) M (quartersBelow M E)) :
    nearest n p = ofUnpacked (.finite .positive M E hc.pos) := by
  obtain ⟨hlow, hhigh⟩ := hv.bounds hc
  have hsmall := size_lt hn hhigh
  have hlarge := lt_size hlow
  have hsign : (if decide (p < 0) = true then -(p.natAbs : Int) else p.natAbs) = p := by
    split_ifs with h
    · have := of_decide_eq_true h
      omega
    · have : ¬p < 0 := fun hneg => h (decide_eq_true hneg)
      omega
  unfold nearest
  rw [if_neg hn.ne']
  simp only []
  rw [if_neg (by omega), if_neg (by omega)]
  by_cases hfast : n < 2 ^ 53 ∧ p.natAbs ≤ 22
  · refine ofScientific_fast hn hfast.1 (by omega) hc _ ?_
    rwa [hsign]
  · unfold Float.ofScientific
    rw [dif_neg hfast]
    have hpower : (if decide (p < 0) = true then Int.negOfNat p.natAbs else Int.ofNat p.natAbs) =
        p := by
      rcases lt_or_ge p 0 with hneg | hnonneg
      · rw [if_pos (decide_eq_true hneg), Int.negOfNat_eq]
        show -((p.natAbs : Nat) : Int) = p
        omega
      · rw [if_neg (by simpa using hnonneg)]
        exact Int.natAbs_of_nonneg hnonneg
    simp only [hpower]
    exact congrArg ofUnpacked (model_ofScientific_eq hn (by omega) (by omega) hc hv)

end FeatureTable.Decimal
