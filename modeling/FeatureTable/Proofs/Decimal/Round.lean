import FeatureTable.Proofs.Decimal.Binary64

namespace FeatureTable.Decimal

open Float.Model Float.Model.UnpackedFloat

/-!
Rounding works on a mantissa with two bits for what was cut off.  It gives a canonical float for
every number in the interval of the float: half a unit above it, and below it half a unit, or a
quarter at a power of two.  The ends belong to the floats with even mantissas.
-/

/-- What a mantissa and its two bits tell about a number. -/
def Represents : ExtendedMantissa → ℚ → Prop
  | ⟨m, false, false⟩, v => v = m
  | ⟨m, false, true⟩, v => m < v ∧ v < m + 1 / 2
  | ⟨m, true, false⟩, v => v = m + 1 / 2
  | ⟨m, true, true⟩, v => m + 1 / 2 < v ∧ v < m + 1

variable {em : ExtendedMantissa} {v : ℚ}

theorem Represents.bounds (h : Represents em v) :
    (em.mantissa : ℚ) ≤ v ∧ v < em.mantissa + 1 := by
  obtain ⟨m, _ | _, _ | _⟩ := em <;> simp only [Represents] at h ⊢
  · constructor <;> linarith
  · constructor <;> linarith
  · constructor <;> linarith
  · constructor <;> linarith

theorem represents_exact (m : Nat) :
    Represents (ExtendedMantissa.ofMantissaAndAccuracy m .exact) m :=
  Eq.refl (m : ℚ)

theorem Represents.shiftRightOne (h : Represents em v) :
    Represents em.shiftRightOne (v / 2) := by
  obtain ⟨m, round, sticky⟩ := em
  rcases Nat.even_or_odd' m with ⟨half, rfl | rfl⟩
  · have hshift : ExtendedMantissa.shiftRightOne ⟨2 * half, round, sticky⟩ =
        ⟨half, false, round || sticky⟩ := by
      simp [ExtendedMantissa.shiftRightOne]
    rw [hshift]
    cases round <;> cases sticky <;> simp only [Represents, Bool.or_false, Bool.or_true] at h ⊢ <;>
      push_cast at h
    · linarith
    · constructor <;> linarith
    · constructor <;> linarith
    · constructor <;> linarith
  · have hshift : ExtendedMantissa.shiftRightOne ⟨2 * half + 1, round, sticky⟩ =
        ⟨half, true, round || sticky⟩ := by
      simp only [ExtendedMantissa.shiftRightOne, ExtendedMantissa.mk.injEq]
      exact ⟨by omega, by simp, trivial⟩
    rw [hshift]
    cases round <;> cases sticky <;> simp only [Represents, Bool.or_false, Bool.or_true] at h ⊢ <;>
      push_cast at h
    · linarith
    · constructor <;> linarith
    · constructor <;> linarith
    · constructor <;> linarith

theorem Represents.shiftRight (h : Represents em v) (n : Nat) :
    Represents (em >>> n) (v / 2 ^ n) := by
  induction n with
  | zero =>
      rw [pow_zero, div_one]
      exact h
  | succ n ih =>
      rw [pow_succ, ← div_div]
      exact ih.shiftRightOne

/-- The numbers that round to `m`, of which those below it start `low` quarters away. -/
structure RoundsTo (v : ℚ) (m low : Nat) : Prop where
  least : (m : ℚ) - low / 4 ≤ v
  greatest : v ≤ m + 1 / 2
  inside : m % 2 = 1 → (m : ℚ) - low / 4 < v ∧ v < m + 1 / 2

theorem RoundsTo.mono {m low : Nat} (h : RoundsTo v m low) (hlow : low ≤ 2) : RoundsTo v m 2 := by
  have hcast : (low : ℚ) ≤ 2 := by exact_mod_cast hlow
  have hleast := h.least
  refine ⟨by push_cast; linarith, h.greatest, fun hodd => ⟨?_, (h.inside hodd).2⟩⟩
  have hinside := (h.inside hodd).1
  push_cast
  linarith

/-- Rounding to the nearest mantissa, to the even one of two. -/
theorem Represents.roundedMantissa_eq (h : Represents em v) {m : Nat} (hm : RoundsTo v m 2) :
    em.roundedMantissa = m := by
  obtain ⟨n, round, sticky⟩ := em
  have hleast := hm.least
  have hgreatest := hm.greatest
  have hinside := hm.inside
  push_cast at hleast hinside
  cases round <;> cases sticky <;> simp only [Represents] at h
  · show n = m
    have hle : (n : ℚ) < m + 1 := by linarith
    have hge : (m : ℚ) < n + 1 := by linarith
    norm_cast at hle hge
    omega
  · show n = m
    have hle : (n : ℚ) < m + 1 := by linarith
    have hge : (m : ℚ) < n + 1 := by linarith
    norm_cast at hle hge
    omega
  · show n + n % 2 = m
    have hle : (n : ℚ) ≤ m := by linarith
    have hge : (m : ℚ) ≤ n + 1 := by linarith
    norm_cast at hle hge
    rcases Nat.mod_two_eq_zero_or_one m with heven | hodd
    · omega
    · -- an odd mantissa is not reached from the middle
      obtain ⟨habove, hbelow⟩ := hinside hodd
      have hlt : (n : ℚ) < m := by linarith
      have hgt : (m : ℚ) < n + 1 := by linarith
      norm_cast at hlt hgt
      omega
  · show n + 1 = m
    have hle : (n : ℚ) < m := by linarith
    have hge : (m : ℚ) < n + 2 := by linarith
    norm_cast at hle hge
    omega

theorem targetExponent_eq (k : Int) :
    Format.targetExponent Format.binary64 k = max (k - 53) (-1074) := rfl

theorem Canonical.targetExponent_eq {m : Nat} {e : Int} (h : Canonical m e) :
    Format.targetExponent Format.binary64 (totalExponent m e) = e := by
  have hlow := h.low
  rw [Decimal.targetExponent_eq, totalExponent]
  rcases h.full with hfull | rfl
  · rw [log2_of_full hfull h.lt]
    push_cast
    omega
  · have hlog : m.log2 < 53 := (Nat.log2_lt h.pos.ne').mpr h.lt
    omega

theorem two_zpow_log2_le {m : Nat} (hm : 0 < m) : (2 : ℚ) ^ (m.log2 : Int) ≤ m := by
  rw [zpow_natCast]
  exact_mod_cast Nat.log2_self_le hm.ne'

theorem succ_le_two_zpow_log2 (m : Nat) : (m : ℚ) + 1 ≤ 2 ^ ((m.log2 : Int) + 1) := by
  have hlt : m + 1 ≤ 2 ^ (m.log2 + 1) := Nat.lt_log2_self
  have hexponent : ((m.log2 : Int) + 1) = ((m.log2 + 1 : Nat) : Int) := by push_cast; rfl
  rw [hexponent, zpow_natCast]
  exact_mod_cast hlt

theorem two_zpow_log2_add_le {m : Nat} (hm : 0 < m) (hmv : m ≤ v) (k : Int) :
    (2 : ℚ) ^ ((m.log2 : Int) + k) ≤ v * 2 ^ k := by
  rw [zpow_add₀ two_ne_zero]
  exact mul_le_mul_of_nonneg_right ((two_zpow_log2_le hm).trans hmv) (zpow_nonneg two_pos.le k)

theorem lt_two_zpow_log2_add {m : Nat} (hvm : v < m + 1) (k : Int) :
    v * 2 ^ k < (2 : ℚ) ^ ((m.log2 : Int) + 1 + k) := by
  rw [zpow_add₀ two_ne_zero]
  exact mul_lt_mul_of_pos_right (hvm.trans_le (succ_le_two_zpow_log2 m)) (zpow_pos two_pos k)

theorem zpow_mul_zpow_sub (v : ℚ) (e E : Int) : v * 2 ^ e / 2 ^ E = v * 2 ^ (e - E) := by
  rw [mul_div_assoc, ← zpow_sub₀ two_ne_zero]

variable {e E : Int} {m M : Nat}

/-- Rounding aims at the exponent of the float, or from below a power of two at the one before. -/
theorem targetExponent_cases (hmv : (m : ℚ) ≤ v) (hvm : v < m + 1) (hc : Canonical M E)
    (hv : RoundsTo (v * 2 ^ e / 2 ^ E) M (quartersBelow M E))
    (he : e ≤ Format.targetExponent Format.binary64 (totalExponent m e)) :
    Format.targetExponent Format.binary64 (totalExponent m e) = E ∨
      Format.targetExponent Format.binary64 (totalExponent m e) = E - 1 ∧
        M = 2 ^ 52 ∧ -1074 < E ∧ v * 2 ^ e / 2 ^ E < 2 ^ 52 := by
  have hlow := hc.low
  rw [Decimal.targetExponent_eq, totalExponent] at he ⊢
  rw [zpow_mul_zpow_sub] at hv ⊢
  have hupper : (m.log2 : Int) + 1 + e - 53 ≤ E := by
    by_contra hlarge
    have hm : 0 < m := by
      rcases Nat.eq_zero_or_pos m with rfl | hm
      · rw [Nat.log2_zero] at he hlarge
        push_cast at he hlarge
        omega
      · exact hm
    have hge : (2 : ℚ) ^ (53 : Int) ≤ v * 2 ^ (e - E) :=
      (zpow_le_zpow_right₀ one_le_two (by omega)).trans (two_zpow_log2_add_le hm hmv (e - E))
    have hM : (M : ℚ) + 1 ≤ 2 ^ 53 := by exact_mod_cast hc.lt
    have hgreatest := hv.greatest
    norm_num at hge hM
    linarith
  have hlt := lt_two_zpow_log2_add hvm (e - E)
  have hbound : ∀ k : Int, (2 : ℚ) ^ k ≤ v * 2 ^ (e - E) → k < (m.log2 : Int) + 1 + (e - E) :=
    fun k hk => (zpow_lt_zpow_iff_right₀ one_lt_two).mp (hk.trans_lt hlt)
  rcases hc.full with hfull | rfl
  · -- only at a power of two is the interval wide enough to reach into the exponent before
    by_cases hpower : M = 2 ^ 52 ∧ -1074 < E
    · have hleast := hv.least
      rw [quartersBelow, if_pos hpower, hpower.1] at hleast
      have h51 := hbound 51 (by norm_num at hleast ⊢; linarith)
      rcases eq_or_ne (max ((m.log2 : Int) + 1 + e - 53) (-1074)) E with heq | hne
      · exact .inl heq
      · refine .inr ⟨by omega, hpower.1, hpower.2, ?_⟩
        have h52 : (m.log2 : Int) + 1 + (e - E) ≤ 52 := by omega
        exact hlt.trans_le (zpow_le_zpow_right₀ one_le_two h52)
    · refine .inl ?_
      by_cases hsmall : E = -1074
      · omega
      · have hM : 2 ^ 52 + 1 ≤ M := by
          have hne : M ≠ 2 ^ 52 := fun h => hpower ⟨h, by omega⟩
          omega
        have hMcast : (2 : ℚ) ^ 52 + 1 ≤ M := by exact_mod_cast hM
        have hleast := hv.least
        rw [quartersBelow, if_neg hpower] at hleast
        have h52 := hbound 52 (by rw [zpow_ofNat]; push_cast at hleast; linarith)
        omega
  · exact .inl (by omega)

theorem shiftToTargetExponent_exact (hc : Canonical M E) :
    shiftToTargetExponent Format.binary64 M E .exact = (⟨M, false, false⟩, E) := by
  unfold shiftToTargetExponent shiftToExponent
  simp only [hc.targetExponent_eq, sub_self, Int.toNat_zero]
  exact Prod.ext rfl (add_zero E)

/-- A mantissa that was rounded up to one bit more is halved. -/
theorem shiftToTargetExponent_overflow (hlow : -1074 < E) :
    shiftToTargetExponent Format.binary64 (2 ^ 53) (E - 1) .exact =
      (⟨2 ^ 52, false, false⟩, E) := by
  have htarget : Format.targetExponent Format.binary64 (totalExponent (2 ^ 53) (E - 1)) = E := by
    rw [Decimal.targetExponent_eq, totalExponent, Nat.log2_two_pow]
    push_cast
    omega
  have hone : (E - (E - 1)).toNat = 1 := by omega
  unfold shiftToTargetExponent shiftToExponent
  simp only [htarget, hone]
  exact Prod.ext rfl (sub_add_cancel E 1)

/-- A number in the interval of a float rounds to the float. -/
theorem roundWithAccuracy_eq {s : Sign} {accuracy : Accuracy}
    (hrep : Represents (ExtendedMantissa.ofMantissaAndAccuracy m accuracy) v)
    (he : e ≤ Format.targetExponent Format.binary64 (totalExponent m e)) (hc : Canonical M E)
    (hv : RoundsTo (v * 2 ^ e / 2 ^ E) M (quartersBelow M E)) :
    roundWithAccuracy Format.binary64 s m e accuracy = .finite s M E hc.pos := by
  have hmantissa : (ExtendedMantissa.ofMantissaAndAccuracy m accuracy).mantissa = m := by
    rcases accuracy with _ | _ | _ | _ <;> rfl
  obtain ⟨hmv, hvm⟩ := hrep.bounds
  rw [hmantissa] at hmv hvm
  have hcases := targetExponent_cases hmv hvm hc hv he
  generalize htarget : Format.targetExponent Format.binary64 (totalExponent m e) = t at he hcases
  obtain ⟨n, rfl⟩ : ∃ n : Nat, t = e + n := ⟨(t - e).toNat, by omega⟩
  have hshift : shiftToTargetExponent Format.binary64 m e accuracy =
      (ExtendedMantissa.ofMantissaAndAccuracy m accuracy >>> n, e + n) := by
    unfold shiftToTargetExponent shiftToExponent
    simp only [htarget, add_sub_cancel_left, Int.toNat_natCast]
  have hscaled : v / 2 ^ n = v * 2 ^ e / 2 ^ (e + n) := by
    rw [zpow_mul_zpow_sub, sub_add_cancel_left, zpow_neg, zpow_natCast, div_eq_mul_inv]
  have hshifted := hrep.shiftRight n
  rw [hscaled] at hshifted
  -- the rounded mantissa is that of the float, or twice it where the exponent is one less
  have hfinal : shiftToTargetExponent Format.binary64
      (ExtendedMantissa.ofMantissaAndAccuracy m accuracy >>> n).roundedMantissa (e + n) .exact =
        (⟨M, false, false⟩, E) := by
    rcases hcases with rfl | ⟨hexponent, rfl, hlow, hsmall⟩
    · have hrounds := hv.mono (quartersBelow_le_two M (e + n))
      rw [hshifted.roundedMantissa_eq hrounds, shiftToTargetExponent_exact hc]
    · have hdouble : v * 2 ^ e / 2 ^ (E - 1) = 2 * (v * 2 ^ e / 2 ^ E) := by
        rw [zpow_mul_zpow_sub, zpow_mul_zpow_sub, sub_sub_eq_add_sub, add_sub_right_comm,
          zpow_add₀ two_ne_zero, zpow_one]
        ring
      have hleast := hv.least
      rw [quartersBelow, if_pos ⟨rfl, hlow⟩] at hleast
      have hrounds : RoundsTo (v * 2 ^ e / 2 ^ (E - 1)) (2 ^ 53) 2 := by
        rw [hdouble]
        push_cast at hleast
        refine ⟨by push_cast; linarith, by push_cast; linarith, fun hodd => ?_⟩
        norm_num at hodd
      rw [hexponent] at hshifted ⊢
      rw [hshifted.roundedMantissa_eq hrounds, shiftToTargetExponent_overflow hlow]
  unfold roundWithAccuracy
  simp only [hshift, hfinal]
  rw [dif_neg hc.pos.ne']

end FeatureTable.Decimal
