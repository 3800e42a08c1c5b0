import FeatureTable.Decimal.Binary
import Mathlib

namespace FeatureTable.Decimal

open Float.Model Float.Model.UnpackedFloat

/-!
A float is a sign, eleven bits of exponent and 52 bits of mantissa.  Unpacked, a finite float other
than zero is a mantissa and an exponent of which one is as large, or as small, as it can be.
-/

/-- The positive finite floats are `m * 2 ^ e` for these, each in one way. -/
structure Canonical (m : Nat) (e : Int) : Prop where
  pos : 0 < m
  lt : m < 2 ^ 53
  low : -1074 ≤ e
  high : e ≤ 971
  full : 2 ^ 52 ≤ m ∨ e = -1074

def ofUnpacked (u : UnpackedFloat) : Float :=
  .ofModel (Float.Model.pack u)

theorem ofUnpacked_unpack (x : Float) : ofUnpacked x.toModel.unpack = x :=
  Float.ofBits_toBits x

variable {s : Sign} {E : BitVec 11} {M : BitVec 52}

theorem exists_packComponents (x : Float) :
    ∃ (s : Sign) (E : BitVec 11) (M : BitVec 52),
      x.toBits.toBitVec = packComponents Format.binary64 s E M :=
  ⟨_, _, _, (@packComponents_unpackSign_unpackExponent_unpackMantissa
    Format.binary64 x.toBits.toBitVec).symm⟩

theorem toNat_packComponents : (packComponents Format.binary64 s E M).toNat =
    2 ^ 63 * s.toBitVec.toNat + 2 ^ 52 * E.toNat + M.toNat := by
  have hE := E.isLt
  have hM := M.isLt
  rw [packComponents, BitVec.toNat_append, BitVec.toNat_append,
    ← Nat.shiftLeft_add_eq_or_of_lt hE, ← Nat.shiftLeft_add_eq_or_of_lt hM, Nat.shiftLeft_eq,
    Nat.shiftLeft_eq]
  ring

theorem toNat_toBits {x : Float} (h : x.toBits.toBitVec = packComponents Format.binary64 s E M) :
    x.toBits.toNat = 2 ^ 63 * s.toBitVec.toNat + 2 ^ 52 * E.toNat + M.toNat := by
  rw [← toNat_packComponents, ← h]
  rfl

theorem unpack_of_toBits {x : Float}
    (h : x.toBits.toBitVec = packComponents Format.binary64 s E M) :
    x.toModel.unpack =
      UnpackedFloat.unpack Format.binary64 (packComponents Format.binary64 s E M) :=
  congrArg (UnpackedFloat.unpack Format.binary64) h

theorem finite_congr {m n : Nat} {e f : Int} {hm : 0 < m} (hmn : m = n) (hef : e = f) :
    UnpackedFloat.finite s m e hm = .finite s n f (hmn ▸ hm) := by
  subst hmn hef
  rfl

theorem unpack_subnormal (hM : 0 < M.toNat) :
    UnpackedFloat.unpack Format.binary64 (packComponents Format.binary64 s 0 M) =
      .finite s M.toNat (-1074) hM := by
  have hne : ¬M = 0#52 := by
    rintro rfl
    exact absurd hM (lt_irrefl 0)
  simp [UnpackedFloat.unpack, hne, Format.exponentBias]

theorem unpack_ones (s : Sign) (M : BitVec 52) :
    UnpackedFloat.unpack Format.binary64 (packComponents Format.binary64 s (-1) M) =
      if M = 0 then .infinity s else .notANumber := by
  simp [UnpackedFloat.unpack]

theorem toNat_normal (M : BitVec 52) : (1#1 ++ M).toNat = 2 ^ 52 + M.toNat := by
  rw [BitVec.toNat_append, ← Nat.shiftLeft_add_eq_or_of_lt M.isLt]
  rfl

theorem unpack_normal (hzero : E ≠ 0) (hones : E ≠ -1) :
    UnpackedFloat.unpack Format.binary64 (packComponents Format.binary64 s E M) =
      .finite s (2 ^ 52 + M.toNat) (E.toNat - 1075) (by positivity) := by
  have hE : ¬E = 0#11 := hzero
  have hE' : ¬E = -1#11 := hones
  rw [UnpackedFloat.unpack]
  simp only [unpackExponent_packComponents, unpackMantissa_packComponents,
    unpackSign_packComponents, Sign.ofBitVec_toBitVec, hE, hE', if_false]
  exact finite_congr (toNat_normal M) rfl

/-- The part of a unit below a float that rounds to it, in quarters. -/
def quartersBelow (m : Nat) (e : Int) : Nat :=
  if m = 2 ^ 52 ∧ -1074 < e then 1 else 2

theorem quartersBelow_pos (m : Nat) (e : Int) : 0 < quartersBelow m e := by
  unfold quartersBelow
  split_ifs <;> decide

theorem quartersBelow_le_two (m : Nat) (e : Int) : quartersBelow m e ≤ 2 := by
  unfold quartersBelow
  split_ifs <;> decide

theorem isNegative_of_toBits {x : Float}
    (h : x.toBits.toBitVec = packComponents Format.binary64 s E M) :
    isNegative x = (s == .negative) := by
  have hE := E.isLt
  have hM := M.isLt
  have hshift : (x.toBits >>> 63).toNat = s.toBitVec.toNat := by
    rw [UInt64.toNat_shiftRight, toNat_toBits h, Nat.shiftRight_eq_div_pow]
    change (2 ^ 63 * s.toBitVec.toNat + 2 ^ 52 * E.toNat + M.toNat) / 2 ^ 63 = _
    omega
  cases s with
  | negative =>
      obtain hone : x.toBits >>> 63 = 1 := UInt64.toNat_inj.mp hshift
      simp [isNegative, hone]
  | positive =>
      obtain hzero : x.toBits >>> 63 = 0 := UInt64.toNat_inj.mp hshift
      simp [isNegative, hzero]

/-- What a finite float unpacks to is what its text is computed from. -/
theorem of_unpack_finite {x : Float} {m : Nat} {e : Int} {hm : 0 < m}
    (h : x.toModel.unpack = .finite s m e hm) :
    Canonical m e ∧ Binary.ofFloat x = ⟨m, e, quartersBelow m e⟩ ∧
      isNegative x = (s == .negative) := by
  obtain ⟨t, E, M, hbits⟩ := exists_packComponents x
  have hE : E.toNat < 2 ^ 11 := E.isLt
  have hM : M.toNat < 2 ^ 52 := M.isLt
  have htoNat := toNat_toBits hbits
  have hexponent : x.toBits.toNat / Nat.pow 2 52 % Nat.pow 2 11 = E.toNat := by
    rw [htoNat]
    simp only [Nat.pow_eq]
    omega
  have hfraction : x.toBits.toNat % Nat.pow 2 52 = M.toNat := by
    rw [htoNat]
    simp only [Nat.pow_eq]
    omega
  rw [unpack_of_toBits hbits] at h
  unfold Binary.ofFloat
  simp only [hexponent, hfraction]
  by_cases hzero : E = 0
  · subst hzero
    by_cases hsub : 0 < M.toNat
    · rw [unpack_subnormal hsub] at h
      cases h
      refine ⟨⟨hsub, by omega, le_refl _, by omega, .inr rfl⟩, ?_, isNegative_of_toBits hbits⟩
      simp [quartersBelow]
    · obtain rfl : M = 0 := BitVec.eq_of_toNat_eq (by simpa using hsub)
      simp [UnpackedFloat.unpack] at h
  · by_cases hones : E = -1
    · subst hones
      rw [unpack_ones] at h
      split_ifs at h
    · have hpos : 0 < E.toNat := Nat.pos_of_ne_zero fun h0 => hzero (BitVec.eq_of_toNat_eq h0)
      have hlt : E.toNat ≠ 2047 := fun h1 => hones (BitVec.eq_of_toNat_eq h1)
      rw [unpack_normal hzero hones] at h
      cases h
      refine ⟨⟨by omega, by omega, by omega, by omega, .inl (by omega)⟩, ?_,
        isNegative_of_toBits hbits⟩
      rw [if_neg hpos.ne']
      congr 1
      unfold quartersBelow
      congr 1
      simp only [Nat.add_eq_left, eq_iff_iff]
      omega

theorem log2_of_full {m : Nat} (hlow : 2 ^ 52 ≤ m) (hlt : m < 2 ^ 53) : m.log2 = 52 :=
  (Nat.log2_eq_iff (by omega)).mpr ⟨hlow, hlt⟩

theorem pack_finite {m : Nat} {e : Int} (h : Canonical m e) :
    UnpackedFloat.pack Format.binary64 (.finite s m e h.pos) =
      packComponents Format.binary64 s
        (if 2 ^ 52 ≤ m then BitVec.ofNat 11 (e + 1075).toNat else 0) (BitVec.ofNat 52 m) := by
  have hlow := h.low
  have hhigh := h.high
  have hbiased :
      (e + Format.exponentBias Format.binary64 + (52 : Nat)).toNat = (e + 1075).toNat := by
    have hbias : Format.exponentBias Format.binary64 = 1023 := rfl
    rw [hbias]
    omega
  unfold UnpackedFloat.pack
  simp only [hbiased]
  rw [if_neg (by norm_num; omega)]
  by_cases hfull : 2 ^ 52 ≤ m
  · rw [if_pos (by rw [log2_of_full hfull h.lt]; rfl), if_pos hfull]
  · have hlog : m.log2 < 52 := (Nat.log2_lt h.pos.ne').mpr (by omega)
    have hbits : ¬m.log2 + 1 = Format.mantissaBits Format.binary64 := by
      change ¬m.log2 + 1 = 53
      omega
    rw [if_neg hbits, if_neg hfull]
    rfl

theorem unpack_ofUnpacked {m : Nat} {e : Int} (h : Canonical m e) :
    (ofUnpacked (.finite s m e h.pos)).toModel.unpack = .finite s m e h.pos := by
  have hpos := h.pos
  have hlt := h.lt
  have hlow := h.low
  have hhigh := h.high
  have hbits : (ofUnpacked (.finite s m e h.pos)).toBits.toBitVec =
      packComponents Format.binary64 s
        (if 2 ^ 52 ≤ m then BitVec.ofNat 11 (e + 1075).toNat else 0) (BitVec.ofNat 52 m) :=
    pack_finite h
  rw [unpack_of_toBits hbits]
  by_cases hfull : 2 ^ 52 ≤ m
  · have hE : (BitVec.ofNat 11 (e + 1075).toNat).toNat = (e + 1075).toNat := by
      rw [BitVec.toNat_ofNat]
      omega
    rw [if_pos hfull, unpack_normal]
    · refine finite_congr ?_ ?_
      · rw [BitVec.toNat_ofNat]
        omega
      · rw [hE]
        omega
    · intro hzero
      rw [hzero] at hE
      change 0 = _ at hE
      omega
    · intro hones
      rw [hones] at hE
      change 2047 = _ at hE
      omega
  · have hM : (BitVec.ofNat 52 m).toNat = m := by
      rw [BitVec.toNat_ofNat]
      omega
    rw [if_neg hfull, unpack_subnormal (by rw [hM]; exact hpos)]
    exact finite_congr hM (h.full.resolve_left hfull).symm

end FeatureTable.Decimal
