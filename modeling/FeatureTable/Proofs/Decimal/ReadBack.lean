import FeatureTable.Decimal.Plain
import FeatureTable.Proofs.Decimal.Shortest
import FeatureTable.Text.Blank

namespace FeatureTable.Decimal

open Float.Model Float.Model.UnpackedFloat

theorem digitsValue_eq (cs : List Char) : digitsValue cs = Nat.ofDigitChars 10 cs 0 :=
  Nat.ofDigitChars_eq_foldl.symm

theorem digitsValue_zeros_append (count n : Nat) :
    digitsValue (List.replicate count '0' ++ Nat.toDigits 10 n) = n := by
  rw [digitsValue_eq, Nat.ofDigitChars_append, Nat.ofDigitChars_replicate_zero, Nat.mul_zero,
    Nat.ofDigitChars_ten_toDigits]

theorem digitsValue_append_zeros (n count : Nat) :
    digitsValue (Nat.toDigits 10 n ++ List.replicate count '0') = n * 10 ^ count := by
  rw [digitsValue_eq, Nat.ofDigitChars_append, Nat.ofDigitChars_ten_toDigits,
    Nat.ofDigitChars_replicate_zero, Nat.mul_comm]

theorem readMagnitude?_whole {cs : List Char} (hne : cs ≠ []) (hcs : ∀ c ∈ cs, c.isDigit) :
    readMagnitude? cs = some (nearest (digitsValue cs) 0) := by
  have htake : cs.takeWhile Char.isDigit = cs := List.takeWhile_eq_self_iff.mpr hcs
  have hdrop : cs.dropWhile Char.isDigit = [] := List.dropWhile_eq_nil_iff.mpr hcs
  simp [readMagnitude?, splitDigits, htake, hdrop, hne, readPower?]

theorem readMagnitude?_point {whole fraction : List Char} (hne : whole ≠ [])
    (hwhole : ∀ c ∈ whole, c.isDigit) (hfraction : ∀ c ∈ fraction, c.isDigit) :
    readMagnitude? (whole ++ '.' :: fraction) =
      some (nearest (digitsValue (whole ++ fraction)) (-fraction.length)) := by
  have htake : (whole ++ '.' :: fraction).takeWhile Char.isDigit = whole := by
    rw [List.takeWhile_append_of_pos hwhole]
    simp
  have hdrop : (whole ++ '.' :: fraction).dropWhile Char.isDigit = '.' :: fraction := by
    rw [List.dropWhile_append_of_pos hwhole]
    simp
  have htakeFraction : fraction.takeWhile Char.isDigit = fraction :=
    List.takeWhile_eq_self_iff.mpr hfraction
  have hdropFraction : fraction.dropWhile Char.isDigit = [] :=
    List.dropWhile_eq_nil_iff.mpr hfraction
  simp [readMagnitude?, splitDigits, htake, hdrop, htakeFraction, hdropFraction, hne, readPower?]

theorem isDigit_zeros_append {n count : Nat} {c : Char}
    (hc : c ∈ List.replicate count '0' ++ Nat.toDigits 10 n) : c.isDigit := by
  rcases List.mem_append.mp hc with h | h
  · rw [List.eq_of_mem_replicate h]
    rfl
  · exact Nat.isDigit_of_mem_toDigits (by decide) (by decide) h

theorem isDigit_append_zeros {n count : Nat} {c : Char}
    (hc : c ∈ Nat.toDigits 10 n ++ List.replicate count '0') : c.isDigit :=
  isDigit_zeros_append (List.mem_append.mpr (List.mem_append.mp hc).symm)

/-- Zeros behind the digits, or zeros before them and a point. -/
theorem Digits.plain_cases (d : Digits) :
    (0 ≤ d.exponent ∧
      d.plain.toList = Nat.toDigits 10 d.digits ++ List.replicate d.exponent.toNat '0') ∨
    ∃ whole fraction count, d.plain.toList = whole ++ '.' :: fraction ∧ whole ≠ [] ∧
      (fraction.length : Int) = -d.exponent ∧
      whole ++ fraction = List.replicate count '0' ++ Nat.toDigits 10 d.digits := by
  unfold Digits.plain
  simp only []
  split_ifs with hexponent
  · exact .inl ⟨hexponent, String.toList_ofList⟩
  · refine .inr ⟨_, _, _, String.toList_ofList, ?_, ?_, List.take_append_drop _ _⟩
    · refine List.ne_nil_of_length_pos ?_
      rw [List.length_take, List.length_append, List.length_replicate]
      omega
    · rw [List.length_drop, List.length_append, List.length_replicate]
      omega

theorem Digits.mem_plain {d : Digits} {c : Char} (hc : c ∈ d.plain.toList) :
    c.isDigit ∨ c = '.' := by
  rcases d.plain_cases with ⟨-, hplain⟩ | ⟨whole, fraction, count, hplain, -, -, hpadded⟩
  · rw [hplain] at hc
    exact .inl (isDigit_append_zeros hc)
  · have hdigit : ∀ c ∈ whole ++ fraction, c.isDigit := fun c hc =>
      isDigit_zeros_append (hpadded ▸ hc)
    rw [hplain, List.mem_append, List.mem_cons] at hc
    rcases hc with hwhole | rfl | hfraction
    · exact .inl (hdigit c (List.mem_append_left _ hwhole))
    · exact .inr rfl
    · exact .inl (hdigit c (List.mem_append_right _ hfraction))

theorem Digits.exists_plain (d : Digits) : ∃ c cs, d.plain.toList = c :: cs ∧ c.isDigit := by
  rcases d.plain_cases with ⟨-, hplain⟩ | ⟨whole, fraction, count, hplain, hne, -, hpadded⟩
  · obtain ⟨c, cs, hcs⟩ := List.exists_cons_of_ne_nil
      (Nat.toDigits_ne_nil (n := d.digits) (b := 10))
    refine ⟨c, _, by rw [hplain, hcs]; rfl, ?_⟩
    exact Nat.isDigit_of_mem_toDigits (by decide) (by decide) (hcs ▸ List.mem_cons_self)
  · obtain ⟨c, cs, rfl⟩ := List.exists_cons_of_ne_nil hne
    have hmem : c ∈ (c :: cs) ++ fraction := List.mem_cons_self
    rw [hpadded] at hmem
    exact ⟨c, _, hplain, isDigit_zeros_append hmem⟩

/-- Zeros behind the digits count for them, digits behind the point for the power of ten. -/
theorem Digits.readMagnitude?_plain (d : Digits) :
    readMagnitude? d.plain.toList =
      some (nearest (d.digits * 10 ^ d.exponent.toNat) (min d.exponent 0)) := by
  rcases d.plain_cases with ⟨hexponent, hplain⟩ | ⟨whole, fraction, count, hplain, hne, hlength,
    hpadded⟩
  · rw [hplain, readMagnitude?_whole, digitsValue_append_zeros, min_eq_right hexponent]
    · exact List.append_ne_nil_of_left_ne_nil Nat.toDigits_ne_nil _
    · exact fun c => isDigit_append_zeros
  · have hdigit : ∀ c ∈ whole ++ fraction, c.isDigit := fun c hc =>
      isDigit_zeros_append (hpadded ▸ hc)
    rw [hplain, readMagnitude?_point hne
      (fun c hc => hdigit c (List.mem_append_left _ hc))
      (fun c hc => hdigit c (List.mem_append_right _ hc)), hpadded, digitsValue_zeros_append,
      hlength, neg_neg, min_eq_left (by omega), Int.toNat_of_nonpos (by omega), pow_zero, mul_one]

theorem toNat_of_isDigit {c : Char} (hc : c.isDigit) : 48 ≤ c.toNat ∧ c.toNat ≤ 57 :=
  Char.isDigit_iff_toNat.mp hc

theorem toLower_of_isDigit {c : Char} (hc : c.isDigit) : c.toLower = c := by
  have hle := (toNat_of_isDigit hc).2
  unfold Char.toLower
  rw [dif_neg]
  rintro ⟨hge, -⟩
  have hupper : 65 ≤ c.toNat := hge
  omega

theorem readName?_of_isDigit {c : Char} (hc : c.isDigit) (cs : List Char) :
    readName? (c :: cs) = none := by
  have hhead : ∀ text : String, text.toList.head?.all Char.isDigit = false →
      String.ofList ((c :: cs).map Char.toLower) ≠ text := by
    rintro _ htext rfl
    rw [String.toList_ofList, List.map_cons, toLower_of_isDigit hc] at htext
    simp [hc] at htext
  unfold readName?
  simp only [hhead "inf" rfl, hhead "infinity" rfl, hhead "nan" rfl, decide_false, Bool.or_false,
    Bool.false_eq_true, if_false]

theorem splitSign_of_isDigit {c : Char} (hc : c.isDigit) (cs : List Char) :
    splitSign (c :: cs) = (false, c :: cs) := by
  unfold splitSign
  split
  · rename_i heq
    cases heq
    cases hc
  · rename_i heq
    cases heq
    cases hc
  · rfl

theorem readChars?_of_isDigit {c : Char} (hc : c.isDigit) (cs : List Char) :
    readChars? (c :: cs) = readMagnitude? (c :: cs) := by
  rw [readChars?, splitSign_of_isDigit hc]
  simp [readName?_of_isDigit hc]

theorem readChars?_minus {c : Char} (hc : c.isDigit) (cs : List Char) :
    readChars? ('-' :: c :: cs) = (readMagnitude? (c :: cs)).map fun x => -x := by
  simp [readChars?, splitSign, readName?_of_isDigit hc]

theorem ofUnpacked_neg {m : Nat} {e : Int} (hc : Canonical m e) :
    -ofUnpacked (.finite .positive m e hc.pos) = ofUnpacked (.finite .negative m e hc.pos) := by
  show ofUnpacked (ofUnpacked _).toModel.unpack.neg = _
  rw [unpack_ofUnpacked hc]
  rfl

theorem shortest_pos {m : Nat} {e : Int} (hc : Canonical m e) {d : Digits}
    (hv : RoundsTo (d.digits * (10 : ℚ) ^ d.exponent / 2 ^ e) m (quartersBelow m e)) :
    0 < d.digits := by
  by_contra hzero
  obtain ⟨hlow, -⟩ := hv.bounds hc
  rw [Nat.eq_zero_of_not_pos hzero, Nat.cast_zero, zero_mul] at hlow
  exact absurd hlow (not_le.mpr (zpow_pos two_pos _))

theorem readMagnitude?_shortest {m : Nat} {e : Int} (hc : Canonical m e) :
    readMagnitude? (Binary.shortest ⟨m, e, quartersBelow m e⟩).plain.toList =
      some (ofUnpacked (.finite .positive m e hc.pos)) := by
  obtain ⟨hv, hexponent⟩ := Binary.shortest_spec hc rfl
  generalize Binary.shortest ⟨m, e, quartersBelow m e⟩ = d at hv hexponent
  have hvalue : ((d.digits * 10 ^ d.exponent.toNat : Nat) : ℚ) * 10 ^ (min d.exponent 0) =
      d.digits * 10 ^ d.exponent := by
    rcases le_or_gt 0 d.exponent with hpoint | hpoint
    · obtain ⟨k, hk⟩ := Int.eq_ofNat_of_zero_le hpoint
      rw [hk, min_eq_right (by omega), Int.toNat_natCast, zpow_zero, mul_one, zpow_natCast]
      push_cast
      rfl
    · rw [min_eq_left hpoint.le, Int.toNat_of_nonpos hpoint.le, pow_zero, mul_one]
  rw [d.readMagnitude?_plain, nearest_eq (Nat.mul_pos (shortest_pos hc hv) (by positivity))
    (by omega) hc]
  rwa [hvalue]

theorem plain_of_unpack_finite {x : Float} {s : Sign} {m : Nat} {e : Int} {hm : 0 < m}
    (h : x.toModel.unpack = .finite s m e hm) :
    plain x = (if s == .negative then "-" else "") ++
      (Binary.shortest ⟨m, e, quartersBelow m e⟩).plain := by
  obtain ⟨-, hfloat, hsign⟩ := of_unpack_finite h
  have hnan : x.isNaN = false := by
    show x.toModel.unpack.isNaN = false
    rw [h]
    rfl
  have hinf : x.isInf = false := by
    show x.toModel.unpack.isInf = false
    rw [h]
    rfl
  have hzero : (x == 0) = false := by
    show x.toModel.unpack.beq (UnpackedFloat.zero .positive) = false
    rw [h]
    cases s <;> rfl
  simp only [plain, hnan, hinf, hzero, hfloat, hsign, Bool.false_eq_true, if_false]

theorem readChars?_plain (x : Float) : readChars? (plain x).toList = some x := by
  cases hx : x.toModel.unpack with
  | notANumber =>
      rw [← ofUnpacked_unpack x, hx]
      decide +kernel
  | infinity s =>
      rw [← ofUnpacked_unpack x, hx]
      cases s <;> decide +kernel
  | zero s =>
      rw [← ofUnpacked_unpack x, hx]
      cases s <;> decide +kernel
  | finite s m e hm =>
      obtain ⟨hc, -, -⟩ := of_unpack_finite hx
      obtain ⟨c, cs, hcs, hdigit⟩ := (Binary.shortest ⟨m, e, quartersBelow m e⟩).exists_plain
      have hread := readMagnitude?_shortest hc
      rw [hcs] at hread
      rw [plain_of_unpack_finite hx, String.toList_append, hcs, ← ofUnpacked_unpack x, hx]
      cases s with
      | negative =>
          show readChars? ('-' :: c :: cs) = _
          rw [readChars?_minus hdigit, hread, Option.map_some, ofUnpacked_neg hc]
      | positive =>
          show readChars? (c :: cs) = _
          rw [readChars?_of_isDigit hdigit, hread]

theorem isBlank_of_isDigit {c : Char} (hc : c.isDigit) : Text.isBlank c = false := by
  have hbounds := toNat_of_isDigit hc
  simp only [Text.isBlank, Bool.or_eq_false_iff, Bool.and_eq_false_iff, decide_eq_false_iff_not,
    beq_eq_false_iff_ne]
  omega

theorem all_plain (x : Float) : (plain x).toList.all fun c => !Text.isBlank c := by
  cases hx : x.toModel.unpack with
  | notANumber =>
      rw [← ofUnpacked_unpack x, hx]
      decide +kernel
  | infinity s =>
      rw [← ofUnpacked_unpack x, hx]
      cases s <;> decide +kernel
  | zero s =>
      rw [← ofUnpacked_unpack x, hx]
      cases s <;> decide +kernel
  | finite s m e hm =>
      have hdigits : (Binary.shortest ⟨m, e, quartersBelow m e⟩).plain.toList.all
          fun c => !Text.isBlank c := by
        rw [List.all_eq_true]
        intro c hc
        rcases Digits.mem_plain hc with hdigit | rfl
        · rw [isBlank_of_isDigit hdigit]
          rfl
        · rfl
      rw [plain_of_unpack_finite hx, String.toList_append, List.all_append, hdigits, Bool.and_true]
      cases s <;> rfl

theorem isBlank_of_mem_plain {x : Float} {c : Char} (hc : c ∈ (plain x).toList) :
    Text.isBlank c = false := by
  simpa using List.all_eq_true.mp (all_plain x) c hc

end FeatureTable.Decimal
