import FeatureTable.Proofs.Text.Utf8
import Mathlib.Tactic.Tauto

namespace FeatureTable.Text

/-!
Texts are ordered as lists.  Digits of one length are ordered as the numbers that they stand for,
and the bytes of ASCII characters as the characters.
-/

theorem append_lt_append_iff [LT α] {as bs cs ds : List α} (h : as.length = bs.length) :
    as ++ cs < bs ++ ds ↔ as < bs ∨ as = bs ∧ cs < ds := by
  induction as generalizing bs with
  | nil =>
      obtain rfl := List.eq_nil_of_length_eq_zero h.symm
      simp
  | cons a as ih =>
      cases bs with
      | nil => cases h
      | cons b bs =>
          have hrest := ih (Nat.succ.inj h)
          rw [List.cons_append, List.cons_append, List.cons_lt_cons_iff, List.cons_lt_cons_iff,
            hrest, List.cons.injEq]
          tauto

theorem toNat_of_isDigit {c : Char} (h : c.isDigit) : 48 ≤ c.toNat ∧ c.toNat ≤ 57 := by
  rw [Char.isDigit, Bool.and_eq_true, decide_eq_true_iff, decide_eq_true_iff] at h
  exact h

/-- The digits count only where the numbers before them are the same. -/
theorem ofDigitChars_lt_iff {cs ds : List Char} (hlength : cs.length = ds.length)
    (hcs : ∀ c ∈ cs, c.isDigit) (hds : ∀ d ∈ ds, d.isDigit) (before before' : Nat) :
    Nat.ofDigitChars 10 cs before < Nat.ofDigitChars 10 ds before' ↔
      before < before' ∨ before = before' ∧ cs < ds := by
  induction cs generalizing ds before before' with
  | nil =>
      obtain rfl := List.eq_nil_of_length_eq_zero hlength.symm
      simp
  | cons c cs ih =>
      cases ds with
      | nil => cases hlength
      | cons d ds =>
          rw [List.forall_mem_cons] at hcs hds
          have hc := toNat_of_isDigit hcs.1
          have hd := toNat_of_isDigit hds.1
          have hlt : c < d ↔ c.toNat < d.toNat := Iff.rfl
          have hzero : '0'.toNat = 48 := rfl
          rw [Nat.ofDigitChars_cons, Nat.ofDigitChars_cons, ih (Nat.succ.inj hlength) hcs.2 hds.2,
            List.cons_lt_cons_iff, hlt, ← Char.toNat_inj]
          by_cases hrest : cs < ds <;> simp only [hrest, and_true, and_false, or_false] <;> omega

theorem utf8EncodeChar_ascii {c : Char} (h : c.toNat < 128) :
    String.utf8EncodeChar c = [c.val.toUInt8] :=
  String.utf8EncodeChar_eq_singleton (Char.utf8Size_eq_one_iff.mpr (Nat.le_of_lt_succ h))

theorem toNat_toUInt8_ascii {c : Char} (h : c.toNat < 128) : c.val.toUInt8.toNat = c.toNat := by
  rw [UInt32.toNat_toUInt8]
  exact Nat.mod_eq_of_lt (Nat.lt_trans h (by decide))

theorem utf8_lt_iff {cs ds : List Char} (hcs : ∀ c ∈ cs, c.toNat < 128)
    (hds : ∀ d ∈ ds, d.toNat < 128) : utf8 cs < utf8 ds ↔ cs < ds := by
  induction cs generalizing ds with
  | nil =>
      cases ds with
      | nil => simp
      | cons d ds =>
          rw [List.forall_mem_cons] at hds
          rw [utf8_cons, utf8EncodeChar_ascii hds.1]
          exact iff_of_true (List.nil_lt_cons _ _) (List.nil_lt_cons _ _)
  | cons c cs ih =>
      cases ds with
      | nil => simp
      | cons d ds =>
          rw [List.forall_mem_cons] at hcs hds
          have hlt : c.val.toUInt8 < d.val.toUInt8 ↔ c < d := by
            rw [UInt8.lt_iff_toNat_lt, toNat_toUInt8_ascii hcs.1, toNat_toUInt8_ascii hds.1]
            exact Iff.rfl
          have heq : c.val.toUInt8 = d.val.toUInt8 ↔ c = d := by
            rw [← UInt8.toNat_inj, toNat_toUInt8_ascii hcs.1, toNat_toUInt8_ascii hds.1,
              Char.toNat_inj]
          rw [utf8_cons, utf8_cons, utf8EncodeChar_ascii hcs.1, utf8EncodeChar_ascii hds.1,
            List.singleton_append, List.singleton_append, List.cons_lt_cons_iff,
            List.cons_lt_cons_iff, hlt, heq, ih hcs.2 hds.2]

end FeatureTable.Text
