import FeatureTable.Path
import Mathlib.Data.List.Basic

namespace FeatureTable.Path

/-! The last part of a path below a directory is the name that was joined to it. -/

/-- The name of an entry, and no way out of a directory. -/
structure IsName (name : String) : Prop where
  noSlash : '/' ∉ name.toList
  nonempty : name ≠ ""
  notHere : name ≠ "."
  notUp : name ≠ ".."

instance (name : String) : Decidable (IsName name) :=
  decidable_of_iff ('/' ∉ name.toList ∧ name ≠ "" ∧ name ≠ "." ∧ name ≠ "..")
    ⟨fun ⟨h₁, h₂, h₃, h₄⟩ => ⟨h₁, h₂, h₃, h₄⟩,
      fun h => ⟨h.noSlash, h.nonempty, h.notHere, h.notUp⟩⟩

theorem splitParts_slash (part before after : List Char) :
    splitParts part (before ++ '/' :: after) = splitParts part before ++ splitParts [] after := by
  induction before generalizing part with
  | nil => simp [splitParts]
  | cons c before ih =>
      by_cases hc : c = '/'
      · simp [splitParts, hc, ih]
      · simp [splitParts, hc, ih]

theorem splitParts_of_not_mem {part cs : List Char} (h : '/' ∉ cs) :
    splitParts part cs = [String.ofList (part.reverse ++ cs)] := by
  induction cs generalizing part with
  | nil => simp [splitParts]
  | cons c cs ih =>
      rw [List.mem_cons, not_or] at h
      rw [splitParts, if_neg (Ne.symm h.1), ih h.2]
      simp

theorem splitParts_name {name : String} (h : '/' ∉ name.toList) :
    splitParts [] name.toList = [name] := by
  rw [splitParts_of_not_mem h, List.reverse_nil, List.nil_append, String.ofList_toList]

theorem isAbsolute_name {name : String} (h : '/' ∉ name.toList) : isAbsolute name = false := by
  refine beq_false_of_ne fun hhead => h ?_
  exact List.mem_of_head? hhead

theorem prefix_join (base : String) {name : String} (hname : '/' ∉ name.toList) :
    base.toList <+: (join base name).toList := by
  unfold join
  rw [isAbsolute_name hname, Bool.false_or]
  split_ifs with hempty
  · rw [String.isEmpty_iff.mp hempty]
    exact List.nil_prefix
  · rw [String.toList_append]
    exact List.prefix_append _ _
  · rw [String.append_assoc, String.toList_append]
    exact List.prefix_append _ _

theorem isAbsolute_join {base name : String} (hbase : base ≠ "") (hname : '/' ∉ name.toList) :
    isAbsolute (join base name) = isAbsolute base := by
  obtain ⟨after, hafter⟩ := prefix_join base hname
  unfold isAbsolute
  rw [← hafter, List.head?_append_of_ne_nil _ (by simpa using hbase)]

/-- A path below a base has the parts of the base, less an empty one at the end, and the name. -/
theorem parts_join (base : String) {name : String} (hname : '/' ∉ name.toList) :
    ∃ before blank, parts base = before ++ blank ∧ (∀ part ∈ blank, part = "") ∧
      parts (join base name) = before ++ [name] := by
  unfold join parts
  rw [isAbsolute_name hname, Bool.false_or]
  split_ifs with hempty hslash
  · refine ⟨[], [""], ?_, by simp, splitParts_name hname⟩
    rw [String.isEmpty_iff.mp hempty]
    rfl
  · rw [beq_iff_eq, List.getLast?_eq_some_iff] at hslash
    obtain ⟨before, hbefore⟩ := hslash
    refine ⟨splitParts [] before, [""], ?_, by simp, ?_⟩
    · rw [hbefore, splitParts_slash]
      rfl
    · rw [String.toList_append, hbefore, List.append_assoc, List.singleton_append,
        splitParts_slash, splitParts_name hname]
  · refine ⟨splitParts [] base.toList, [], by simp, by simp, ?_⟩
    have hpath : (base ++ "/" ++ name).toList = base.toList ++ '/' :: name.toList := by simp
    rw [hpath, splitParts_slash, splitParts_name hname]

end FeatureTable.Path
