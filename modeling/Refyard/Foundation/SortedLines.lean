import Mathlib.Data.List.Perm.Basic
import Mathlib.Data.List.Sort
import Mathlib.Data.String.Basic

/-! Texts that are sorted and joined line by line: what the joined text says is which lines
there are, and no more. -/
namespace Refyard.SortedLines

def sorted (lines : List String) : List String :=
  lines.mergeSort fun first second => decide (first ≤ second)

def joined (lines : List String) : String := "\n".intercalate (sorted lines)

theorem sorted_perm (lines : List String) : (sorted lines).Perm lines := List.mergeSort_perm _ _

variable {first second : List String}

theorem sorted_eq_iff : sorted first = sorted second ↔ first.Perm second := by
  have sorts (lines : List String) :
      (sorted lines).Pairwise fun left right => decide (left ≤ right) = true := by
    apply List.pairwise_mergeSort
    · intro left mid right
      simpa using String.le_trans
    · intro left right
      simpa using String.le_total left right
  constructor
  · intro same
    exact (sorted_perm first).symm.trans (same ▸ sorted_perm second)
  · intro perm
    refine List.Perm.eq_of_pairwise ?_ (sorts first) (sorts second)
      ((sorted_perm first).trans (perm.trans (sorted_perm second).symm))
    intro left right _ _ le ge
    exact String.le_antisymm (by simpa using le) (by simpa using ge)

theorem toList_intercalate (lines : List String) :
    ("\n".intercalate lines).toList = ['\n'].intercalate (lines.map String.toList) := by
  cases lines with
  | nil => rfl
  | cons line rest =>
    induction rest generalizing line with
    | nil => simp
    | cons next rest ih =>
      rw [String.intercalate_cons_cons, String.toList_append, String.toList_append, ih next]
      simp [List.intercalate]

def Lines (lines : List String) : Prop := ∀ line ∈ lines, line ≠ "" ∧ '\n' ∉ line.toList

theorem intercalate_inj (lines : Lines first) (others : Lines second)
    (same : "\n".intercalate first = "\n".intercalate second) : first = second := by
  have split {lines : List String} (free : Lines lines) (nonempty : lines ≠ []) :
      ("\n".intercalate lines).toList.splitOn '\n' = lines.map String.toList := by
    rw [toList_intercalate, List.splitOn_intercalate]
    · intro chars member
      obtain ⟨line, given, rfl⟩ := List.mem_map.mp member
      exact (free line given).2
    · simpa using nonempty
  have empty {lines : List String} (free : Lines lines) (blank : "\n".intercalate lines = "") :
      lines = [] := by
    by_contra nonempty
    have parts := split free nonempty
    rw [blank] at parts
    cases lines with
    | nil => exact nonempty rfl
    | cons line rest =>
      have first : line.toList = [] := (List.cons.inj parts).1.symm
      exact (free line List.mem_cons_self).1 (String.toList_eq_nil_iff.mp first)
  by_cases none_left : first = []
  · subst none_left
    exact (empty others same.symm).symm
  by_cases none_right : second = []
  · subst none_right
    exact empty lines same
  apply List.map_injective_iff.mpr fun _ _ => String.toList_injective
  rw [← split lines none_left, ← split others none_right, same]

/-- The joined text tells the lines, each as often as it is there. -/
theorem joined_eq_iff (lines : Lines first) (others : Lines second) :
    joined first = joined second ↔ first.Perm second := by
  constructor
  · intro same
    rw [← sorted_eq_iff]
    apply intercalate_inj _ _ same
    · exact fun line member => lines line ((sorted_perm first).mem_iff.mp member)
    · exact fun line member => others line ((sorted_perm second).mem_iff.mp member)
  · intro perm
    rw [joined, joined, sorted_eq_iff.mpr perm]

end Refyard.SortedLines
