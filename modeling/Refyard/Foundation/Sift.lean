import Mathlib.Data.List.Basic

/-! Values and other texts, interleaved, and a reader that sifts their lines into rows and
notes. -/
namespace Refyard.Sift

variable {α κ τ ρ ν : Type}

def values (items : List (α ⊕ κ)) : List α := items.filterMap Sum.getLeft?

def others (items : List (α ⊕ κ)) : List κ := items.filterMap Sum.getRight?

section Read

variable {write : α → τ} {plain : κ → τ} {row : τ → Option ρ} {note : τ → Option ν}
  {result : α → ρ}

theorem length_values_le (plain : κ → τ)
    (reads : ∀ value, row (write value) = some (result value)) (items : List (α ⊕ κ)) :
    (values items).length ≤ ((items.map (Sum.elim write plain)).filterMap row).length := by
  unfold values
  induction items with
  | nil => exact Nat.le_refl 0
  | cons item items ih =>
    cases item with
    | inl value =>
      rw [List.map_cons, Sum.elim_inl, List.filterMap_cons_some (reads value)]
      exact Nat.succ_le_succ ih
    | inr other =>
      rw [List.map_cons, Sum.elim_inr, List.filterMap_cons_none (rfl : (Sum.inr other).getLeft? = none)]
      cases found : row (plain other) with
      | none =>
        rw [List.filterMap_cons_none found]
        exact ih
      | some extra =>
        rw [List.filterMap_cons_some found]
        exact Nat.le_succ_of_le ih

theorem length_notes_le (plain : κ → τ) (silent : ∀ value, note (write value) = none)
    (items : List (α ⊕ κ)) :
    ((items.map (Sum.elim write plain)).filterMap note).length ≤ (others items).length := by
  unfold others
  induction items with
  | nil => exact Nat.le_refl 0
  | cons item items ih =>
    cases item with
    | inl value =>
      rw [List.map_cons, Sum.elim_inl, List.filterMap_cons_none (silent value)]
      exact ih
    | inr other =>
      rw [List.map_cons, Sum.elim_inr, List.filterMap_cons_some (rfl : (Sum.inr other).getRight? = _)]
      cases found : note (plain other) with
      | none =>
        rw [List.filterMap_cons_none found]
        exact Nat.le_succ_of_le ih
      | some text =>
        rw [List.filterMap_cons_some found]
        exact Nat.succ_le_succ ih

/-- Exactly the values are rows and exactly the others are notes when each other text is no row
and a note of its own. -/
theorem sifts_iff (reads : ∀ value, row (write value) = some (result value))
    (silent : ∀ value, note (write value) = none) (display : κ → ν) (items : List (α ⊕ κ)) :
    (items.map (Sum.elim write plain)).filterMap row = (values items).map result ∧
        (items.map (Sum.elim write plain)).filterMap note = (others items).map display ↔
      ∀ other, Sum.inr other ∈ items →
        row (plain other) = none ∧ note (plain other) = some (display other) := by
  induction items with
  | nil => simp [values, others]
  | cons item items ih =>
    cases item with
    | inl value =>
      have left : values (Sum.inl value :: items) = value :: values items := rfl
      have right : others (Sum.inl value :: items) = others items := rfl
      rw [List.map_cons, Sum.elim_inl, List.filterMap_cons_some (reads value),
        List.filterMap_cons_none (silent value), left, right, List.map_cons, List.cons_inj_right, ih]
      simp
    | inr other =>
      have left : values (Sum.inr other :: items) = values items := rfl
      have right : others (Sum.inr other :: items) = other :: others items := rfl
      rw [List.map_cons, Sum.elim_inr, left, right, List.map_cons]
      constructor
      · rintro ⟨rows, notes⟩
        have noRow : row (plain other) = none := by
          cases found : row (plain other) with
          | none => rfl
          | some extra =>
            rw [List.filterMap_cons_some found] at rows
            have counted := congrArg List.length rows
            have enough := length_values_le plain reads items
            rw [List.length_cons, List.length_map] at counted
            omega
        cases found : note (plain other) with
        | none =>
          rw [List.filterMap_cons_none found] at notes
          have counted := congrArg List.length notes
          have enough := length_notes_le plain silent items
          rw [List.length_cons, List.length_map] at counted
          omega
        | some text =>
          rw [List.filterMap_cons_none noRow] at rows
          rw [List.filterMap_cons_some found] at notes
          obtain ⟨same, notes⟩ := List.cons.inj notes
          intro each member
          cases List.mem_cons.mp member with
          | inl first =>
            cases first
            exact ⟨noRow, by rw [found, same]⟩
          | inr later => exact ih.mp ⟨rows, notes⟩ each later
      · intro kept
        obtain ⟨noRow, noted⟩ := kept other List.mem_cons_self
        rw [List.filterMap_cons_none noRow, List.filterMap_cons_some noted, List.cons_inj_right]
        exact ih.mpr fun each member => kept each (List.mem_cons_of_mem _ member)

end Read

end Refyard.Sift
