import Mathlib.Data.List.Basic

/-! Patterns over a list: one element, one or more, one pattern behind another, one or the
other. A matcher tries every part that a pattern can take. -/
namespace Refyard

inductive Pattern (α : Type) where
  | one (test : α → Bool)
  | many (test : α → Bool)
  | both (first second : Pattern α)
  | either (first second : Pattern α)

namespace Pattern

variable {α : Type}

/-- What can be left behind one element or more, the least first. -/
def behindMany (test : α → Bool) : List α → List (List α)
  | [] => []
  | value :: rest => if test value then behindMany test rest ++ [rest] else []

def behind : Pattern α → List α → List (List α)
  | .one test, values =>
      match values with
      | [] => []
      | value :: rest => if test value then [rest] else []
  | .many test, values => behindMany test values
  | .both first second, values => (first.behind values).flatMap second.behind
  | .either first second, values => first.behind values ++ second.behind values

def begins (pattern : Pattern α) (values : List α) : Bool := !(pattern.behind values).isEmpty

def whole [DecidableEq α] (pattern : Pattern α) (values : List α) : Bool :=
  (pattern.behind values).contains []

def Takes : Pattern α → List α → Prop
  | .one test, values => ∃ value, values = [value] ∧ test value = true
  | .many test, values => values ≠ [] ∧ values.all test = true
  | .both first second, values =>
      ∃ front rest, values = front ++ rest ∧ first.Takes front ∧ second.Takes rest
  | .either first second, values => first.Takes values ∨ second.Takes values

variable {values : List α} {pattern : Pattern α}

theorem mem_behindMany {test : α → Bool} {rest : List α} : rest ∈ behindMany test values ↔
      ∃ front, values = front ++ rest ∧ front ≠ [] ∧ front.all test = true := by
  induction values with
  | nil => simp [behindMany]
  | cons value others ih =>
    rw [behindMany]
    constructor
    · intro member
      split at member
      · rename_i passes
        rw [List.mem_append, List.mem_singleton, ih] at member
        obtain ⟨front, rfl, -, all⟩ | rfl := member
        · exact ⟨value :: front, rfl, List.cons_ne_nil _ _, by rw [List.all_cons, passes, all]; rfl⟩
        · exact ⟨[value], rfl, List.cons_ne_nil _ _, by rw [List.all_cons, passes]; rfl⟩
      · cases member
    · rintro ⟨front, whole, some_value, all⟩
      cases front with
      | nil => exact absurd rfl some_value
      | cons first front =>
        obtain ⟨rfl, rfl⟩ := List.cons.inj whole
        rw [List.all_cons, Bool.and_eq_true] at all
        rw [if_pos all.1, List.mem_append, List.mem_singleton, ih]
        cases front with
        | nil => exact .inr rfl
        | cons second front => exact .inl ⟨second :: front, rfl, List.cons_ne_nil _ _, all.2⟩

/-- The matcher finds every way to cut. -/
theorem mem_behind {rest : List α} :
    rest ∈ pattern.behind values ↔ ∃ front, values = front ++ rest ∧ pattern.Takes front := by
  induction pattern generalizing values rest with
  | one test =>
    cases values with
    | nil =>
      refine iff_of_false List.not_mem_nil ?_
      rintro ⟨front, whole, value, rfl, -⟩
      cases whole
    | cons value others =>
      rw [behind]
      constructor
      · intro member
        split at member
        · rename_i passes
          rw [List.mem_singleton] at member
          exact ⟨[value], by rw [member]; rfl, value, rfl, passes⟩
        · cases member
      · rintro ⟨front, whole, first, rfl, passes⟩
        obtain ⟨rfl, rfl⟩ := List.cons.inj whole
        rw [if_pos passes]
        exact List.mem_cons_self
  | many test => exact mem_behindMany
  | both first second ihFirst ihSecond =>
    rw [behind, List.mem_flatMap]
    constructor
    · rintro ⟨middle, taken, left⟩
      obtain ⟨front, rfl, takes⟩ := ihFirst.mp taken
      obtain ⟨back, rfl, also⟩ := ihSecond.mp left
      exact ⟨front ++ back, (List.append_assoc _ _ _).symm, front, back, rfl, takes, also⟩
    · rintro ⟨-, rfl, front, back, rfl, takes, also⟩
      exact ⟨back ++ rest, ihFirst.mpr ⟨front, List.append_assoc _ _ _, takes⟩,
        ihSecond.mpr ⟨back, rfl, also⟩⟩
  | either first second ihFirst ihSecond =>
    rw [behind, List.mem_append, ihFirst, ihSecond]
    constructor
    · rintro (⟨front, whole, takes⟩ | ⟨front, whole, takes⟩)
      · exact ⟨front, whole, .inl takes⟩
      · exact ⟨front, whole, .inr takes⟩
    · rintro ⟨front, whole, takes | takes⟩
      · exact .inl ⟨front, whole, takes⟩
      · exact .inr ⟨front, whole, takes⟩

theorem begins_iff :
    pattern.begins values = true ↔ ∃ front rest, values = front ++ rest ∧ pattern.Takes front := by
  rw [begins, Bool.not_eq_true', List.isEmpty_eq_false_iff_exists_mem]
  constructor
  · rintro ⟨rest, member⟩
    obtain ⟨front, cut⟩ := mem_behind.mp member
    exact ⟨front, rest, cut⟩
  · rintro ⟨front, rest, cut⟩
    exact ⟨rest, mem_behind.mpr ⟨front, cut⟩⟩

theorem begins_either (first second : Pattern α) (values : List α) :
    (first.either second).begins values = (first.begins values || second.begins values) := by
  unfold begins
  rw [behind]
  cases first.behind values <;> simp

theorem whole_iff [DecidableEq α] : pattern.whole values = true ↔ pattern.Takes values := by
  rw [whole, List.contains_iff_mem, mem_behind]
  constructor
  · rintro ⟨front, whole, takes⟩
    rw [whole, List.append_nil]
    exact takes
  · intro takes
    exact ⟨values, (List.append_nil values).symm, takes⟩

end Pattern
end Refyard
