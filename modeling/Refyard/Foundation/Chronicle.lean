import Mathlib.Data.List.Basic

/-! What holds of each event of a history in view of the events before it. -/
namespace Refyard

variable {α : Type}

/-- Each event meets the condition on what was there before it. -/
def EachAfter (condition : List α → α → Prop) (events : List α) : Prop :=
  ∀ before event behind, events = before ++ event :: behind → condition before event

namespace EachAfter

variable {condition other : List α → α → Prop} {events more : List α} {event : α}

@[simp] theorem nil : EachAfter condition ([] : List α) := by
  intro before event behind parts
  cases before <;> cases parts

theorem append : EachAfter condition (events ++ more) ↔ EachAfter condition events ∧
      EachAfter (fun before event => condition (events ++ before) event) more := by
  constructor
  · intro each
    constructor
    · intro before event behind parts
      apply each before event (behind ++ more)
      rw [parts, List.append_assoc, List.cons_append]
    · intro before event behind parts
      apply each (events ++ before) event behind
      rw [parts, List.append_assoc]
  · rintro ⟨first, second⟩ before event behind parts
    obtain ⟨front, same, rest⟩ | ⟨front, same, rest⟩ := List.append_eq_append_iff.mp parts
    · rw [same]
      exact second front event behind rest
    · cases front with
      | nil =>
        subst same
        simpa using second [] event behind rest.symm
      | cons head tail =>
        obtain ⟨rfl, -⟩ := List.cons.inj rest
        exact first before event tail same

@[simp] theorem singleton : EachAfter condition [event] ↔ condition [] event := by
  constructor
  · intro each
    exact each [] event [] rfl
  · intro holds before other behind parts
    cases before with
    | nil =>
      obtain ⟨rfl, -⟩ := List.cons.inj parts
      exact holds
    | cons head tail =>
      have short := congrArg List.length parts
      simp at short

theorem concat : EachAfter condition (events ++ [event]) ↔
    EachAfter condition events ∧ condition events event := by
  rw [append, singleton, List.append_nil]

end EachAfter
end Refyard
