/-! Computations that may fail, taken apart where one follows another. -/
namespace Refyard

section
variable {ε α β : Type} {first : Except ε α} {rest : α → Except ε β}

theorem isOk_iff : first.isOk = true ↔ ∃ value, first = .ok value := by
  cases first with
  | error error => exact iff_of_false Bool.false_ne_true (fun ⟨_, other⟩ => by cases other)
  | ok value => exact iff_of_true rfl ⟨value, rfl⟩

/-- What succeeded succeeded in both parts. -/
theorem bind_eq_ok {value : β} :
    (first >>= rest) = .ok value ↔ ∃ between, first = .ok between ∧ rest between = .ok value := by
  cases first with
  | error error =>
    constructor
    · intro h
      cases h
    · rintro ⟨_, h, _⟩
      cases h
  | ok between =>
    constructor
    · exact fun h => ⟨between, rfl, h⟩
    · rintro ⟨_, same, h⟩
      cases same
      exact h

theorem map_eq_ok {reading : α → β} {value : β} :
    first.map reading = .ok value ↔ ∃ between, first = .ok between ∧ reading between = value := by
  cases first with
  | error error => exact iff_of_false (fun h => by cases h) (fun ⟨_, h, _⟩ => by cases h)
  | ok between =>
    constructor
    · exact fun h => ⟨between, rfl, Except.ok.inj h⟩
    · rintro ⟨_, same, h⟩
      cases same
      exact congrArg Except.ok h

theorem toOption_eq_some {value : α} : first.toOption = some value ↔ first = .ok value := by
  cases first with
  | error error => exact iff_of_false nofun nofun
  | ok other => exact ⟨fun same => congrArg Except.ok (Option.some.inj same),
      fun same => congrArg some (Except.ok.inj same)⟩

/-- Only the value of both parts is looked at. -/
theorem toOption_bind :
    (first >>= rest).toOption = first.toOption.bind fun value => (rest value).toOption := by
  cases first <;> rfl

end

/-! A list of checks, each of which refuses for a reason of its own or lets through. -/
section
variable {α : Type} {condition : Prop} [Decidable condition] {reason : α} {rest : Option α}

theorem refuse_eq_none :
    (if condition then some reason else rest) = none ↔ ¬ condition ∧ rest = none := by
  by_cases holds : condition <;> simp [holds]

theorem accept_eq_none : (if condition then none else rest) = none ↔ condition ∨ rest = none := by
  by_cases holds : condition <;> simp [holds]

end
end Refyard
