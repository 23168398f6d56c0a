import Refyard.Foundation.Interaction

/-! Programs against an environment that may answer a question in more than one way. -/
namespace Refyard.Interaction

variable {Query Answer Exit Failure α β : Type} {possible : Query → Answer → Prop}

/-- The program can end with the result, each question answered in a way that is possible. -/
def Yields (possible : Query → Answer → Prop) : Interaction Query Answer Exit α → α → Prop
  | .done value, result => value = result
  | .leave _, _ => False
  | .ask query next, result =>
      ∃ answer, possible query answer ∧ Yields possible (next answer) result

variable {result : α}

@[simp] theorem yields_done {value : α} :
    (done value : Interaction Query Answer Exit α).Yields possible result ↔ value = result :=
  Iff.rfl

@[simp] theorem yields_leave {exit : Exit} :
    (leave exit : Interaction Query Answer Exit α).Yields possible result ↔ False := Iff.rfl

theorem yields_bind {program : Interaction Query Answer Exit α}
    {behind : α → Interaction Query Answer Exit β} {result : β} :
    (program >>= behind).Yields possible result ↔
      ∃ value, program.Yields possible value ∧ (behind value).Yields possible result := by
  induction program with
  | done value => simp
  | leave exit => simp
  | ask query next ih =>
    constructor
    · rintro ⟨answer, allowed, rest⟩
      obtain ⟨value, first, second⟩ := (ih answer).mp rest
      exact ⟨value, ⟨answer, allowed, first⟩, second⟩
    · rintro ⟨value, ⟨answer, allowed, first⟩, second⟩
      exact ⟨answer, allowed, (ih answer).mpr ⟨value, first, second⟩⟩

theorem yields_askFor {query : Query} {read : Answer → α} :
    (askFor query read : Interaction Query Answer Exit α).Yields possible result ↔
      ∃ answer, possible query answer ∧ read answer = result := Iff.rfl

@[simp] theorem yields_orLeave {value : Except Exit α} :
    (orLeave value : Interaction Query Answer Exit α).Yields possible result ↔
      value = .ok result := by
  cases value with
  | ok value => simp [eq_comm]
  | error exit => simp

def mapExit (reading : Exit → Failure) :
    Interaction Query Answer Exit α → Interaction Query Answer Failure α
  | .done result => .done result
  | .leave exit => .leave (reading exit)
  | .ask query next => .ask query fun answer => (next answer).mapExit reading

@[simp] theorem yields_mapExit {reading : Exit → Failure}
    {program : Interaction Query Answer Exit α} :
    (program.mapExit reading).Yields possible result ↔ program.Yields possible result := by
  induction program with
  | done value => exact Iff.rfl
  | leave exit => exact Iff.rfl
  | ask query next ih =>
    exact exists_congr fun answer => and_congr_right fun _ => ih answer

end Refyard.Interaction
