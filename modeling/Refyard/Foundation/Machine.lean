import Mathlib.Data.List.Basic

/-! Systems that answer one input at a time. Interleavings, crashes and failures
are inputs like any other, so a run is a list and every state is computed. -/
namespace Refyard

structure Machine (σ ι ο : Type) where
  step : σ → ι → σ × ο

namespace Machine

variable {σ ι ο : Type} (machine : Machine σ ι ο)

def next (state : σ) (input : ι) : σ := (machine.step state input).1

def output (state : σ) (input : ι) : ο := (machine.step state input).2

def after (state : σ) (inputs : List ι) : σ := inputs.foldl machine.next state

def outputs (state : σ) : List ι → List ο
  | [] => []
  | input :: rest => machine.output state input :: outputs (machine.next state input) rest

/-- Every input of the run meets the condition in the state that receives it. -/
def Meets (condition : σ → ι → Prop) (state : σ) : List ι → Prop
  | [] => True
  | input :: rest => condition state input ∧ Meets condition (machine.next state input) rest

instance decidableMeets (condition : σ → ι → Prop) [∀ state input, Decidable (condition state input)]
    (state : σ) (inputs : List ι) : Decidable (machine.Meets condition state inputs) :=
  match inputs with
  | [] => isTrue trivial
  | input :: rest =>
      haveI := decidableMeets condition (machine.next state input) rest
      inferInstanceAs (Decidable (_ ∧ _))

@[simp] theorem after_nil (state : σ) : machine.after state [] = state := rfl

@[simp] theorem after_cons (state : σ) (input : ι) (rest : List ι) :
    machine.after state (input :: rest) = machine.after (machine.next state input) rest := rfl

theorem after_append (state : σ) (first second : List ι) :
    machine.after state (first ++ second) = machine.after (machine.after state first) second := by
  unfold after
  rw [List.foldl_append]

theorem outputs_append (state : σ) (first second : List ι) :
    machine.outputs state (first ++ second) =
      machine.outputs state first ++ machine.outputs (machine.after state first) second := by
  induction first generalizing state with
  | nil => rfl
  | cons input rest ih => simp only [List.cons_append, outputs, ih, after_cons]

variable {state : σ} {condition : σ → ι → Prop} {inputs : List ι}

theorem meets_append {first second : List ι} :
    machine.Meets condition state (first ++ second) ↔ machine.Meets condition state first ∧
        machine.Meets condition (machine.after state first) second := by
  induction first generalizing state with
  | nil => simp [Meets]
  | cons input rest ih => simp only [List.cons_append, Meets, ih, after_cons, and_assoc]

theorem meets_and {first second : σ → ι → Prop} (left : machine.Meets first state inputs)
    (right : machine.Meets second state inputs) :
    machine.Meets (fun state input => first state input ∧ second state input) state inputs := by
  induction inputs generalizing state with
  | nil => trivial
  | cons input rest ih => exact ⟨⟨left.1, right.1⟩, ih left.2 right.2⟩

theorem meets_true (state : σ) (inputs : List ι) :
    machine.Meets (fun _ _ => True) state inputs := by
  induction inputs generalizing state with
  | nil => trivial
  | cons input rest ih => exact ⟨trivial, ih _⟩

/-- What every conditioned step keeps, a whole conditioned run keeps. -/
theorem invariant_of_step (Invariant : σ → Prop)
    (keeps : ∀ state input, Invariant state → condition state input →
      Invariant (machine.next state input)) (start : Invariant state)
    (meets : machine.Meets condition state inputs) : Invariant (machine.after state inputs) := by
  induction inputs generalizing state with
  | nil => exact start
  | cons input rest ih => exact ih (keeps state input start meets.1) meets.2

theorem invariant (Invariant : σ → Prop)
    (keeps : ∀ state input, Invariant state → Invariant (machine.next state input))
    (start : Invariant state) (inputs : List ι) : Invariant (machine.after state inputs) :=
  machine.invariant_of_step Invariant (fun state input held _ => keeps state input held) start
    (machine.meets_true state inputs)

/-- A property that every conditioned step has where the invariant holds, the steps of a
conditioned run have. -/
theorem meets_of_step (Invariant : σ → Prop) {good : σ → ι → Prop}
    (keeps : ∀ state input, Invariant state → condition state input →
      Invariant (machine.next state input))
    (holds : ∀ state input, Invariant state → condition state input → good state input)
    (start : Invariant state) (meets : machine.Meets condition state inputs) :
    machine.Meets good state inputs := by
  induction inputs generalizing state with
  | nil => trivial
  | cons input rest ih =>
    exact ⟨holds state input start meets.1, ih (keeps state input start meets.1) meets.2⟩

/-- Where a step is good exactly when it meets the condition, and what meets it keeps the
invariant, the steps of a run are good exactly when they meet it. -/
theorem meets_iff_of_step (Invariant : σ → Prop) {good : σ → ι → Prop}
    (keeps : ∀ state input, Invariant state → condition state input →
      Invariant (machine.next state input))
    (exact : ∀ state input, Invariant state → (good state input ↔ condition state input))
    (start : Invariant state) (inputs : List ι) :
    machine.Meets good state inputs ↔ machine.Meets condition state inputs := by
  induction inputs generalizing state with
  | nil => rfl
  | cons input rest ih =>
    unfold Meets
    rw [exact state input start, and_congr_right_iff]
    exact fun meets => ih (keeps state input start meets)

/-- Where a step keeps a run good exactly when it meets the condition, every state of a run is
good exactly when every step meets it. -/
theorem good_iff_meets (Invariant Good : σ → Prop)
    (keeps : ∀ state input, Invariant state → condition state input →
      Invariant (machine.next state input)) (exact : ∀ state input, Invariant state →
      (Good (machine.next state input) ↔ condition state input)) (start : Invariant state)
    (good : Good state) (inputs : List ι) :
    (∀ front, front <+: inputs → Good (machine.after state front)) ↔
      machine.Meets condition state inputs := by
  induction inputs generalizing state with
  | nil =>
    refine iff_of_true (fun front empty => ?_) trivial
    rw [List.prefix_nil.mp empty]
    exact good
  | cons input rest ih =>
    constructor
    · intro always
      have first : Good (machine.next state input) :=
        always [input] (List.prefix_append [input] rest)
      have meets := (exact state input start).mp first
      refine ⟨meets, (ih (keeps state input start meets) first).mp fun front within => ?_⟩
      exact always (input :: front) (List.cons_prefix_cons.mpr ⟨rfl, within⟩)
    · rintro ⟨meets, behind⟩ front within
      have first := (exact state input start).mpr meets
      cases front with
      | nil => exact good
      | cons other front =>
        obtain ⟨rfl, later⟩ := List.cons_prefix_cons.mp within
        exact (ih (keeps state other start meets) first).mpr behind front later

end Machine
end Refyard
