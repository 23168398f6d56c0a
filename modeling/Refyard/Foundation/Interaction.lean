import Mathlib.Data.List.TakeWhile

/-! Programs that ask an environment one question at a time. What a program asks next may
depend on every answer so far; a run is the program against one sequence of answers. -/
namespace Refyard

/-- A program ends with a result or leaves early, past everything composed behind it. -/
inductive Interaction (Query Answer Exit Result : Type) where
  | done (result : Result)
  | leave (exit : Exit)
  | ask (query : Query) (next : Answer → Interaction Query Answer Exit Result)

/-- What was asked and answered, in order, and how the program ended. -/
structure Transcript (Query Answer Exit Result : Type) where
  exchanges : List (Query × Answer)
  ending : Except Exit Result

namespace Transcript

variable {Query Answer Exit α : Type}

def prepend (front : List (Query × Answer)) (transcript : Transcript Query Answer Exit α) :
    Transcript Query Answer Exit α :=
  { transcript with exchanges := front ++ transcript.exchanges }

variable (front : List (Query × Answer))

@[simp] theorem exchanges_prepend (transcript : Transcript Query Answer Exit α) :
    (transcript.prepend front).exchanges = front ++ transcript.exchanges := rfl

@[simp] theorem ending_prepend (transcript : Transcript Query Answer Exit α) :
    (transcript.prepend front).ending = transcript.ending := rfl

@[simp] theorem prepend_prepend (front mid : List (Query × Answer))
    (transcript : Transcript Query Answer Exit α) :
    (transcript.prepend mid).prepend front = transcript.prepend (front ++ mid) := by
  simp [prepend]

@[simp] theorem prepend_mk (front exchanges : List (Query × Answer)) (ending : Except Exit α) :
    (⟨exchanges, ending⟩ : Transcript Query Answer Exit α).prepend front =
      ⟨front ++ exchanges, ending⟩ := rfl

end Transcript

namespace Interaction

variable {Query Answer Exit α β : Type}

def bind (program : Interaction Query Answer Exit α)
    (behind : α → Interaction Query Answer Exit β) : Interaction Query Answer Exit β :=
  match program with
  | .done result => behind result
  | .leave exit => .leave exit
  | .ask query next => .ask query fun answer => (next answer).bind behind

instance : Monad (Interaction Query Answer Exit) where
  pure := done
  bind := bind

variable (result : α) (exit : Exit) (query : Query)

@[simp] theorem pure_eq : (pure result : Interaction Query Answer Exit α) = done result := rfl

@[simp] theorem done_bind (behind : α → Interaction Query Answer Exit β) :
    (done result >>= behind) = behind result := rfl

@[simp] theorem leave_bind (behind : α → Interaction Query Answer Exit β) :
    ((leave exit : Interaction Query Answer Exit α) >>= behind) = leave exit := rfl

theorem ask_bind (next : Answer → Interaction Query Answer Exit α)
    (behind : α → Interaction Query Answer Exit β) :
    (ask query next >>= behind) = ask query fun answer => next answer >>= behind := rfl

/-- What stands behind two programs in a row stands behind the second. -/
theorem bind_assoc {γ : Type} (program : Interaction Query Answer Exit α)
    (behind : α → Interaction Query Answer Exit β) (last : β → Interaction Query Answer Exit γ) :
    (program >>= behind >>= last) = (program >>= fun result => behind result >>= last) := by
  induction program with
  | done result => rfl
  | leave exit => rfl
  | ask query next ih =>
    rw [ask_bind, ask_bind, ask_bind]
    congr 1
    funext answer
    exact ih answer

def askFor (query : Query) (read : Answer → α) : Interaction Query Answer Exit α :=
  ask query fun answer => done (read answer)

/-- Go on with a value, or leave with what stands in its place. -/
def orLeave : Except Exit α → Interaction Query Answer Exit α
  | .ok value => done value
  | .error exit => leave exit

@[simp] theorem orLeave_ok (value : α) :
    (orLeave (.ok value) : Interaction Query Answer Exit α) = done value := rfl

@[simp] theorem orLeave_error :
    (orLeave (.error exit) : Interaction Query Answer Exit α) = leave exit := rfl

/-- The program against the answers from the `n`th on. -/
def run (answers : Nat → Answer) :
    Interaction Query Answer Exit α → Nat → Transcript Query Answer Exit α
  | .done result, _ => ⟨[], .ok result⟩
  | .leave exit, _ => ⟨[], .error exit⟩
  | .ask query next, n => (run answers (next (answers n)) (n + 1)).prepend [(query, answers n)]

variable (answers : Nat → Answer)

@[simp] theorem run_done (n : Nat) :
    run answers (done result : Interaction Query Answer Exit α) n = ⟨[], .ok result⟩ := rfl

@[simp] theorem run_leave (n : Nat) :
    run answers (leave exit : Interaction Query Answer Exit α) n = ⟨[], .error exit⟩ := rfl

theorem run_ask (next : Answer → Interaction Query Answer Exit α) (n : Nat) :
    run answers (ask query next) n =
      (run answers (next (answers n)) (n + 1)).prepend [(query, answers n)] := rfl

@[simp] theorem run_askFor_bind (read : Answer → α) (behind : α → Interaction Query Answer Exit β)
    (n : Nat) :
    run answers (askFor query read >>= behind) n =
      (run answers (behind (read (answers n))) (n + 1)).prepend [(query, answers n)] := rfl

variable {program : Interaction Query Answer Exit α} {n : Nat}

/-- A program that ends with a result hands it on, and the rest goes on with the answers
that are left. -/
theorem run_bind_of_ok {exchanges : List (Query × Answer)} {result : α}
    (ran : run answers program n = ⟨exchanges, .ok result⟩)
    (behind : α → Interaction Query Answer Exit β) : run answers (program >>= behind) n =
      (run answers (behind result) (n + exchanges.length)).prepend exchanges := by
  induction program generalizing n exchanges with
  | done value =>
    cases ran
    rfl
  | leave exit => cases ran
  | ask query next ih =>
    obtain ⟨rfl, ended⟩ := Transcript.mk.inj ran
    rw [ask_bind, run_ask, ih (answers n)
      (show run answers (next (answers n)) (n + 1) = ⟨_, .ok result⟩ from
        congrArg (Transcript.mk _) ended)]
    simp only [Transcript.prepend_prepend, List.length_append, List.length_singleton]
    rw [show n + 1 + (run answers (next (answers n)) (n + 1)).exchanges.length =
      n + (1 + (run answers (next (answers n)) (n + 1)).exchanges.length) by omega]

/-- Nothing behind a program that leaves is run. -/
theorem run_bind_of_error {exchanges : List (Query × Answer)} {exit : Exit}
    (ran : run answers program n = ⟨exchanges, .error exit⟩)
    (behind : α → Interaction Query Answer Exit β) :
    run answers (program >>= behind) n = ⟨exchanges, .error exit⟩ := by
  induction program generalizing n exchanges with
  | done value => cases ran
  | leave other =>
    cases ran
    rfl
  | ask query next ih =>
    obtain ⟨rfl, ended⟩ := Transcript.mk.inj ran
    rw [ask_bind, run_ask, ih (answers n)
      (show run answers (next (answers n)) (n + 1) = ⟨_, .error exit⟩ from
        congrArg (Transcript.mk _) ended)]
    rfl

/-- Whatever the environment answers, the program asks only what is allowed. -/
def AsksOnly (allowed : Query → Prop) : Interaction Query Answer Exit α → Prop
  | .done _ => True
  | .leave _ => True
  | .ask query next => allowed query ∧ ∀ answer, AsksOnly allowed (next answer)

/-- Whatever the environment answers, the program leaves only in ways that are fine. -/
def LeavesOnly (fine : Exit → Prop) : Interaction Query Answer Exit α → Prop
  | .done _ => True
  | .leave exit => fine exit
  | .ask _ next => ∀ answer, LeavesOnly fine (next answer)

section
variable {allowed : Query → Prop} {fine : Exit → Prop}
variable {program : Interaction Query Answer Exit α}
variable {behind : α → Interaction Query Answer Exit β}

theorem AsksOnly.bind (first : AsksOnly allowed program)
    (second : ∀ result, AsksOnly allowed (behind result)) :
    AsksOnly allowed (program >>= behind) := by
  induction program with
  | done result => exact second result
  | leave exit => trivial
  | ask query next ih => exact ⟨first.1, fun answer => ih answer (first.2 answer)⟩

theorem LeavesOnly.bind (first : LeavesOnly fine program)
    (second : ∀ result, LeavesOnly fine (behind result)) :
    LeavesOnly fine (program >>= behind) := by
  induction program with
  | done result => exact second result
  | leave exit => exact first
  | ask query next ih => exact fun answer => ih answer (first answer)

theorem LeavesOnly.askFor (query : Query) (read : Answer → α) :
    LeavesOnly fine (askFor query read : Interaction Query Answer Exit α) :=
  fun _ => trivial

theorem AsksOnly.orLeave (value : Except Exit α) :
    AsksOnly allowed (orLeave value : Interaction Query Answer Exit α) := by
  cases value <;> trivial

/-- In every run every question is allowed. -/
theorem AsksOnly.exchanges (only : AsksOnly allowed program) (n : Nat) :
    ∀ exchange ∈ (run answers program n).exchanges, allowed exchange.1 := by
  induction program generalizing n with
  | done result => simp
  | leave exit => simp
  | ask query next ih =>
    rw [run_ask, Transcript.exchanges_prepend]
    intro exchange member
    rw [List.singleton_append, List.mem_cons] at member
    cases member with
    | inl first => exact first ▸ only.1
    | inr later => exact ih (answers n) (only.2 (answers n)) (n + 1) exchange later

/-- A run that leaves does so in a way that is fine. -/
theorem LeavesOnly.ending (only : LeavesOnly fine program) {n : Nat} {exit : Exit}
    (left : (run answers program n).ending = .error exit) : fine exit := by
  induction program generalizing n with
  | done result => cases left
  | leave other =>
    cases left
    exact only
  | ask query next ih => exact ih (answers n) (only (answers n)) left

end

end Interaction

end Refyard
