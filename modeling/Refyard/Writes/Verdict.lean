import Refyard.Writes.Target

/-! What one write command's outcome was, judged by the state read before and after it. -/
namespace Refyard

inductive Postcondition where
  | indexMayBeUnchanged
  | headMustMove

inductive Verdict where
  | succeeded (newHeadOid : Option String)
  | failed (problem : Problem)
  | needsAttention (problem : Problem)
  | unknown (reason : String) (problem : Problem)

def readBackUnchanged : String := "; the index and HEAD were re-read and are unchanged"

def gitRefusal (outcome : RunOutcome) : String :=
  let diagnostic := diagnosticOf outcome
  if (trim diagnostic.toList).isEmpty then
    let exit :=
      match outcome.exitCode with
      | some code => toString code
      | none => "unknown"
    s!"git refused the operation (exit {exit}){readBackUnchanged}"
  else s!"git refused the operation: {diagnostic}{readBackUnchanged}"

def refusalCode (outcome : RunOutcome) : ProblemCode :=
  match outcome.state with
  | .notStarted => .unavailable
  | .interrupted => if outcome.termination = some .timeout then .timeout else .cancelled
  | .unknown => .gitCommandFailed
  | .completed => if outcome.outputComplete then .gitCommandFailed else .limitExceeded

def refusalMessage (command : String) (outcome : RunOutcome) : String :=
  match outcome.state with
  | .notStarted => s!"{command} could not be started"
  | .interrupted =>
      if outcome.termination = some .timeout then
        s!"{command} did not finish within its deadline{readBackUnchanged}"
      else s!"{command} was cancelled before it finished{readBackUnchanged}"
  | .unknown => s!"{command} ended without a reportable status{readBackUnchanged}"
  | .completed =>
      if outcome.outputComplete then gitRefusal outcome
      else s!"{command} produced more output than the host will hold{readBackUnchanged}"

def refusalProblem (command : String) (outcome : RunOutcome) : Problem :=
  let problem := Problem.new (refusalCode outcome) (refusalMessage command outcome)
  let diagnostic := diagnosticOf outcome
  if diagnostic.isEmpty then problem else problem.withDetail "diagnostic" (.text diagnostic)

/-- The reason an outcome is unknown, in the one vocabulary the journal keeps. -/
def unknownProblem (command message : String) : Problem :=
  .new .uncertainOutcome s!"{command}: {message}"

def resultOf (summary : String) (changedPaths : Option Nat) (newHeadOid : Option String) :
    OperationResult where
  summary := summary
  changedRefs := []
  changedPaths := changedPaths
  snapshotInvalidated := true
  newHeadOid := newHeadOid

def effectOutcome (verdict : Verdict) (summary : String) (changedPaths : Option Nat) :
    EffectOutcome :=
  match verdict with
  | .succeeded newHeadOid => .succeeded (resultOf summary changedPaths newHeadOid)
  | .failed problem => .failed problem
  | .needsAttention problem => .needsAttention problem
  | .unknown reason problem => .unknown reason problem

def headMoved (before : WriteFacts) (after : Option WriteFacts) : Bool :=
  match after with
  | some facts => facts.head.oid != before.head.oid
  | none => false

def indexMoved (before : WriteFacts) (after : Option WriteFacts) : Bool :=
  match after with
  | some facts => facts.indexKey != before.indexKey
  | none => false

def classifyClean (command : String) (postcondition : Postcondition) (before : WriteFacts)
    (after : Option WriteFacts) : Verdict :=
  match postcondition with
  | .indexMayBeUnchanged => .succeeded (after.bind fun facts => facts.head.oid)
  | .headMustMove =>
      if headMoved before after then .succeeded (after.bind fun facts => facts.head.oid)
      else
        .unknown "git reported success but the head did not move"
          (unknownProblem command
            "git reported success but HEAD did not move after the commit; the repository was re-read and the commit cannot be found, so whether anything was written is not known")

def classifyMoved (command : String) (postcondition : Postcondition) (outcome : RunOutcome)
    (after : Option WriteFacts) : Verdict :=
  match postcondition with
  | .headMustMove =>
      let head := (after.bind fun facts => facts.head.oid).getD ""
      .needsAttention (.new .needsAttention
        s!"the commit exists ({head}) but git exited with a complaint: {diagnosticOf outcome}")
  | .indexMayBeUnchanged =>
      .unknown s!"{command} moved HEAD, which it cannot do"
        (unknownProblem command
          "HEAD moved while a path operation ran; the repository was re-read and whether the index change completed is not known")

/-- Classifies one finished write. No `after` is a read-back that itself failed, which is
no evidence either way. -/
def classifyWrite (command : String) (postcondition : Postcondition) (outcome : RunOutcome)
    (before : WriteFacts) (after : Option WriteFacts) : Verdict :=
  if outcome.state = .notStarted then .failed (refusalProblem command outcome)
  else if cleanExit outcome then classifyClean command postcondition before after
  else if headMoved before after then classifyMoved command postcondition outcome after
  else if after.isSome && !indexMoved before after then
    .failed (refusalProblem command outcome)
  else
    let evidence :=
      if after.isSome then "the repository was re-read"
      else "and the repository could not be re-read"
    .unknown s!"{command} did not report a clean result and the index changed ({evidence})"
      (unknownProblem command
        "git did not report a clean result and the index changed; whether the operation completed is not known, and nothing was retried")

def Postcondition.Shown (postcondition : Postcondition) (before facts : WriteFacts) : Prop :=
  match postcondition with
  | .indexMayBeUnchanged => True
  | .headMustMove => facts.head.oid ≠ before.head.oid

/-- Every answer rests on what was read back, or on a command that never started. -/
structure SoundVerdict (postcondition : Postcondition) (outcome : RunOutcome)
    (before : WriteFacts) (after : Option WriteFacts) (verdict : Verdict) : Prop where
  unread : outcome.state ≠ .notStarted → after = none →
    ∃ reason problem, verdict = .unknown reason problem
  unchanged : ∀ problem, verdict = .failed problem → outcome.state = .notStarted ∨
    ∃ facts, after = some facts ∧ facts.head = before.head ∧ facts.indexKey = before.indexKey
  shown : ∀ newHeadOid, verdict = .succeeded newHeadOid →
    ∃ facts, after = some facts ∧ postcondition.Shown before facts

/-- A write that may leave the index as it was reported success and could not be read back. -/
def TrustsExit (postcondition : Postcondition) (outcome : RunOutcome)
    (after : Option WriteFacts) : Prop :=
  cleanExit outcome = true ∧ postcondition = .indexMayBeUnchanged ∧ after = none

/-- A command complained, and HEAD is at the same commit on another branch. -/
def HeadElsewhere (outcome : RunOutcome) (before : WriteFacts) (after : Option WriteFacts) : Prop :=
  outcome.state ≠ .notStarted ∧ cleanExit outcome = false ∧
    ∃ facts, after = some facts ∧ facts.head.oid = before.head.oid ∧
      facts.indexKey = before.indexKey ∧ facts.head ≠ before.head

theorem started_of_cleanExit {outcome : RunOutcome} (clean : cleanExit outcome = true) :
    outcome.state ≠ .notStarted := by
  intro unstarted
  simp [cleanExit, unstarted] at clean

section Soundness

variable {command : String} {postcondition : Postcondition} {outcome : RunOutcome}
  {before : WriteFacts} {after : Option WriteFacts}

theorem classifyWrite_unstarted (unstarted : outcome.state = .notStarted) :
    classifyWrite command postcondition outcome before after =
      .failed (refusalProblem command outcome) := by
  unfold classifyWrite
  rw [if_pos unstarted]

theorem classifyWrite_clean (clean : cleanExit outcome = true) :
    classifyWrite command postcondition outcome before after =
      classifyClean command postcondition before after := by
  unfold classifyWrite
  rw [if_neg (started_of_cleanExit clean), if_pos clean]

theorem headMoved_iff {facts : WriteFacts} :
    headMoved before (some facts) = true ↔ facts.head.oid ≠ before.head.oid := by
  simp [headMoved]

theorem indexMoved_iff {facts : WriteFacts} :
    indexMoved before (some facts) = true ↔ facts.indexKey ≠ before.indexKey := by
  simp [indexMoved]

theorem soundVerdict_unstarted (unstarted : outcome.state = .notStarted) :
    SoundVerdict postcondition outcome before after (.failed (refusalProblem command outcome)) where
  unread started := absurd unstarted started
  unchanged _ _ := .inl unstarted
  shown := by
    intro _ succeeded
    cases succeeded

theorem soundVerdict_unknown {reason : String} {problem : Problem} :
    SoundVerdict postcondition outcome before after (.unknown reason problem) where
  unread _ _ := ⟨reason, problem, rfl⟩
  unchanged := by
    intro _ failed
    cases failed
  shown := by
    intro _ succeeded
    cases succeeded

theorem soundVerdict_clean (clean : cleanExit outcome = true) :
    SoundVerdict postcondition outcome before after
        (classifyClean command postcondition before after) ↔
      ¬(postcondition = .indexMayBeUnchanged ∧ after = none) := by
  have started := started_of_cleanExit clean
  cases postcondition with
  | indexMayBeUnchanged =>
    cases after with
    | none =>
      apply iff_of_false
      · intro sound
        have unknown := sound.unread started rfl
        simp [classifyClean] at unknown
      · simp
    | some facts =>
      apply iff_of_true
      · exact { unread := by simp, unchanged := by simp [classifyClean],
                shown := fun _ _ => ⟨facts, rfl, trivial⟩ }
      · simp
  | headMustMove =>
    apply iff_of_true
    · unfold classifyClean
      dsimp only
      split
      · rename_i moved
        cases after with
        | none => simp [headMoved] at moved
        | some facts =>
          exact { unread := by simp, unchanged := by simp,
                  shown := fun _ _ => ⟨facts, rfl, headMoved_iff.mp moved⟩ }
      · exact soundVerdict_unknown
    · simp

theorem soundVerdict_complaint (started : outcome.state ≠ .notStarted)
    (complained : cleanExit outcome = false) : SoundVerdict postcondition outcome before after
        (classifyWrite command postcondition outcome before after) ↔
      ∀ facts, after = some facts → facts.head.oid = before.head.oid →
        facts.indexKey = before.indexKey → facts.head = before.head := by
  unfold classifyWrite
  rw [if_neg started, if_neg (by simp [complained])]
  cases after with
  | none =>
    apply iff_of_true
    · exact soundVerdict_unknown
    · simp
  | some facts =>
    by_cases moved : headMoved before (some facts) = true
    · rw [if_pos moved]
      apply iff_of_true
      · cases postcondition with
        | indexMayBeUnchanged => exact soundVerdict_unknown
        | headMustMove =>
          exact { unread := by simp, unchanged := by simp [classifyMoved],
                  shown := by simp [classifyMoved] }
      · intro _ same stays
        cases same
        exact absurd stays (headMoved_iff.mp moved)
    · rw [if_neg moved]
      rw [headMoved_iff, not_not] at moved
      by_cases index : indexMoved before (some facts) = true
      · rw [if_neg (by simp [index])]
        apply iff_of_true soundVerdict_unknown
        intro _ same _ stays
        cases same
        exact absurd stays (indexMoved_iff.mp index)
      · rw [if_pos (by simp [index])]
        rw [indexMoved_iff, not_not] at index
        constructor
        · intro sound _ same _ _
          cases same
          obtain unstarted | ⟨read, same, head, -⟩ := sound.unchanged _ rfl
          · exact absurd unstarted started
          · cases same
            exact head
        · intro stays
          exact { unread := by simp,
                  unchanged := fun _ _ => .inr ⟨facts, rfl, stays facts rfl moved index, index⟩,
                  shown := by simp }

end Soundness

/-- The answers are sound but for two kinds of result. -/
theorem classifyWrite_sound_iff (command : String) (postcondition : Postcondition)
    (outcome : RunOutcome) (before : WriteFacts) (after : Option WriteFacts) :
    SoundVerdict postcondition outcome before after
        (classifyWrite command postcondition outcome before after) ↔
      ¬TrustsExit postcondition outcome after ∧ ¬HeadElsewhere outcome before after := by
  by_cases unstarted : outcome.state = .notStarted
  · rw [classifyWrite_unstarted unstarted]
    apply iff_of_true (soundVerdict_unstarted unstarted)
    constructor
    · intro trusts
      exact started_of_cleanExit trusts.1 unstarted
    · intro elsewhere
      exact elsewhere.1 unstarted
  · cases clean : cleanExit outcome with
    | true =>
      rw [classifyWrite_clean clean, soundVerdict_clean clean]
      simp [TrustsExit, HeadElsewhere, clean]
    | false =>
      rw [soundVerdict_complaint unstarted clean]
      simp only [TrustsExit, HeadElsewhere, clean, Bool.false_eq_true, false_and, not_false_eq_true,
        true_and, unstarted, ne_eq, not_exists, not_and, not_not]

def exitedCleanly : RunOutcome where
  state := .completed
  exitCode := some 0
  stdout := []
  stderr := []
  outputComplete := true
  termination := none

def stagedBefore : WriteFacts where
  head := { kind := .born, branchName := some "main", oid := some "c1", detached := false }
  indexKey := "before"
  records := []

/-- A stage that could not be read back is reported as done. -/
theorem not_sound_unread_stage : ¬SoundVerdict .indexMayBeUnchanged exitedCleanly stagedBefore none
      (classifyWrite "git add" .indexMayBeUnchanged exitedCleanly stagedBefore none) := by
  intro sound
  have started : exitedCleanly.state ≠ .notStarted := by
    decide
  obtain ⟨reason, problem, unknown⟩ := sound.unread started rfl
  cases unknown

def readBack (target : WriteTarget) : Effect (Option WriteFacts) :=
  .askFor (target.command planStatus) fun answer => (factsOf answer).toOption

end Refyard
