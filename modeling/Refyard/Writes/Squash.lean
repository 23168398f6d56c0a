import Refyard.Writes.Rewrites

/-! A squash judges its second command against what its first one left. With it the five
rewrites are complete: each is honest about its failures except with the answers named. -/
namespace Refyard

open Interaction

section Foldable
variable {answers : Nat → GitAnswer} (operationId : String) (target : WriteTarget)
  (before : WriteFacts) (n : Nat)

def Foldable (before : WriteFacts) (answer : GitAnswer) : Prop :=
  before.head.oid.isNone = false ∧ probeOf answer ≠ some true

theorem reads_requireFoldable : AsksOnly OnlyReads (requireFoldable operationId target before) := by
  unfold requireFoldable
  split
  · trivial
  · apply AsksOnly.bind (reads_askFor target rfl probeOf)
    intro empty
    split <;> trivial

theorem run_requireFoldable (foldable : Foldable before (answers n)) :
    run answers (requireFoldable operationId target before) n =
      ⟨[(target.command planTopCommitDiff, answers n)], .ok ()⟩ := by
  unfold requireFoldable probe
  rw [if_neg (by simp [foldable.1]), run_askFor_bind, if_neg foldable.2]
  rfl

theorem run_requireFoldable_stops (unfoldable : ¬ Foldable before (answers n)) :
    ∃ exchanges exit, run answers (requireFoldable operationId target before) n =
      ⟨exchanges, .error exit⟩ := by
  unfold requireFoldable probe
  by_cases unborn : before.head.oid.isNone = true
  · rw [if_pos unborn]
    exact ⟨_, _, rfl⟩
  · have empty : probeOf (answers n) = some true := by
      by_contra other
      exact unfoldable ⟨Bool.eq_false_iff.mpr unborn, other⟩
    rw [if_neg unborn, run_askFor_bind, if_pos empty]
    exact ⟨_, _, rfl⟩

end Foldable

theorem readOnly_of_planAmendCommit {message : Option Bytes} {plan : GitPlan}
    (planned : planAmendCommit message = .ok plan) : plan.readOnly = false := by
  unfold planAmendCommit at planned
  split at planned
  · cases planned
    rfl
  · split at planned
    · cases planned
    · split at planned
      · cases planned
      · split at planned
        · cases planned
        · cases planned
          rfl

section Fold
variable {answers : Nat → GitAnswer} {target : WriteTarget} {markers : List Sequencer}
  {earlier front : Exchanges} {before : WriteFacts}

theorem sameState_status (facts : factsIn earlier = some before) (answer : GitAnswer) :
    SameState markers earlier [(target.command planStatus, answer)] ↔
      ∃ after, factsOf answer = .ok after ∧ markers = [] ∧ after.head = before.head ∧
        after.indexKey = before.indexKey := by
  have read : factsIn [(target.command planStatus, answer)] = (factsOf answer).toOption := by
    simp [factsIn]
  have unread : ∀ state, markerIn state [(target.command planStatus, answer)] = none := by
    intro state
    simp [markerIn, state.plan_ne_status.symm]
  constructor
  · rintro ⟨⟨first, after, found, again, head, index⟩, sequencer⟩
    rw [facts] at found
    cases found
    rw [read, toOption_eq_some] at again
    refine ⟨after, again, ?_, head, index⟩
    rw [List.eq_nil_iff_forall_not_mem]
    intro state counts
    obtain ⟨standing, -, later⟩ := sequencer state counts
    rw [unread] at later
    cases later
  · rintro ⟨after, again, rfl, head, index⟩
    refine ⟨⟨before, after, facts, ?_, head, index⟩, List.forall_mem_nil _⟩
    rw [read, again]
    rfl

/-- With which answers from the amend on, the `n`th, the squash says that the repository is
unchanged: the executor's own words say it, or what the reset left is what was read behind
the amend, and that is not what was read first. -/
def FoldMisreports (markers : List Sequencer) (before afterReset : WriteFacts)
    (answers : Nat → GitAnswer) (n : Nat) : Prop :=
  match answers n with
  | .error problem => SaysUnchanged problem.message
  | .ok outcome =>
      ∃ after, factsOf (answers (n + 1)) = .ok after ∧ JudgedUnchanged outcome afterReset after ∧
        ¬ (markers = [] ∧ after.head = before.head ∧ after.indexKey = before.indexKey)

def foldedOutcome (outcome : RunOutcome) (afterReset : WriteFacts) (after : Option WriteFacts) :
    EffectOutcome :=
  let verdict := classifyWrite "git commit --amend" .headMustMove outcome afterReset after
  effectOutcome verdict (squashSummary verdict) none

theorem claimsUnchanged_foldedOutcome (outcome : RunOutcome) (afterReset : WriteFacts)
    (after : Option WriteFacts) : ClaimsUnchanged (foldedOutcome outcome afterReset after) ↔
      ∃ facts, after = some facts ∧ JudgedUnchanged outcome afterReset facts := by
  have mute : ¬ SaysUnchanged ("git commit --amend" ++ " could not be started") :=
    not_saysUnchanged_notStarted (by decide)
  exact claimsUnchanged_classifyWrite mute .headMustMove outcome afterReset after _

theorem onlyReads_status {answer : GitAnswer} :
    ∀ exchange ∈ [(target.command planStatus, answer)], OnlyReads exchange.1 := by
  intro exchange member
  rw [List.mem_singleton] at member
  exact member ▸ readOnly_planStatus

theorem foldTop_honest_iff {operationId : String} {amend : GitPlan} {afterReset : WriteFacts}
    {first : GitCommand × GitAnswer} {n : Nat}
    (readEarlier : ∀ exchange ∈ earlier, OnlyReads exchange.1)
    (facts : factsIn earlier = some before) (firstChanges : ¬ OnlyReads first.1)
    (changes : amend.readOnly = false) :
    HonestFailure markers ((run answers (foldTop operationId target amend afterReset) n).prepend
        (earlier ++ first :: front)) ↔ ¬ FoldMisreports markers before afterReset answers n := by
  have command : ¬ OnlyReads (target.command amend) := by
    simp [OnlyReads, changes]
  unfold foldTop tryRun FoldMisreports
  rw [run_askFor_bind]
  cases answered : answers n with
  | error problem =>
    have ended : HonestFailure markers
        ⟨earlier ++ first :: (front ++ [(target.command amend, .error problem)]),
          .error (refused operationId problem)⟩ ↔ ¬ ClaimsUnchanged (refused operationId problem) :=
      honestFailure_last readEarlier firstChanges command
    rw [claimsUnchanged_refused] at ended
    simpa using ended
  | ok outcome =>
    dsimp only [id]
    rw [orRefuse_ok, done_bind]
    by_cases unstarted : outcome.state = .notStarted
    · have mute : ¬ SaysUnchanged ("git commit" ++ " could not be started") :=
        not_saysUnchanged_notStarted (by decide)
      rw [if_pos unstarted]
      refine iff_of_true (honestFailure_of_silent
        (silent_of_notStarted mute unstarted "squash commit")) ?_
      rintro ⟨after, -, judged, -⟩
      exact judged.started unstarted
    · rw [if_neg unstarted]
      have ended : HonestFailure markers
          ⟨(earlier ++ first :: front) ++ (target.command amend, .ok outcome) ::
              [(target.command planStatus, answers (n + 1))],
            .ok (foldedOutcome outcome afterReset (factsOf (answers (n + 1))).toOption)⟩ ↔
            ¬ ∃ after, factsOf (answers (n + 1)) = .ok after ∧
              JudgedUnchanged outcome afterReset after ∧
                ¬ (markers = [] ∧ after.head = before.head ∧ after.indexKey = before.indexKey) := by
        rw [honestFailure_iff readEarlier onlyReads_status firstChanges command
          (List.append_assoc _ _ _) rfl, sameState_status facts]
        exact borneOut_iff (claimsUnchanged_foldedOutcome outcome afterReset _)
      simpa [readBack, foldedOutcome] using ended

def ResetMisreports (markers : List Sequencer) (before : WriteFacts)
    (answers : Nat → GitAnswer) (n : Nat) : Prop :=
  match answers n with
  | .error problem => SaysUnchanged problem.message
  | .ok outcome =>
      outcome.state ≠ .notStarted ∧ ∃ afterReset, factsOf (answers (n + 1)) = .ok afterReset ∧
        FoldMisreports markers before afterReset answers (n + 2)

def resetAndFold (operationId : String) (target : WriteTarget) (amend : GitPlan) :
    Effect EffectOutcome := do
  let outcome ← orRefuse operationId (← tryRun target planSquashSoftReset)
  if outcome.state = .notStarted then
    pure (effectOutcome (.failed (refusalProblem "git reset" outcome)) "squash commit" none)
  else
    match ← readBack target with
    | none =>
        pure (effectOutcome
          (.unknown "the soft reset could not be confirmed by a re-read"
            (unknownProblem "git reset --soft"
              "the branch moved but the repository could not be re-read; whether the squash completed is not known, and nothing was retried"))
          "squash commit" none)
    | some afterReset => foldTop operationId target amend afterReset

theorem resetAndFold_honest_iff {operationId : String} {amend : GitPlan} {n : Nat}
    (readEarlier : ∀ exchange ∈ earlier, OnlyReads exchange.1)
    (facts : factsIn earlier = some before) (changes : amend.readOnly = false) :
    HonestFailure markers ((run answers (resetAndFold operationId target amend) n).prepend
        earlier) ↔ ¬ ResetMisreports markers before answers n := by
  have reset : ¬ OnlyReads (target.command planSquashSoftReset) := by
    rw [OnlyReads, target.command_plan]
    decide
  unfold resetAndFold tryRun ResetMisreports
  rw [run_askFor_bind]
  cases answered : answers n with
  | error problem =>
    have ended : HonestFailure markers
        ⟨earlier ++ [(target.command planSquashSoftReset, .error problem)],
          .error (refused operationId problem)⟩ ↔ ¬ ClaimsUnchanged (refused operationId problem) :=
      honestFailure_unread readEarlier (List.forall_mem_nil _) reset rfl
    rw [claimsUnchanged_refused] at ended
    exact ended
  | ok outcome =>
    dsimp only [id]
    rw [orRefuse_ok, done_bind]
    by_cases unstarted : outcome.state = .notStarted
    · have mute : ¬ SaysUnchanged ("git reset" ++ " could not be started") :=
        not_saysUnchanged_notStarted (by decide)
      rw [if_pos unstarted]
      refine iff_of_true (honestFailure_of_silent
        (silent_of_notStarted mute unstarted "squash commit")) ?_
      rintro ⟨started, -⟩
      exact started unstarted
    · unfold readBack
      rw [if_neg unstarted, run_askFor_bind]
      cases read : factsOf (answers (n + 1)) with
      | error problem =>
        exact iff_of_true (honestFailure_of_silent (not_claimsUnchanged_unknown _ _)) (by simp)
      | ok afterReset =>
        rw [Transcript.prepend_prepend, Transcript.prepend_prepend, List.append_assoc]
        have folded : HonestFailure markers ((run answers
            (foldTop operationId target amend afterReset) (n + 2)).prepend
            (earlier ++ (target.command planSquashSoftReset, .ok outcome) ::
              [(target.command planStatus, answers (n + 1))])) ↔
            ¬ FoldMisreports markers before afterReset answers (n + 2) :=
          foldTop_honest_iff readEarlier facts reset changes
        have single : (∃ facts, (Except.ok afterReset : Except Problem WriteFacts) = .ok facts ∧
            FoldMisreports markers before facts answers (n + 2)) ↔
            FoldMisreports markers before afterReset answers (n + 2) := by
          simp
        rw [and_iff_right unstarted, single]
        exact folded

end Fold

section Squash
variable {markers : List Sequencer} {host : WriteHost} {request : EffectRequest}
  {answers : Nat → GitAnswer}

/-- With which answers a squash says that the repository is unchanged although nothing it
read bears that out. -/
def SquashMisreports (markers : List Sequencer) (host : WriteHost) (request : EffectRequest)
    (answers : Nat → GitAnswer) (message : Option String) : Prop :=
  ∃ amend, planAmendCommit (message.map textBytes) = .ok amend ∧
    ∃ target before, Prepared answers host request everySequencer target before ∧
      Foldable before (answers 5) ∧ ResetMisreports markers before answers 6

theorem squashCommit_honest_iff {message : Option String}
    (squashes : request.request.operation = .squashCommit message) :
    HonestFailure markers (run answers (squashCommit host request) 0) ↔
      ¬ SquashMisreports markers host request answers message := by
  unfold squashCommit
  rw [squashes]
  apply checked_honest_iff
  intro amend planned
  apply prepare_honest_iff
  intro target before ready
  have length : everySequencer.length + 1 = 5 := rfl
  rw [length]
  by_cases foldable : Foldable before (answers 5)
  · rw [run_bind_of_ok answers (run_requireFoldable request.operationId target before 5 foldable),
      Transcript.prepend_prepend, and_iff_right foldable]
    have readEarlier : ∀ exchange ∈ preparation answers target everySequencer ++
        [(target.command planTopCommitDiff, answers 5)], OnlyReads exchange.1 := by
      intro exchange member
      rw [List.mem_append, List.mem_singleton] at member
      cases member with
      | inl prepared => exact onlyReads_preparation ready exchange prepared
      | inr probed => exact probed ▸ rfl
    exact resetAndFold_honest_iff readEarlier (factsIn_preparation ready _)
      (readOnly_of_planAmendCommit planned)
  · obtain ⟨exchanges, exit, left⟩ :=
      run_requireFoldable_stops request.operationId target before 5 foldable
    have asked := (reads_requireFoldable request.operationId target before).exchanges answers 5
    rw [left] at asked
    rw [run_bind_of_error answers left]
    refine iff_of_true (honestFailure_of_reads ?_) fun ⟨known, _⟩ => foldable known
    intro exchange member
    exact (List.mem_append.mp member).elim (onlyReads_preparation ready exchange) (asked exchange)

end Squash

section Rewrites

inductive Rewrite where
  | cherryPick
  | revertCommit
  | rebase
  | dropCommit
  | squashCommit

def Rewrite.effect : Rewrite → WriteHost → EffectRequest → Effect EffectOutcome
  | .cherryPick => Refyard.cherryPick
  | .revertCommit => Refyard.revertCommit
  | .rebase => Refyard.rebase
  | .dropCommit => Refyard.dropCommit
  | .squashCommit => Refyard.squashCommit

/-- With which answers a rewrite says that the repository is unchanged although nothing it
read bears that out. A payload of another kind never comes so far. -/
def Rewrite.Misreports (rewrite : Rewrite) (markers : List Sequencer) (host : WriteHost)
    (request : EffectRequest) (answers : Nat → GitAnswer) : Prop :=
  match rewrite, request.request.operation with
  | .cherryPick, .cherryPick oid => CherryPickMisreports markers host request answers oid
  | .revertCommit, .revertCommit oid => RevertMisreports markers host request answers oid
  | .rebase, .rebase upstreamOid => RebaseMisreports markers host request answers upstreamOid
  | .dropCommit, .dropCommit oid _ => DropMisreports markers host request answers oid
  | .squashCommit, .squashCommit message => SquashMisreports markers host request answers message
  | _, _ => False

/-- Whatever the executor answers, and whichever sequencer states count as the repository's
own, a rewrite that says that nothing changed has read it, except with those answers. -/
theorem rewrite_honest_iff (rewrite : Rewrite) (markers : List Sequencer) (host : WriteHost)
    (request : EffectRequest) (answers : Nat → GitAnswer) :
    HonestFailure markers (run answers (rewrite.effect host request) 0) ↔
      ¬ rewrite.Misreports markers host request answers := by
  unfold Rewrite.Misreports
  cases rewrite with
  | cherryPick =>
    dsimp only [Rewrite.effect]
    cases operation : request.request.operation with
    | cherryPick oid => exact cherryPick_honest_iff operation
    | _ =>
      unfold cherryPick
      rw [operation]
      exact iff_of_true (honest_done _ 0) id
  | revertCommit =>
    dsimp only [Rewrite.effect]
    cases operation : request.request.operation with
    | revertCommit oid => exact revertCommit_honest_iff operation
    | _ =>
      unfold revertCommit
      rw [operation]
      exact iff_of_true (honest_done _ 0) id
  | rebase =>
    dsimp only [Rewrite.effect]
    cases operation : request.request.operation with
    | rebase upstreamOid => exact rebase_honest_iff operation
    | _ =>
      unfold rebase
      rw [operation]
      exact iff_of_true (honest_done _ 0) id
  | dropCommit =>
    dsimp only [Rewrite.effect]
    cases operation : request.request.operation with
    | dropCommit oid confirmed => exact dropCommit_honest_iff operation
    | _ =>
      unfold dropCommit
      rw [operation]
      exact iff_of_true (honest_done _ 0) id
  | squashCommit =>
    dsimp only [Rewrite.effect]
    cases operation : request.request.operation with
    | squashCommit message => exact squashCommit_honest_iff operation
    | _ =>
      unfold squashCommit
      rw [operation]
      exact iff_of_true (honest_done _ 0) id

def emptyPick : EffectRequest :=
  sampleRequest (.cherryPick "2222222222222222222222222222222222222222")

/-- Nothing stands before the pick. It stops, nothing is unmerged, and the abort fails. -/
def failedAbort : Nat → GitAnswer :=
  answersOf [statusAt "1111111111111111111111111111111111111111", finished 1 [], finished 1 [],
    finished 1 [], finished 1 [], finished 0 [], finished 0 [], finished 128 []]

/-- The pick whose abort failed is reported as aborted, whatever counts. -/
theorem failed_abort_is_called_unchanged :
    ¬ ∃ markers, ∀ (rewrite : Rewrite) (host : WriteHost) (request : EffectRequest)
      (answers : Nat → GitAnswer),
        HonestFailure markers (run answers (rewrite.effect host request) 0) := by
  rintro ⟨markers, claim⟩
  have honest := claim .cherryPick sampleHost emptyPick failedAbort
  rw [Rewrite.effect, cherryPick_honest_iff rfl] at honest
  apply honest
  have resolves : (sampleHost.resolve emptyPick.request).isOk = true := resolve_sample _
  have readable : (factsOf (failedAbort 0)).isOk = true := by decide +kernel
  cases resolved : sampleHost.resolve emptyPick.request with
  | error problem =>
    rw [resolved] at resolves
    cases resolves
  | ok target =>
    cases read : factsOf (failedAbort 0) with
    | error problem =>
      rw [read] at readable
      cases readable
    | ok before =>
      refine ⟨_, rfl, target, before, ⟨resolved, read, ?_⟩, ?_⟩
      · unfold NoneStands
        decide +kernel
      · have stands : StopStands failedAbort (finished 1 []) 5 := by decide +kernel
        have unseen : AbortUnseen failedAbort true 5 := by
          rw [AbortUnseen, if_pos rfl]
          decide +kernel
        unfold ReplayMisreports
        show if StopStands failedAbort (finished 1 []) 5 then AbortUnseen failedAbort true 5 else _
        rwa [if_pos stands]

end Rewrites

end Refyard
