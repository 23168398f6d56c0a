import Refyard.Writes.Destructive
import Refyard.Writes.Prepare

/-! Which destructive effects hold back without a confirmation, and which run anyway. -/
namespace Refyard

open Interaction

def MutationOperation.confirmed : MutationOperation → Option Bool
  | .amendCommit _ confirmed => some confirmed
  | .deleteBranch _ confirmed => some confirmed
  | .removeRemote _ confirmed => some confirmed
  | .popStash _ _ confirmed => some confirmed
  | .dropStash _ confirmed => some confirmed
  | .deleteTag _ confirmed => some confirmed
  | .removeWorktree _ confirmed => some confirmed
  | .abortMerge confirmed => some confirmed
  | .abortCherryPick confirmed => some confirmed
  | .abortRebase confirmed => some confirmed
  | .dropCommit _ confirmed => some confirmed
  | _ => none

/-- The effect that is dispatched to for an operation that carries a confirmation. -/
def destructiveEffect (host : WriteHost) (request : EffectRequest) :
    Option (Effect EffectOutcome) :=
  match request.request.operation.kind with
  | .amendCommit => some (amendCommit host request)
  | .deleteBranch => some (deleteBranch host request)
  | .removeRemote => some (removeRemote host request)
  | .popStash => some (popStash host request)
  | .dropStash => some (dropStash host request)
  | .deleteTag => some (deleteTag host request)
  | .removeWorktree => some (removeWorktree host request)
  | .abortMerge => some (abortMerge host request)
  | .abortCherryPick => some (abortCherryPick host request)
  | .abortRebase => some (abortRebase host request)
  | .dropCommit => some (dropCommit host request)
  | _ => none

def Untouched (transcript : Transcript GitCommand GitAnswer EffectOutcome EffectOutcome) :
    Prop :=
  (∀ exchange ∈ transcript.exchanges, OnlyReads exchange.1) ∧ Fails (reported transcript.ending)

section
variable {answers : Nat → GitAnswer}
variable {exit : EffectOutcome}

theorem untouched_leave (fails : Fails exit) (n : Nat) :
    Untouched (run answers (.leave exit : Effect EffectOutcome) n) :=
  ⟨by simp, fails⟩

/-- A part that only reads and fails when it leaves, and that leaves, behind others that
only read. -/
theorem untouched_of_leaves {α : Type} {program : Effect α} {behind : α → Effect EffectOutcome}
    {front exchanges : List (GitCommand × GitAnswer)} {n : Nat}
    (readBefore : ∀ exchange ∈ front, OnlyReads exchange.1) (reads : AsksOnly OnlyReads program)
    (fails : LeavesOnly Fails program) (left : run answers program n = ⟨exchanges, .error exit⟩) :
    Untouched ((run answers (program >>= behind) n).prepend front) := by
  have asked := reads.exchanges answers n
  have failed := fails.ending answers (congrArg Transcript.ending left)
  rw [left] at asked
  rw [run_bind_of_error answers left]
  refine ⟨fun exchange member => ?_, failed⟩
  rw [Transcript.prepend_mk, List.mem_append] at member
  exact member.elim (readBefore exchange) (asked exchange)

theorem untouched_of_stops {α : Type} {program : Effect α} {behind : α → Effect EffectOutcome}
    {exchanges : List (GitCommand × GitAnswer)} (reads : AsksOnly OnlyReads program)
    (fails : LeavesOnly Fails program) (left : run answers program 0 = ⟨exchanges, .error exit⟩) :
    Untouched (run answers (program >>= behind) 0) := by
  have none_before : ∀ exchange ∈ ([] : List (GitCommand × GitAnswer)), OnlyReads exchange.1 := by
    simp
  exact untouched_of_leaves none_before reads fails left

theorem not_untouched_of_command {plan : GitPlan} (changes : plan.readOnly = false)
    (target : WriteTarget) (behind : GitAnswer → Effect EffectOutcome)
    (front : List (GitCommand × GitAnswer)) (n : Nat) :
    ¬ Untouched ((run answers (tryRun target plan >>= behind) n).prepend front) := by
  rintro ⟨reads, -⟩
  have asked := reads (target.command plan, answers n) (by simp [tryRun])
  rw [OnlyReads, WriteTarget.command_plan, changes] at asked
  contradiction

end

section RefWrites

def RefWriteGoesOn (host : WriteHost) (request : EffectRequest) (plan : Except CoreError GitPlan)
    (answers : Nat → GitAnswer) : Prop :=
  plan.isOk ∧ (host.resolve request.request).isOk ∧ (factsOf (answers 0)).isOk

theorem runRefWrite_untouched_iff (host : WriteHost) (request : EffectRequest)
    {plan : Except CoreError GitPlan} (changes : ∀ planned, plan = .ok planned →
      planned.readOnly = false) (command summary : String) (answers : Nat → GitAnswer) :
    Untouched (run answers (runRefWrite host request plan command summary) 0) ↔
      ¬ RefWriteGoesOn host request plan answers := by
  unfold runRefWrite RefWriteGoesOn
  cases plan with
  | error error =>
    refine iff_of_true (untouched_leave (fails_refused _ _) 0) ?_
    simp [Except.isOk, Except.toBool]
  | ok planned =>
    rw [orInvalid_ok, done_bind]
    cases host.resolve request.request with
    | error problem =>
      refine iff_of_true (untouched_leave (fails_refused _ _) 0) ?_
      simp [Except.isOk, Except.toBool]
    | ok target =>
      rw [orRefuse_ok, done_bind]
      unfold readFacts
      rw [run_askFor_bind]
      cases factsOf (answers 0) with
      | error problem =>
        refine iff_of_true ⟨?_, fails_refused _ _⟩ (by simp [Except.isOk, Except.toBool])
        simp [OnlyReads, readOnly_planStatus]
      | ok before =>
        rw [orRefuse_ok, done_bind]
        refine iff_of_false (not_untouched_of_command (changes planned rfl) target _ _ _) ?_
        simp [Except.isOk, Except.toBool]

end RefWrites

section Aborts

theorem reads_requireStanding (operationId : String) (target : WriteTarget) {plan : GitPlan}
    (reads : plan.readOnly = true) (noun : String) :
    AsksOnly OnlyReads (requireStanding operationId target plan noun) := by
  apply AsksOnly.bind (reads_askFor target reads probeOf)
  intro standing
  match standing with
  | none => trivial
  | some false => trivial
  | some true => trivial

theorem fails_requireStanding (operationId : String) (target : WriteTarget) (plan : GitPlan)
    (noun : String) : LeavesOnly Fails (requireStanding operationId target plan noun) := by
  apply LeavesOnly.bind (LeavesOnly.askFor _ probeOf)
  intro standing
  match standing with
  | none => exact fails_refused operationId _
  | some false => exact fails_refused operationId _
  | some true => trivial

section
variable {answers : Nat → GitAnswer} (operationId : String) (target : WriteTarget)
  (plan : GitPlan) (noun : String)

theorem run_requireStanding {n : Nat} (stands : probeOf (answers n) = some true) :
    run answers (requireStanding operationId target plan noun) n =
      ⟨[(target.command plan, answers n)], .ok ()⟩ := by
  unfold requireStanding probe
  rw [run_askFor_bind, stands]
  rfl

theorem run_requireStanding_stops {n : Nat} (stands : probeOf (answers n) ≠ some true) :
    ∃ exit, run answers (requireStanding operationId target plan noun) n =
      ⟨[(target.command plan, answers n)], .error exit⟩ := by
  unfold requireStanding probe
  rw [run_askFor_bind]
  cases read : probeOf (answers n) with
  | none => exact ⟨_, rfl⟩
  | some standing =>
    cases standing with
    | false => exact ⟨_, rfl⟩
    | true => exact absurd read stands

end

/-- The request resolves, the sequencer's marker stands and the state can be read. -/
def AbortGoesOn (host : WriteHost) (request : EffectRequest) (answers : Nat → GitAnswer) : Prop :=
  (host.resolve request.request).isOk ∧ probeOf (answers 0) = some true ∧ (factsOf (answers 1)).isOk

theorem abortStanding_untouched_iff (host : WriteHost) (request : EffectRequest)
    {standing abort : GitPlan} (reads : standing.readOnly = true)
    (changes : abort.readOnly = false) (noun command summary : String) (answers : Nat → GitAnswer) :
    Untouched (run answers (abortStanding host request standing abort noun command summary) 0) ↔
      ¬ AbortGoesOn host request answers := by
  unfold abortStanding AbortGoesOn runPlan
  cases host.resolve request.request with
  | error problem =>
    refine iff_of_true (untouched_leave (fails_refused _ _) 0) ?_
    simp [Except.isOk, Except.toBool]
  | ok target =>
    rw [orRefuse_ok, done_bind]
    by_cases stands : probeOf (answers 0) = some true
    · rw [run_bind_of_ok answers (run_requireStanding _ target standing noun stands), done_bind]
      unfold readFacts
      rw [run_askFor_bind, List.length_singleton, Nat.zero_add]
      cases factsOf (answers 1) with
      | error problem =>
        refine iff_of_true ⟨?_, fails_refused _ _⟩ (by simp [Except.isOk, Except.toBool])
        simp [OnlyReads, reads, readOnly_planStatus]
      | ok before =>
        rw [orRefuse_ok, done_bind, Transcript.prepend_prepend]
        refine iff_of_false (not_untouched_of_command changes target _ _ _) ?_
        simp [Except.isOk, Except.toBool, stands]
    · obtain ⟨exit, left⟩ := run_requireStanding_stops request.operationId target standing noun stands
      refine iff_of_true (untouched_of_stops (reads_requireStanding _ target reads noun)
        (fails_requireStanding _ target standing noun) left) ?_
      rintro ⟨-, standing, -⟩
      exact stands standing

end Aborts

section Drop

/-- The commit's name is accepted, the effect is prepared, and the commit can be dropped. -/
def DropGoesOn (host : WriteHost) (request : EffectRequest) (oid : String)
    (answers : Nat → GitAnswer) : Prop :=
  validatedSourceOid oid = .ok () ∧
    ∃ target before plan, Prepared answers host request everySequencer target before ∧
      DropPlanned answers oid 5 plan

theorem dropCommit_untouched_iff (host : WriteHost) (request : EffectRequest) {oid : String}
    {confirmed : Bool} (drops : request.request.operation = .dropCommit oid confirmed)
    (answers : Nat → GitAnswer) : Untouched (run answers (dropCommit host request) 0) ↔
      ¬ DropGoesOn host request oid answers := by
  unfold dropCommit DropGoesOn
  rw [drops]
  dsimp only
  cases valid : validatedSourceOid oid with
  | error error =>
    unfold planDropCommitAncestry
    rw [valid]
    exact iff_of_true (untouched_leave (fails_refused _ _) 0) (by simp)
  | ok =>
    rw [planDropCommitAncestry_of_valid valid, orInvalid_ok, done_bind]
    by_cases prepared : ∃ target before, Prepared answers host request everySequencer target before
    · obtain ⟨target, before, prepared⟩ := prepared
      unfold prepareForReplay
      rw [run_bind_of_ok answers (run_prepare prepared), length_preparation]
      by_cases planned : ∃ plan, DropPlanned answers oid 5 plan
      · obtain ⟨plan, planned⟩ := planned
        have changes : plan.readOnly = false := by
          obtain ⟨_, -, rebased⟩ := planned.planned
          exact readOnly_of_planDropCommitRebase rebased
        dsimp only [everySequencer, List.length_cons, List.length_nil, Nat.zero_add]
        rw [run_bind_of_ok answers (run_planDrop answers _ target valid planned),
          Transcript.prepend_prepend]
        exact iff_of_false (not_untouched_of_command changes target _ _ _)
          (not_not_intro ⟨rfl, target, before, plan, prepared, planned⟩)
      · push Not at planned
        obtain ⟨exchanges, exit, left⟩ :=
          run_planDrop_stops answers request.operationId target valid planned
        refine iff_of_true (untouched_of_leaves (onlyReads_preparation prepared)
          (reads_planDrop _ target valid) (fails_planDrop _ target) left) ?_
        rintro ⟨-, -, -, plan, -, ready⟩
        exact planned plan ready
    · push Not at prepared
      obtain ⟨exchanges, exit, left⟩ := run_prepare_stops prepared
      refine iff_of_true (untouched_of_stops (reads_prepare host request _)
        (fails_prepare host request _) left) ?_
      rintro ⟨-, target, before, plan, ready, -⟩
      exact prepared target before ready

end Drop

section Claim

/-- With which answers an operation's effect comes to the command that changes something,
although nobody confirmed it. Only the effects without a gate do. -/
def GoesOnUnconfirmed (host : WriteHost) (request : EffectRequest) (answers : Nat → GitAnswer) :
    Prop :=
  match request.request.operation with
  | .deleteBranch name _ => RefWriteGoesOn host request (planBranchDelete name) answers
  | .deleteTag name _ => RefWriteGoesOn host request (planTagDelete name) answers
  | .abortMerge _ | .abortCherryPick _ | .abortRebase _ => AbortGoesOn host request answers
  | .dropCommit oid _ => DropGoesOn host request oid answers
  | _ => False

variable (host : WriteHost) (request : EffectRequest) (answers : Nat → GitAnswer)

theorem untouched_gate (operationId what : String) (behind : Unit → Effect EffectOutcome) :
    Untouched (run answers (requireConfirmed operationId false what >>= behind) 0) :=
  untouched_leave (fails_refused operationId _) 0

theorem amendCommit_untouched {message : Option String}
    (amends : request.request.operation = .amendCommit message false) :
    Untouched (run answers (amendCommit host request) 0) := by
  unfold amendCommit
  rw [amends]
  exact untouched_gate answers _ _ _

variable {name : String}

theorem removeRemote_untouched (removes : request.request.operation = .removeRemote name false) :
    Untouched (run answers (removeRemote host request) 0) := by
  unfold removeRemote
  rw [removes]
  exact untouched_gate answers _ _ _

theorem popStash_untouched {stash : StashRef} {restoreIndex : Bool}
    (pops : request.request.operation = .popStash stash restoreIndex false) :
    Untouched (run answers (popStash host request) 0) := by
  unfold popStash
  rw [pops]
  exact untouched_gate answers _ _ _

theorem dropStash_untouched {stash : StashRef}
    (drops : request.request.operation = .dropStash stash false) :
    Untouched (run answers (dropStash host request) 0) := by
  unfold dropStash
  rw [drops]
  exact untouched_gate answers _ _ _

theorem removeWorktree_untouched {worktreeId : String}
    (removes : request.request.operation = .removeWorktree worktreeId false) :
    Untouched (run answers (removeWorktree host request) 0) := by
  unfold removeWorktree
  rw [removes]
  exact untouched_gate answers _ _ _

theorem eq_of_checked {check : Except CoreError Unit} {plan planned : GitPlan}
    (accepted : (do check; pure plan) = Except.ok planned) : plan = planned := by
  cases check with
  | error error => cases accepted
  | ok => exact Except.ok.inj accepted

theorem deleteBranch_untouched_iff {confirmed : Bool}
    (deletes : request.request.operation = .deleteBranch name confirmed) :
    Untouched (run answers (deleteBranch host request) 0) ↔
      ¬ RefWriteGoesOn host request (planBranchDelete name) answers := by
  unfold deleteBranch
  rw [deletes]
  apply runRefWrite_untouched_iff
  intro planned accepted
  rw [← eq_of_checked accepted]
  rfl

theorem deleteTag_untouched_iff {confirmed : Bool}
    (deletes : request.request.operation = .deleteTag name confirmed) :
    Untouched (run answers (deleteTag host request) 0) ↔
      ¬ RefWriteGoesOn host request (planTagDelete name) answers := by
  unfold deleteTag
  rw [deletes]
  apply runRefWrite_untouched_iff
  intro planned accepted
  rw [← eq_of_checked accepted]
  rfl

theorem abortMerge_untouched_iff {confirmed : Bool}
    (aborts : request.request.operation = .abortMerge confirmed) :
    Untouched (run answers (abortMerge host request) 0) ↔ ¬ AbortGoesOn host request answers := by
  unfold abortMerge
  rw [aborts]
  exact abortStanding_untouched_iff host request (by decide) (by decide) _ _ _ answers

theorem abortCherryPick_untouched_iff {confirmed : Bool}
    (aborts : request.request.operation = .abortCherryPick confirmed) :
    Untouched (run answers (abortCherryPick host request) 0) ↔
      ¬ AbortGoesOn host request answers := by
  unfold abortCherryPick
  rw [aborts]
  exact abortStanding_untouched_iff host request (by decide) (by decide) _ _ _ answers

theorem abortRebase_untouched_iff {confirmed : Bool}
    (aborts : request.request.operation = .abortRebase confirmed) :
    Untouched (run answers (abortRebase host request) 0) ↔ ¬ AbortGoesOn host request answers := by
  unfold abortRebase
  rw [aborts]
  exact abortStanding_untouched_iff host request (by decide) (by decide) _ _ _ answers

end Claim

/-- Without a confirmation an effect asks for no command that changes something, and fails,
exactly if it has a gate or stops before that command anyway. -/
theorem unconfirmed_effect_untouched_iff (host : WriteHost) (request : EffectRequest)
    (answers : Nat → GitAnswer) (unconfirmed : request.request.operation.confirmed = some false) :
    ∃ effect, destructiveEffect host request = some effect ∧
      (Untouched (run answers effect 0) ↔ ¬ GoesOnUnconfirmed host request answers) := by
  unfold destructiveEffect GoesOnUnconfirmed
  cases operation : request.request.operation <;> rw [operation] at unconfirmed
  case amendCommit message confirmed =>
    cases unconfirmed
    exact ⟨_, rfl, iff_of_true (amendCommit_untouched host request answers operation) id⟩
  case removeRemote name confirmed =>
    cases unconfirmed
    exact ⟨_, rfl, iff_of_true (removeRemote_untouched host request answers operation) id⟩
  case popStash stash restoreIndex confirmed =>
    cases unconfirmed
    exact ⟨_, rfl, iff_of_true (popStash_untouched host request answers operation) id⟩
  case dropStash stash confirmed =>
    cases unconfirmed
    exact ⟨_, rfl, iff_of_true (dropStash_untouched host request answers operation) id⟩
  case removeWorktree worktreeId confirmed =>
    cases unconfirmed
    exact ⟨_, rfl, iff_of_true (removeWorktree_untouched host request answers operation) id⟩
  case deleteBranch => exact ⟨_, rfl, deleteBranch_untouched_iff host request answers operation⟩
  case deleteTag => exact ⟨_, rfl, deleteTag_untouched_iff host request answers operation⟩
  case abortMerge => exact ⟨_, rfl, abortMerge_untouched_iff host request answers operation⟩
  case abortCherryPick =>
    exact ⟨_, rfl, abortCherryPick_untouched_iff host request answers operation⟩
  case abortRebase => exact ⟨_, rfl, abortRebase_untouched_iff host request answers operation⟩
  case dropCommit => exact ⟨_, rfl, dropCommit_untouched_iff host request operation answers⟩
  all_goals cases unconfirmed

def unconfirmedDelete : EffectRequest := sampleRequest (.deleteBranch "topic" false)

def deleteAnswers : Nat → GitAnswer :=
  answersOf [statusAt "1111111111111111111111111111111111111111", finished 0 [],
    statusAt "1111111111111111111111111111111111111111"]

/-- The branch is deleted. -/
theorem unconfirmed_branch_is_deleted :
    ¬ ∀ (host : WriteHost) (request : EffectRequest) (answers : Nat → GitAnswer),
      request.request.operation.confirmed = some false →
        ∃ effect, destructiveEffect host request = some effect ∧
          Untouched (run answers effect 0) := by
  intro claim
  obtain ⟨effect, found, untouched⟩ := claim sampleHost unconfirmedDelete deleteAnswers rfl
  cases found
  rw [deleteBranch_untouched_iff sampleHost unconfirmedDelete deleteAnswers rfl] at untouched
  apply untouched
  exact ⟨by decide +kernel, resolve_sample _, by decide +kernel⟩

theorem unconfirmed_effect_of_delete :
    ∃ effect, destructiveEffect sampleHost unconfirmedDelete = some effect ∧
      (Untouched (run deleteAnswers effect 0) ↔
        ¬ GoesOnUnconfirmed sampleHost unconfirmedDelete deleteAnswers) :=
  unconfirmed_effect_untouched_iff sampleHost unconfirmedDelete deleteAnswers rfl

end Refyard
