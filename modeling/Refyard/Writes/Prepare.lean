import Refyard.Writes.Replay

/-! What an effect reads before its first command that changes anything: with which answers
it goes on, and that otherwise it fails having only read. -/
namespace Refyard

open Interaction

def OnlyReads (command : GitCommand) : Prop := command.plan.readOnly = true

def Fails (outcome : EffectOutcome) : Prop := ∃ problem, outcome = .failed problem

theorem fails_refused (operationId : String) (problem : Problem) :
    Fails (refused operationId problem) :=
  ⟨_, rfl⟩

theorem readOnly_planStatus : planStatus.readOnly = true := by
  decide

theorem Sequencer.readOnly_plan (state : Sequencer) : state.plan.readOnly = true := by
  cases state <;> decide

section
variable {α : Type} (operationId : String)

theorem reads_askFor (target : WriteTarget) {plan : GitPlan} (readOnly : plan.readOnly = true)
    (read : GitAnswer → α) : AsksOnly OnlyReads (.askFor (target.command plan) read : Effect α) :=
  ⟨readOnly, fun _ => trivial⟩

variable (value : Except Problem α) (plan : Except CoreError α)

theorem fails_orRefuse : LeavesOnly Fails (orRefuse operationId value) :=
  match value with
  | .ok _ => trivial
  | .error problem => fails_refused operationId problem

theorem fails_orInvalid : LeavesOnly Fails (orInvalid operationId plan) :=
  match plan with
  | .ok _ => trivial
  | .error _ => fails_refused operationId _

theorem reads_orRefuse : AsksOnly OnlyReads (orRefuse operationId value) :=
  .orLeave _

theorem reads_orInvalid : AsksOnly OnlyReads (orInvalid operationId plan) :=
  .orLeave _

end

section Standing
variable (answers : Nat → GitAnswer) (operationId : String) (target : WriteTarget)

def NoneStands (states : List Sequencer) (n : Nat) : Prop :=
  ∀ i < states.length, probeOf (answers (n + i)) = some false

variable {states : List Sequencer} {n : Nat}

theorem noneStands_cons {answers : Nat → GitAnswer} {state : Sequencer} :
    NoneStands answers (state :: states) n ↔
      probeOf (answers n) = some false ∧ NoneStands answers states (n + 1) := by
  constructor
  · intro clear
    refine ⟨clear 0 (by simp), fun i below => ?_⟩
    have later := clear (i + 1) (by simpa using below)
    rwa [show n + (i + 1) = n + 1 + i by omega] at later
  · rintro ⟨first, later⟩ i below
    cases i with
    | zero => exact first
    | succ i =>
      rw [show n + (i + 1) = n + 1 + i by omega]
      exact later i (by simpa using below)

def standingProbes (states : List Sequencer) (n : Nat) : List (GitCommand × GitAnswer) :=
  match states with
  | [] => []
  | state :: states =>
      (target.command state.plan, answers n) :: standingProbes states (n + 1)

@[simp] theorem length_standingProbes (states : List Sequencer) (n : Nat) :
    (standingProbes answers target states n).length = states.length := by
  induction states generalizing n with
  | nil => rfl
  | cons state states ih => simp [standingProbes, ih]

theorem reads_refuseStanding (states : List Sequencer) :
    AsksOnly OnlyReads (refuseStandingSequencers operationId target states) := by
  induction states with
  | nil => trivial
  | cons state states ih =>
    apply AsksOnly.bind (reads_askFor target state.readOnly_plan probeOf)
    intro standing
    cases standing with
    | none => trivial
    | some stands =>
      cases stands with
      | true => trivial
      | false => exact ih

theorem fails_refuseStanding (states : List Sequencer) :
    LeavesOnly Fails (refuseStandingSequencers operationId target states) := by
  induction states with
  | nil => trivial
  | cons state states ih =>
    apply LeavesOnly.bind (LeavesOnly.askFor _ probeOf)
    intro standing
    cases standing with
    | none => exact fails_refused operationId _
    | some stands =>
      cases stands with
      | true => exact fails_refused operationId _
      | false => exact ih

theorem run_refuseStanding (clear : NoneStands answers states n) :
    run answers (refuseStandingSequencers operationId target states) n =
      ⟨standingProbes answers target states n, .ok ()⟩ := by
  induction states generalizing n with
  | nil => rfl
  | cons state states ih =>
    rw [noneStands_cons] at clear
    unfold refuseStandingSequencers probe
    rw [run_askFor_bind, clear.1]
    rw [ih clear.2]
    rfl

theorem run_refuseStanding_stops (standing : ¬ NoneStands answers states n) :
    ∃ exchanges exit, run answers (refuseStandingSequencers operationId target states) n =
      ⟨exchanges, .error exit⟩ := by
  induction states generalizing n with
  | nil => exact absurd (fun i below => absurd below (Nat.not_lt_zero i)) standing
  | cons state states ih =>
    rw [noneStands_cons] at standing
    unfold refuseStandingSequencers probe
    rw [run_askFor_bind]
    cases first : probeOf (answers n) with
    | none => exact ⟨_, _, rfl⟩
    | some stands =>
      cases stands with
      | true => exact ⟨_, _, rfl⟩
      | false =>
        obtain ⟨exchanges, exit, ran⟩ := ih fun later => standing ⟨first, later⟩
        refine ⟨(target.command state.plan, answers n) :: exchanges, exit, ?_⟩
        rw [ran]
        rfl

end Standing

section Prepare
variable (answers : Nat → GitAnswer) (host : WriteHost) (request : EffectRequest)

/-- The request resolves, the state is readable, and no sequencer state stands. -/
structure Prepared (states : List Sequencer) (target : WriteTarget) (before : WriteFacts) :
    Prop where
  resolved : host.resolve request.request = .ok target
  facts : factsOf (answers 0) = .ok before
  clear : NoneStands answers states 1

def preparation (target : WriteTarget) (states : List Sequencer) :
    List (GitCommand × GitAnswer) :=
  (target.command planStatus, answers 0) :: standingProbes answers target states 1

variable {answers host request}

theorem length_preparation (target : WriteTarget) (states : List Sequencer) :
    (preparation answers target states).length = states.length + 1 := by
  simp [preparation]

variable {states : List Sequencer}
variable {target : WriteTarget} {before : WriteFacts}

theorem run_prepare (ready : Prepared answers host request states target before) :
    run answers (prepare host request states) 0 =
      ⟨preparation answers target states, .ok (target, before)⟩ := by
  unfold prepare readFacts
  rw [ready.resolved, orRefuse_ok, done_bind, run_askFor_bind, ready.facts, orRefuse_ok, done_bind,
    run_bind_of_ok answers (run_refuseStanding answers _ target ready.clear)]
  simp [preparation]

theorem run_prepare_stops
    (unready : ∀ target before, ¬ Prepared answers host request states target before) :
    ∃ exchanges exit, run answers (prepare host request states) 0 = ⟨exchanges, .error exit⟩ := by
  unfold prepare readFacts
  cases resolved : host.resolve request.request with
  | error problem => exact ⟨_, _, rfl⟩
  | ok target =>
    rw [orRefuse_ok, done_bind, run_askFor_bind]
    cases facts : factsOf (answers 0) with
    | error problem => exact ⟨_, _, rfl⟩
    | ok before =>
      rw [orRefuse_ok, done_bind]
      obtain ⟨exchanges, exit, ran⟩ := run_refuseStanding_stops answers request.operationId target
        fun clear => unready target before ⟨resolved, facts, clear⟩
      rw [run_bind_of_error answers ran]
      exact ⟨_, _, rfl⟩

theorem reads_prepare (host : WriteHost) (request : EffectRequest) (states : List Sequencer) :
    AsksOnly OnlyReads (prepare host request states) := by
  apply AsksOnly.bind (reads_orRefuse _ _)
  intro target
  apply AsksOnly.bind (reads_askFor target readOnly_planStatus factsOf)
  intro read
  apply AsksOnly.bind (reads_orRefuse _ _)
  intro before
  apply AsksOnly.bind (reads_refuseStanding _ target states)
  intro _
  trivial

theorem fails_prepare (host : WriteHost) (request : EffectRequest) (states : List Sequencer) :
    LeavesOnly Fails (prepare host request states) := by
  apply LeavesOnly.bind (fails_orRefuse _ _)
  intro target
  apply LeavesOnly.bind (LeavesOnly.askFor _ factsOf)
  intro read
  apply LeavesOnly.bind (fails_orRefuse _ _)
  intro before
  apply LeavesOnly.bind (fails_refuseStanding _ target states)
  intro _
  trivial

theorem onlyReads_preparation (ready : Prepared answers host request states target before) :
    ∀ exchange ∈ preparation answers target states, OnlyReads exchange.1 := by
  have asked := (reads_prepare host request states).exchanges answers 0
  rwa [run_prepare ready] at asked

end Prepare

section Drop
variable (answers : Nat → GitAnswer) (operationId : String) (target : WriteTarget)

def dropAncestry (oid : String) : GitPlan := .read ["merge-base", "--is-ancestor", oid, "HEAD"]

def dropSecondParent (oid : String) : GitPlan :=
  .read ["rev-parse", "--verify", "--quiet", oid ++ "^2"]

def dropParent (oid : String) : GitPlan := .read ["rev-parse", "--verify", oid ++ "^"]

/-- What a drop must learn about its commit before it replays what follows it. -/
structure DropPlanned (oid : String) (n : Nat) (plan : GitPlan) : Prop where
  onBranch : probeOf (answers n) = some true
  notMerge : probeOf (answers (n + 1)) ≠ some true
  planned : ∃ parentOid, nameOf (answers (n + 2)) = some parentOid ∧
    planDropCommitRebase oid parentOid = .ok plan

def dropProbes (oid : String) (n : Nat) : List (GitCommand × GitAnswer) :=
  [(target.command (dropAncestry oid), answers n),
   (target.command (dropSecondParent oid), answers (n + 1)),
   (target.command (dropParent oid), answers (n + 2))]

variable {oid : String}

theorem planDropCommitAncestry_of_valid (valid : validatedSourceOid oid = .ok ()) :
    planDropCommitAncestry oid = .ok (dropAncestry oid) := by
  unfold planDropCommitAncestry
  rw [valid]
  rfl

theorem planDropCommitSecondParent_of_valid (valid : validatedSourceOid oid = .ok ()) :
    planDropCommitSecondParent oid = .ok (dropSecondParent oid) := by
  unfold planDropCommitSecondParent
  rw [valid]
  rfl

theorem planDropCommitParent_of_valid (valid : validatedSourceOid oid = .ok ()) :
    planDropCommitParent oid = .ok (dropParent oid) := by
  unfold planDropCommitParent
  rw [valid]
  rfl

variable {plan : GitPlan} {n : Nat}

theorem readOnly_of_planDropCommitRebase {parentOid : String}
    (planned : planDropCommitRebase oid parentOid = .ok plan) : plan.readOnly = false := by
  unfold planDropCommitRebase at planned
  cases validOid : validatedSourceOid oid with
  | error error => rw [validOid] at planned; cases planned
  | ok =>
    cases validParent : validatedSourceOid parentOid with
    | error error => rw [validOid, validParent] at planned; cases planned
    | ok =>
      rw [validOid, validParent] at planned
      cases planned
      rfl

theorem run_planDrop (valid : validatedSourceOid oid = .ok ())
    (ready : DropPlanned answers oid n plan) :
    run answers (planDrop operationId target oid (dropAncestry oid)) n =
      ⟨dropProbes answers target oid n, .ok plan⟩ := by
  obtain ⟨parentOid, named, planned⟩ := ready.planned
  unfold planDrop probe probeStdout
  rw [run_askFor_bind, ready.onBranch, if_neg (by simp), planDropCommitSecondParent_of_valid valid,
    orInvalid_ok, done_bind, run_askFor_bind, if_neg ready.notMerge,
    planDropCommitParent_of_valid valid, orInvalid_ok, done_bind, run_askFor_bind, named]
  dsimp only
  rw [planned]
  rfl

theorem run_planDrop_stops (valid : validatedSourceOid oid = .ok ())
    (unready : ∀ plan, ¬ DropPlanned answers oid n plan) :
    ∃ exchanges exit, run answers (planDrop operationId target oid (dropAncestry oid)) n =
      ⟨exchanges, .error exit⟩ := by
  unfold planDrop probe probeStdout
  rw [run_askFor_bind]
  by_cases onBranch : probeOf (answers n) = some true
  · rw [if_neg (by simpa using onBranch), planDropCommitSecondParent_of_valid valid, orInvalid_ok,
      done_bind, run_askFor_bind]
    by_cases isMerge : probeOf (answers (n + 1)) = some true
    · rw [if_pos isMerge]
      exact ⟨_, _, rfl⟩
    · rw [if_neg isMerge, planDropCommitParent_of_valid valid, orInvalid_ok, done_bind,
        run_askFor_bind]
      cases named : nameOf (answers (n + 2)) with
      | none => exact ⟨_, _, rfl⟩
      | some parentOid =>
        dsimp only
        cases planned : planDropCommitRebase oid parentOid with
        | error error => exact ⟨_, _, rfl⟩
        | ok plan => exact absurd ⟨onBranch, isMerge, parentOid, named, planned⟩ (unready plan)
  · rw [if_pos onBranch]
    exact ⟨_, _, rfl⟩

theorem reads_planDrop (valid : validatedSourceOid oid = .ok ()) :
    AsksOnly OnlyReads (planDrop operationId target oid (dropAncestry oid)) := by
  unfold planDrop
  rw [planDropCommitSecondParent_of_valid valid, planDropCommitParent_of_valid valid]
  simp only [orInvalid_ok, done_bind]
  apply AsksOnly.bind (reads_askFor target rfl probeOf)
  intro onBranch
  split
  · trivial
  · apply AsksOnly.bind (reads_askFor target rfl probeOf)
    intro isMerge
    split
    · trivial
    · apply AsksOnly.bind (reads_askFor target rfl nameOf)
      intro named
      cases named with
      | none => trivial
      | some parentOid => exact reads_orInvalid operationId _

theorem fails_planDrop : LeavesOnly Fails (planDrop operationId target oid (dropAncestry oid)) := by
  apply LeavesOnly.bind (LeavesOnly.askFor _ probeOf)
  intro onBranch
  split
  · exact fails_refused operationId _
  · apply LeavesOnly.bind (fails_orInvalid operationId _)
    intro secondParent
    apply LeavesOnly.bind (LeavesOnly.askFor _ probeOf)
    intro isMerge
    split
    · exact fails_refused operationId _
    · apply LeavesOnly.bind (fails_orInvalid operationId _)
      intro parentPlan
      apply LeavesOnly.bind (LeavesOnly.askFor _ nameOf)
      intro named
      cases named with
      | none => exact fails_refused operationId _
      | some parentOid => exact fails_orInvalid operationId _

end Drop

section Sample

def sampleHost : WriteHost where
  targets := [{ targetId := "local", generation := "g1", executor := some .onThisMachine }]
  repositories := Table.empty.insert
    { repositoryId := "repo_1", worktreeId := "wt_1", displayPath := "/work/app",
      layout := { isBare := false },
      location := { targetId := "local", targetGeneration := "g1",
                    canonicalWorktree := "/work/app" } }

def sampleRequest (operation : MutationOperation) : EffectRequest where
  operationId := "op_1"
  request :=
    { clientRequestId := "req_1", target := .repository "repo_1" "snap_1", operation }

def finished (exitCode : Int) (stdout : Bytes) : RunOutcome where
  state := .completed
  exitCode := some exitCode
  stdout := stdout
  stderr := []
  outputComplete := true
  termination := none

/-- A clean status on `main` at a commit. -/
def statusAt (oid : String) : RunOutcome :=
  finished 0 (asciiBytes ("# branch.oid " ++ oid) ++ [0] ++ asciiBytes "# branch.head main" ++ [0])

def answersOf (outcomes : List RunOutcome) (n : Nat) : GitAnswer :=
  match outcomes[n]? with
  | some outcome => .ok outcome
  | none => .error (.new .unavailable "the connection is closed")

theorem resolve_sample (operation : MutationOperation) :
    (sampleHost.resolve (sampleRequest operation).request).isOk = true := by
  simp [WriteHost.resolve, WriteHost.resolveIds, WriteHost.requireRecord, WriteHost.targetFor,
    MutationRequest.repositoryId, MutationRequest.worktreeId, sampleHost, sampleRequest,
    requireWorktree, TargetRecord.requireExecutor]
  decide

end Sample

end Refyard
