import Refyard.Foundation.Interaction
import Refyard.Jobs.Journal
import Refyard.Jobs.Request
import Refyard.Writes.Facts

/-! Where a write runs, and the questions an effect asks there. -/
namespace Refyard

structure RepositoryLocation where
  targetId : String
  targetGeneration : String
  canonicalWorktree : String

structure RepositoryLayout where
  isBare : Bool

structure Registry.RepositoryRecord where
  repositoryId : String
  worktreeId : String
  displayPath : String
  layout : RepositoryLayout
  location : RepositoryLocation

inductive GitExecutor where
  | onThisMachine
  | overSsh

structure TargetRecord where
  targetId : String
  generation : String
  executor : Option GitExecutor

structure WriteHost where
  targets : List TargetRecord
  repositories : Table Registry.RepositoryRecord.repositoryId

structure WriteTarget where
  record : Registry.RepositoryRecord
  executor : GitExecutor
  worktreeId : String

def MutationRequest.repositoryId (request : MutationRequest) : Option String :=
  match request.target with
  | .repository repositoryId _ => some repositoryId
  | .worktree repositoryId _ _ => some repositoryId
  | .workspace _ _ => none

def MutationRequest.worktreeId (request : MutationRequest) : Option String :=
  match request.target with
  | .worktree _ worktreeId _ => some worktreeId
  | _ => none

def TargetRecord.requireExecutor (target : TargetRecord) : Except Problem GitExecutor :=
  match target.executor with
  | some executor => .ok executor
  | none =>
      .error (.new .unavailable
        s!"target {target.targetId} has no SSH provider on this machine; it was created without one")

def requireWorktree (record : Registry.RepositoryRecord) (requested : Option String) :
    Except Problem String :=
  match requested with
  | none => .ok record.worktreeId
  | some worktreeId =>
      if worktreeId = record.worktreeId then .ok record.worktreeId
      else
        .error ((Problem.new .notFound
          s!"unknown worktree {worktreeId} in {record.repositoryId}").withDetail
            "worktreeId" (.text worktreeId))

namespace WriteHost

def requireRecord (host : WriteHost) (repositoryId : String) : Except Problem Registry.RepositoryRecord :=
  match host.repositories.get? repositoryId with
  | some record => .ok record
  | none => .error (.new .notFound s!"unknown repository {repositoryId}")

/-- Refuses a repository whose target was disconnected or rebuilt to a new generation. -/
def targetFor (host : WriteHost) (record : Registry.RepositoryRecord) : Except Problem TargetRecord :=
  match host.targets.find? fun target => target.targetId = record.location.targetId with
  | none =>
      .error (.new .notFound
        s!"repository {record.repositoryId} was opened on target {record.location.targetId} and that target is no longer connected; open the repository again")
  | some target =>
      if target.generation ≠ record.location.targetGeneration then
        .error ((Problem.new .staleSnapshot
          s!"repository {record.repositoryId} was opened on an earlier build of target {record.location.targetId}; open the repository again").withDetail
            "targetGeneration" (.text target.generation))
      else .ok target

def resolveIds (host : WriteHost) (repositoryId : String) (worktreeId : Option String) :
    Except Problem WriteTarget := do
  let record ← host.requireRecord repositoryId
  if record.layout.isBare then
    .error (.new .unsupportedOperation
      s!"{record.displayPath} is a bare repository: it has no working tree, so this build refuses to write to it. Its refs and history can still be read.")
  else
    let target ← host.targetFor record
    let worktreeId ← requireWorktree record worktreeId
    let executor ← target.requireExecutor
    pure { record, executor, worktreeId }

/-- Resolves a request to the repository, target and worktree it addresses. -/
def resolve (host : WriteHost) (request : MutationRequest) : Except Problem WriteTarget :=
  match request.repositoryId with
  | none =>
      .error (.new .invalidRequest "this operation must target a repository or a worktree")
  | some repositoryId => host.resolveIds repositoryId request.worktreeId

end WriteHost

structure EffectRequest where
  operationId : String
  request : MutationRequest

structure GitCommand where
  executor : GitExecutor
  directory : String
  plan : GitPlan

/-- An effect asks an executor to run commands and ends with an outcome, often early. -/
abbrev Effect := Interaction GitCommand GitAnswer EffectOutcome

def reported : Except EffectOutcome EffectOutcome → EffectOutcome
  | .ok outcome => outcome
  | .error outcome => outcome

def WriteTarget.command (target : WriteTarget) (plan : GitPlan) : GitCommand where
  executor := target.executor
  directory := target.record.location.canonicalWorktree
  plan := plan

@[simp] theorem WriteTarget.command_plan (target : WriteTarget) (plan : GitPlan) :
    (target.command plan).plan = plan := rfl

def tryRun (target : WriteTarget) (plan : GitPlan) : Effect GitAnswer :=
  .askFor (target.command plan) id

def readFacts (target : WriteTarget) : Effect (Except Problem WriteFacts) :=
  .askFor (target.command planStatus) factsOf

/-- Whether one read-only probe answers yes, no, or could not be read at all. -/
def probe (target : WriteTarget) (plan : GitPlan) : Effect (Option Bool) :=
  .askFor (target.command plan) probeOf

def conflictedCount (target : WriteTarget) : Effect (Option Nat) :=
  .askFor (target.command planLsFilesUnmerged) conflictedCountOf

def probeStdout (target : WriteTarget) (plan : GitPlan) : Effect (Option String) :=
  .askFor (target.command plan) nameOf

def refused (operationId : String) (problem : Problem) : EffectOutcome :=
  .failed (problem.forOperation operationId)

/-- The outcome for a payload the engine should not have dispatched to this effect. -/
def wrongPayload (operationId kind : String) : EffectOutcome :=
  refused operationId (.new .invalidOperationPayload
    s!"the operation dispatched to the {kind} effect was not a {kind} payload")

def invalidPayload (operationId message : String) : EffectOutcome :=
  refused operationId (.new .invalidOperationPayload message)

def orRefuse {α : Type} (operationId : String) (value : Except Problem α) : Effect α :=
  .orLeave (value.mapError (refused operationId))

def orInvalid {α : Type} (operationId : String) (plan : Except CoreError α) : Effect α :=
  .orLeave (plan.mapError fun error => invalidPayload operationId error.text)

def refuse {α : Type} (operationId : String) (code : ProblemCode) (message : String) :
    Effect α :=
  .leave (refused operationId (.new code message))

def requireConfirmed (operationId : String) (confirmed : Bool) (what : String) : Effect Unit :=
  if confirmed then .done ()
  else
    refuse operationId .invalidRequest
      s!"{what} requires explicit confirmation; nothing was changed"

section
variable {α β : Type} (operationId : String)

@[simp] theorem orRefuse_ok (value : α) : orRefuse operationId (.ok value) = .done value := rfl

@[simp] theorem orRefuse_error (problem : Problem) :
    (orRefuse operationId (.error problem) : Effect α) = .leave (refused operationId problem) :=
  rfl

@[simp] theorem orInvalid_ok (plan : α) : orInvalid operationId (.ok plan) = .done plan := rfl

@[simp] theorem orInvalid_error (error : CoreError) :
    (orInvalid operationId (.error error) : Effect α) =
      .leave (invalidPayload operationId error.text) := rfl

@[simp] theorem requireConfirmed_true (what : String) :
    requireConfirmed operationId true what = .done () := rfl

end

end Refyard
