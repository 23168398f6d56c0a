import Refyard.Core.Preconditions
import Refyard.Snapshots

/-! The facts the Rust host judges a submission by. -/
namespace Refyard.ServiceFacts

open Snapshots

structure HeldRepository where
  repositoryId : String
  worktreeId : String

structure StatusRead where
  headOid : Option String
  operationInProgress : Option String
  freshSnapshotId : String
  /-- The store once the read has minted. -/
  snapshots : SnapshotState

structure Service where
  requireRecord : String → Except Problem HeldRepository
  /-- Whether the session has the repository's target, and whether that can be reached. -/
  targetFor : HeldRepository → Except Problem Unit
  executor : HeldRepository → Except Problem Unit
  readStatus : HeldRepository → Except Problem StatusRead

def requireWorktree (record : HeldRepository) (requested : Option String) :
    Except Problem String :=
  match requested with
  | none => .ok record.worktreeId
  | some worktreeId =>
      if worktreeId = record.worktreeId then .ok record.worktreeId
      else
        .error ((Problem.new .notFound
          s!"unknown worktree {worktreeId} in {record.repositoryId}").withDetail
            "worktreeId" (.text worktreeId))

def refused (problem : Problem) : PreconditionContext where
  refusal := some ⟨problem.code, problem.message, problem.retryable⟩

/-- An unknown snapshot fails the comparison, and so does a missing key on either side. -/
def indexUnchanged (repositoryId worktreeId : String) :
    Option Snapshots.SnapshotRecord → Option String → Bool
  | some snapshot, some fresh =>
      snapshot.repositoryId = repositoryId && snapshot.worktreeId = some worktreeId &&
        snapshot.indexKey = some fresh
  | _, _ => false

/-- The facts of a request that names a repository, and of its worktree if it names one. -/
def repositoryFacts (service : Service) (kind : MutationKind) (repositoryId : String)
    (requested : Option String) (expectedSnapshotId : String) : PreconditionContext :=
  let gathered : Except Problem PreconditionContext := do
    let record ← service.requireRecord repositoryId
    service.targetFor record
    let worktreeId ← requireWorktree record requested
    service.executor record
    let status ← service.readStatus record
    let fresh := (status.snapshots.get status.freshSnapshotId).bind Snapshots.SnapshotRecord.indexKey
    let snapshot := status.snapshots.get expectedSnapshotId
    pure {
      snapshotHeadOid := snapshot.bind Snapshots.SnapshotRecord.headOid
      currentHeadOid := status.headOid
      indexUnchanged := indexUnchanged record.repositoryId worktreeId snapshot fresh
      operationInProgress := status.operationInProgress
      mayRunDuring := mayRunDuringOperation kind }
  match gathered with
  | .error problem => refused problem
  | .ok context => context

def facts (service : Service) (kind : MutationKind) : MutationTarget → PreconditionContext
  | .workspace .. => { indexUnchanged := true, mayRunDuring := mayRunDuringOperation kind }
  | .repository repositoryId expectedSnapshotId =>
      repositoryFacts service kind repositoryId none expectedSnapshotId
  | .worktree repositoryId worktreeId expectedSnapshotId =>
      repositoryFacts service kind repositoryId (some worktreeId) expectedSnapshotId

end Refyard.ServiceFacts
