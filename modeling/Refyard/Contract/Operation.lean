import Refyard.Contract.Problem

/-! The vocabulary a client and the journal share about one operation. -/
namespace Refyard

inductive MutationKind where
  | initRepository
  | cloneRepository
  | stagePaths
  | unstagePaths
  | discardTrackedPaths
  | commit
  | amendCommit
  | createBranch
  | switchBranch
  | renameBranch
  | deleteBranch
  | setBranchUpstream
  | addRemote
  | updateRemote
  | removeRemote
  | fetch
  | push
  | pull
  | createStash
  | applyStash
  | popStash
  | dropStash
  | createTag
  | deleteTag
  | pushTag
  | createWorktree
  | removeWorktree
  | lockWorktree
  | unlockWorktree
  | addSubmodule
  | updateSubmodule
  | syncSubmodule
  | merge
  | continueMerge
  | abortMerge
  | revertCommit
  | resetBranch
  | cherryPick
  | continueCherryPick
  | abortCherryPick
  | rebase
  | continueRebase
  | abortRebase
  | dropCommit
  | squashCommit
  deriving DecidableEq

def MutationKind.debugName : MutationKind → String
  | .initRepository => "InitRepository"
  | .cloneRepository => "CloneRepository"
  | .stagePaths => "StagePaths"
  | .unstagePaths => "UnstagePaths"
  | .discardTrackedPaths => "DiscardTrackedPaths"
  | .commit => "Commit"
  | .amendCommit => "AmendCommit"
  | .createBranch => "CreateBranch"
  | .switchBranch => "SwitchBranch"
  | .renameBranch => "RenameBranch"
  | .deleteBranch => "DeleteBranch"
  | .setBranchUpstream => "SetBranchUpstream"
  | .addRemote => "AddRemote"
  | .updateRemote => "UpdateRemote"
  | .removeRemote => "RemoveRemote"
  | .fetch => "Fetch"
  | .push => "Push"
  | .pull => "Pull"
  | .createStash => "CreateStash"
  | .applyStash => "ApplyStash"
  | .popStash => "PopStash"
  | .dropStash => "DropStash"
  | .createTag => "CreateTag"
  | .deleteTag => "DeleteTag"
  | .pushTag => "PushTag"
  | .createWorktree => "CreateWorktree"
  | .removeWorktree => "RemoveWorktree"
  | .lockWorktree => "LockWorktree"
  | .unlockWorktree => "UnlockWorktree"
  | .addSubmodule => "AddSubmodule"
  | .updateSubmodule => "UpdateSubmodule"
  | .syncSubmodule => "SyncSubmodule"
  | .merge => "Merge"
  | .continueMerge => "ContinueMerge"
  | .abortMerge => "AbortMerge"
  | .revertCommit => "RevertCommit"
  | .resetBranch => "ResetBranch"
  | .cherryPick => "CherryPick"
  | .continueCherryPick => "ContinueCherryPick"
  | .abortCherryPick => "AbortCherryPick"
  | .rebase => "Rebase"
  | .continueRebase => "ContinueRebase"
  | .abortRebase => "AbortRebase"
  | .dropCommit => "DropCommit"
  | .squashCommit => "SquashCommit"

def MutationKind.wireName : MutationKind → String
  | .initRepository => "initRepository"
  | .cloneRepository => "cloneRepository"
  | .stagePaths => "stagePaths"
  | .unstagePaths => "unstagePaths"
  | .discardTrackedPaths => "discardTrackedPaths"
  | .commit => "commit"
  | .amendCommit => "amendCommit"
  | .createBranch => "createBranch"
  | .switchBranch => "switchBranch"
  | .renameBranch => "renameBranch"
  | .deleteBranch => "deleteBranch"
  | .setBranchUpstream => "setBranchUpstream"
  | .addRemote => "addRemote"
  | .updateRemote => "updateRemote"
  | .removeRemote => "removeRemote"
  | .fetch => "fetch"
  | .push => "push"
  | .pull => "pull"
  | .createStash => "createStash"
  | .applyStash => "applyStash"
  | .popStash => "popStash"
  | .dropStash => "dropStash"
  | .createTag => "createTag"
  | .deleteTag => "deleteTag"
  | .pushTag => "pushTag"
  | .createWorktree => "createWorktree"
  | .removeWorktree => "removeWorktree"
  | .lockWorktree => "lockWorktree"
  | .unlockWorktree => "unlockWorktree"
  | .addSubmodule => "addSubmodule"
  | .updateSubmodule => "updateSubmodule"
  | .syncSubmodule => "syncSubmodule"
  | .merge => "merge"
  | .continueMerge => "continueMerge"
  | .abortMerge => "abortMerge"
  | .revertCommit => "revertCommit"
  | .resetBranch => "resetBranch"
  | .cherryPick => "cherryPick"
  | .continueCherryPick => "continueCherryPick"
  | .abortCherryPick => "abortCherryPick"
  | .rebase => "rebase"
  | .continueRebase => "continueRebase"
  | .abortRebase => "abortRebase"
  | .dropCommit => "dropCommit"
  | .squashCommit => "squashCommit"

inductive MutationTarget where
  | workspace (allowedRootId relativeDestination : String)
  | repository (repositoryId expectedSnapshotId : String)
  | worktree (repositoryId worktreeId expectedSnapshotId : String)
  deriving DecidableEq

/-- `unknown` means Git may have changed things and the service will not guess. -/
inductive OperationStatus where
  | accepted
  | running
  | succeeded
  | failed
  | needsAttention
  | unknown
  | cancelled
  deriving DecidableEq

structure OperationResult where
  summary : String
  changedRefs : List String
  changedPaths : Option Nat
  snapshotInvalidated : Bool
  newHeadOid : Option String
  deriving DecidableEq

structure OperationRecord where
  operationId : String
  clientRequestId : String
  kind : MutationKind
  target : MutationTarget
  status : OperationStatus
  sequence : Nat
  acceptedAt : String
  startedAt : Option String
  finishedAt : Option String
  result : Option OperationResult
  problem : Option Problem

/-- `status_name` of the journal and `operation_status_name` of the service. -/
def statusName : OperationStatus → String
  | .accepted => "accepted"
  | .running => "running"
  | .succeeded => "succeeded"
  | .failed => "failed"
  | .needsAttention => "needsAttention"
  | .unknown => "unknown"
  | .cancelled => "cancelled"

end Refyard
