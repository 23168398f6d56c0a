import Refyard.Contract.Operation

/-! The mutations a client can ask for, as the host understands them. -/
namespace Refyard

inductive MergeMode where
  | default
  | noFF

inductive ResetMode where
  | soft
  | mixed

inductive FetchTagMode where
  | none
  | following

inductive WorktreeReference where
  | existingBranch (branchName : String)
  | newBranch (branchName startOid : String)
  | detached (oid : String)

inductive PullMode where
  | ffOnly

structure UpstreamSpec where
  remoteName : String
  branchName : String

structure TagAnnotation where
  message : String

/-- The object a stash entry resolved to and the moving label it was listed under. -/
structure StashRef where
  oid : String
  locator : String

inductive MutationOperation where
  | stagePaths (pathIds previewTokens : List String)
  | unstagePaths (pathIds : List String)
  | commit (message : String)
  | amendCommit (message : Option String) (confirmed : Bool)
  | createBranch (branchName : String) (startOid : Option String) (switchToIt : Bool)
  | switchBranch (branchName : String)
  | renameBranch (branchName newName : String)
  | deleteBranch (branchName : String) (confirmed : Bool)
  | setBranchUpstream (branchName : String) (upstream : Option UpstreamSpec)
  | addRemote (remoteName fetchUrl : String) (pushUrl : Option String)
  | updateRemote (remoteName : String) (newName fetchUrl pushUrl : Option String)
  | removeRemote (remoteName : String) (confirmed : Bool)
  | fetch (remoteName : String) (prune : Bool) (tags : FetchTagMode)
  | push (remoteName sourceRef destinationRef : String) (setUpstream : Bool)
  | pull (remoteName : String) (mode : PullMode)
  | createStash (message : Option String) (includeUntracked keepIndex : Bool)
  | applyStash (stash : StashRef) (restoreIndex : Bool)
  | popStash (stash : StashRef) (restoreIndex confirmed : Bool)
  | dropStash (stash : StashRef) (confirmed : Bool)
  | createTag (tagName : String) (targetOid : Option String) ( annotation : Option TagAnnotation)
  | deleteTag (tagName : String) (confirmed : Bool)
  | pushTag (remoteName tagName : String)
  | createWorktree (relativeDestination : String) (reference : WorktreeReference)
  | removeWorktree (worktreeId : String) (confirmed : Bool)
  | lockWorktree (worktreeId : String) (reason : Option String)
  | unlockWorktree (worktreeId : String)
  | addSubmodule (remoteUrl relativePath : String) (branchName : Option String) (initializes : Bool)
  | updateSubmodule (pathIds : List String) (initializes recursive : Bool)
  | syncSubmodule (pathIds : List String) (recursive : Bool)
  | merge (sourceOid : String) (mode : MergeMode) (message : Option String)
  | continueMerge (message : Option String)
  | abortMerge (confirmed : Bool)
  | revertCommit (oid : String)
  | resetBranch (oid : String) (mode : ResetMode)
  | cherryPick (oid : String)
  | continueCherryPick
  | abortCherryPick (confirmed : Bool)
  | rebase (upstreamOid : String)
  | continueRebase
  | abortRebase (confirmed : Bool)
  | dropCommit (oid : String) (confirmed : Bool)
  | squashCommit (message : Option String)

def MutationOperation.kind : MutationOperation → MutationKind
  | .stagePaths .. => .stagePaths
  | .unstagePaths .. => .unstagePaths
  | .commit .. => .commit
  | .amendCommit .. => .amendCommit
  | .createBranch .. => .createBranch
  | .switchBranch .. => .switchBranch
  | .renameBranch .. => .renameBranch
  | .deleteBranch .. => .deleteBranch
  | .setBranchUpstream .. => .setBranchUpstream
  | .addRemote .. => .addRemote
  | .updateRemote .. => .updateRemote
  | .removeRemote .. => .removeRemote
  | .fetch .. => .fetch
  | .push .. => .push
  | .pull .. => .pull
  | .createStash .. => .createStash
  | .applyStash .. => .applyStash
  | .popStash .. => .popStash
  | .dropStash .. => .dropStash
  | .createTag .. => .createTag
  | .deleteTag .. => .deleteTag
  | .pushTag .. => .pushTag
  | .createWorktree .. => .createWorktree
  | .removeWorktree .. => .removeWorktree
  | .lockWorktree .. => .lockWorktree
  | .unlockWorktree .. => .unlockWorktree
  | .addSubmodule .. => .addSubmodule
  | .updateSubmodule .. => .updateSubmodule
  | .syncSubmodule .. => .syncSubmodule
  | .merge .. => .merge
  | .continueMerge .. => .continueMerge
  | .abortMerge .. => .abortMerge
  | .revertCommit .. => .revertCommit
  | .resetBranch .. => .resetBranch
  | .cherryPick .. => .cherryPick
  | .continueCherryPick => .continueCherryPick
  | .abortCherryPick .. => .abortCherryPick
  | .rebase .. => .rebase
  | .continueRebase => .continueRebase
  | .abortRebase .. => .abortRebase
  | .dropCommit .. => .dropCommit
  | .squashCommit .. => .squashCommit

/-- An idempotency key, the resource the request addresses, and the operation. -/
structure MutationRequest where
  clientRequestId : String
  target : MutationTarget
  operation : MutationOperation

end Refyard
