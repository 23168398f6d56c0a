import Refyard.Contract.Problem
import Refyard.Foundation.InsertionMap
import Refyard.Foundation.Machine
import Refyard.Foundation.Utf16
import Refyard.HostNode.TextCodec
import Refyard.Jobs.Identity
import Mathlib.Data.List.DropRight

/-! Approval of repositories in the TypeScript host: roots, repositories and the calls that add
and remove them. A call is cut at its awaits; what it finds outside the process, in the file
system, from Git or in the journal, comes with the step that takes it up. -/
namespace Refyard.Approvals
open TextCodec

section Paths

/-- The names in an absolute path, once `.` and `..` are worked off. -/
def segments (path : String) : List (List Char) :=
  ((path.toList.splitOn '/').filter fun name => name ≠ [] ∧ name ≠ ['.']).foldl
    (fun walked name => if name = ['.', '.'] then walked.dropLast else walked ++ [name]) []

/-- `relative`, as the names it joins: up out of the one, down into the other. -/
def relativeNames : List (List Char) → List (List Char) → List (List Char)
  | up :: ups, down :: downs =>
      if up = down then relativeNames ups downs
      else (up :: ups).map (fun _ => ['.', '.']) ++ down :: downs
  | ups, downs => ups.map (fun _ => ['.', '.']) ++ downs

def relative (parent candidate : String) : String :=
  String.ofList (['/'].intercalate (relativeNames (segments parent) (segments candidate)))

def isAbsolute (path : String) : Bool := path.toList.head? = some '/'

def isInsideOrEqual (parent candidate : String) : Bool :=
  segments parent = segments candidate ||
    match relativeNames (segments parent) (segments candidate) with
    | [] => false
    | first :: _ => first ≠ ['.', '.']

def isSafeRelativePath (relativePath : String) : Bool :=
  !relativePath.isEmpty && !isAbsolute relativePath && !relativePath.toList.contains '\x00' &&
    (relativePath.toList.splitOn '/').all fun name =>
      name ≠ [] ∧ name ≠ ['.'] ∧ name ≠ ['.', '.']

def trimmed (path : String) : String :=
  String.ofList ((path.toList.dropWhile isTrimmed).rdropWhile isTrimmed)

/-- What joining normalises is normalised again wherever the path is compared. -/
def expandUserPath (homedir input : String) : String :=
  match (trimmed input).toList with
  | ['~'] => homedir
  | '~' :: '/' :: rest => String.ofList (homedir.toList ++ '/' :: rest)
  | _ => trimmed input

def containsGitDirectory (path : String) : Bool :=
  (path.toList.splitOnP fun char => char = '/' ∨ char = '\\').any fun name =>
    name.map Char.toLower = ".git".toList

/-- Whether `encodeExecutionPath` has bytes for the path. -/
def isExecutable (path : String) : Bool :=
  !path.toList.contains '\x00' && !showsEscape path.toList

def baseName (path : String) : String :=
  match (segments path).getLast? with
  | some name => String.ofList name
  | none => "/"

end Paths

section Records

structure RootRecord where
  allowedRootId : String
  path : String
  executionTrusted : Bool
  repositoryIds : List String
  deriving DecidableEq

structure LayoutFacts where
  gitDir : String
  commonDir : String
  objectFormat : String
  bare : Bool
  shallow : Bool

structure RepositoryRecord where
  repositoryId : String
  allowedRootId : String
  displayPath : String
  displayName : String
  layout : LayoutFacts
  primaryWorktreeId : String
  worktreeIds : List String

def RepositoryRecord.commonDir (record : RepositoryRecord) : String := record.layout.commonDir

structure Registry where
  roots : InsertionMap RootRecord.allowedRootId := .empty
  /-- The path of each root that handles may be minted in. -/
  handleRoots : String → Option String := fun _ => none
  records : InsertionMap RepositoryRecord.repositoryId := .empty
  repositoryIdByCommonDir : String → Option String := fun _ => none

namespace Registry

def attachRepository (registry : Registry) (allowedRootId repositoryId : String) : Registry :=
  match registry.roots.get? allowedRootId with
  | none => registry
  | some root =>
      if root.repositoryIds.contains repositoryId then registry
      else
        { registry with
          roots := registry.roots.set
            { root with repositoryIds := root.repositoryIds ++ [repositoryId] } }

def detachRepository (registry : Registry) (allowedRootId repositoryId : String) : Registry :=
  match registry.roots.get? allowedRootId with
  | none => registry
  | some root =>
      { registry with
        roots := registry.roots.set
          { root with repositoryIds := root.repositoryIds.filter fun id => id ≠ repositoryId } }

/-- The record and its binding, as `register` first files them. -/
def file (registry : Registry) (record : RepositoryRecord) : Registry :=
  { registry with
    records := registry.records.set record
    repositoryIdByCommonDir := Function.update registry.repositoryIdByCommonDir record.commonDir
      (some record.repositoryId) }

def forget (registry : Registry) (record : RepositoryRecord) : Registry :=
  { registry with
    records := registry.records.erase record.repositoryId
    repositoryIdByCommonDir :=
      Function.update registry.repositoryIdByCommonDir record.commonDir none }

def complete (registry : Registry) (record : RepositoryRecord) : Registry :=
  ({ registry with records := registry.records.set record }).attachRepository
    record.allowedRootId record.repositoryId

def unregister (registry : Registry) (repositoryId : String) : Registry :=
  match registry.records.get? repositoryId with
  | none => registry
  | some record => (registry.forget record).detachRepository record.allowedRootId repositoryId

/-- The innermost approved root around a path. Of several as long the first counts. -/
def containingRoot (registry : Registry) (path : String) : Option RootRecord :=
  (registry.roots.values.filter fun root => isInsideOrEqual root.path path).foldl
    (fun longest root =>
      match longest with
      | none => some root
      | some found =>
          if (Utf16.encode found.path.toList).length < (Utf16.encode root.path.toList).length then
            some root
          else longest) none

end Registry

end Records

section Calls

inductive Thrown where
  | handle (code : ProblemCode) (message : String)
  | other (message : String)

def registrationProblem (thrown : Thrown) (path : String) : Problem :=
  match thrown with
  | .handle code message => .new code message
  | .other message => .new .notFound s!"{path} is not a readable Git repository: {message}"

inductive DirectoryState where
  | intact | missing | replaced

/-- A worktree by what `register` reads of it. -/
structure HostWorktree where
  worktreeId : String
  path : String
  isMain : Bool

/-- What a directory's handle and Git tell of it, in the order in which they are asked. -/
structure LayoutRead where
  /-- What the handle is called. -/
  handle : String
  /-- The real path, and whether a directory is there. -/
  resolved : Except Thrown (String × Bool)
  layout : Except Thrown LayoutFacts
  commonDirRead : Bool

/-- Who asked for a repository to be registered: the approval of a path, with the root it chose
and the repositories that stood then, or a caller that only wants the record. -/
inductive Asker where
  | approval (resolvedPath : String) (root : RootRecord) (before : List String)
  | direct

inductive Call where
  /-- `register` of the manager for the real path. -/
  | resolving (path requestedPath : String)
  /-- `approve` for the real path and its kind. -/
  | approving (resolvedPath : String)
  /-- `approveRoot` of the handles for the same. -/
  | granting (resolvedPath path allowedRootId : String)
  /-- `approve` for the pin on the directory. -/
  | pinningRoot (resolvedPath path allowedRootId : String)
  /-- `register` of the manager, which `approve` has answered. -/
  | rooted (resolvedPath : String) (root : RootRecord)
  /-- `register` for the check of its root. -/
  | checkingRoot (asker : Asker) (root : RootRecord) (relativePath : String)
  /-- `register` for the directory and its layout. -/
  | readingLayout (asker : Asker) (allowedRootId rootPath : String)
  /-- `register` for the worktrees of a repository that stands. -/
  | reconciling (asker : Asker) (existing : RepositoryRecord)
  /-- `register` for the pin on the common directory. -/
  | pinning (asker : Asker) (record : RepositoryRecord)
  /-- `register` for the worktrees of the repository it filed. -/
  | readingWorktrees (asker : Asker) (record : RepositoryRecord)
  /-- `register` of the manager, which `register` has answered. -/
  | answered (resolvedPath : String) (root : RootRecord) (before : List String)
      (record : RepositoryRecord)
  /-- `register` of the manager for the journal. -/
  | journaling (resolvedPath : String) (root : RootRecord) (record : RepositoryRecord)
  /-- `revoke` for the journal. -/
  | revoking (record : RepositoryRecord) (remaining : Bool)

inductive Found where
  | realPath (path : Option String)
  | directory (found : Except Thrown (String × Bool))
  | pinned
  | resumed
  | checked (state : DirectoryState)
  | read (found : LayoutRead)
  | reconciled (found : Except Thrown Unit)
  | worktrees (found : Except Thrown (List HostWorktree))
  | journaled (written : Except String Unit)

inductive ApprovalStep where
  | register (path : String)
  | registerIn (allowedRootId relativePath : String)
  | revoke (repositoryId : String)
  | unregister (repositoryId : String)
  /-- Another id is drawn from the numbers that repositories are named by. -/
  | drawId
  | resume (call : Nat) (found : Found)

structure RepositoryApproval where
  repositoryId : String
  allowedRootId : String
  path : String

inductive Answer where
  | registered (approval : RepositoryApproval)
  | revoked (repositoryId allowedRootId : String) (rootHasRepositories : Bool)
  | refused (problem : Problem)
  | record (record : RepositoryRecord)
  | threw (thrown : Thrown)

/-- The registry, the numbers that ids are drawn from and the calls in progress. -/
structure ApprovalHost where
  registry : Registry := {}
  rootNumber : Nat := 0
  number : Nat := 0
  calls : Nat → Option Call := fun _ => none
  begun : Nat := 0

def mintedRootId (number : Nat) : String := s!"root_{base36 number}"

def mintedRepositoryId (number : Nat) : String := s!"repo_{base36 number}"

namespace ApprovalHost

def begins (approvals : ApprovalHost) (held : Call) : ApprovalHost × Option Answer :=
  ({ approvals with
      calls := Function.update approvals.calls approvals.begun (some held)
      begun := approvals.begun + 1 }, none)

def passes (approvals : ApprovalHost) (answer : Answer) : ApprovalHost × Option Answer :=
  ({ approvals with begun := approvals.begun + 1 }, some answer)

section Resuming
variable (approvals : ApprovalHost) (call : Nat)

def goesOn (held : Call) : ApprovalHost × Option Answer :=
  ({ approvals with calls := Function.update approvals.calls call (some held) }, none)

def ends (answer : Answer) : ApprovalHost × Option Answer :=
  ({ approvals with calls := Function.update approvals.calls call none }, some answer)

def throws (asker : Asker) (thrown : Thrown) : ApprovalHost × Option Answer :=
  match asker with
  | .approval resolvedPath _ _ =>
      approvals.ends call (.refused (registrationProblem thrown resolvedPath))
  | .direct => approvals.ends call (.threw thrown)

def answers (asker : Asker) (record : RepositoryRecord) : ApprovalHost × Option Answer :=
  match asker with
  | .approval resolvedPath root before =>
      approvals.goesOn call (.answered resolvedPath root before record)
  | .direct => approvals.ends call (.record record)

def unknownRoot (allowedRootId : String) : Thrown :=
  .handle .forbidden s!"unknown approved root {allowedRootId}"

/-- The manager asks the repository registry, which looks for the root first. -/
def registersIn (resolvedPath : String) (root : RootRecord) : ApprovalHost × Option Answer :=
  let asker := Asker.approval resolvedPath root
    (approvals.registry.records.values.map RepositoryRecord.repositoryId)
  match approvals.registry.roots.get? root.allowedRootId with
  | none => approvals.throws call asker (unknownRoot root.allowedRootId)
  | some approved =>
      approvals.goesOn call (.checkingRoot asker approved (relative root.path resolvedPath))

def outsideRoot : Problem :=
  .new .forbidden "the selected path resolves outside its approved root"

def alreadyRegistered (repositoryId : String) : Problem :=
  .new .conflict s!"that repository is already registered as {repositoryId}"

def pathRefusal (path requestedPath : String) : Option String → Except Problem String
  | none => .error (.new .notFound s!"the selected repository path does not exist: {path}")
  | some resolvedPath =>
      if containsGitDirectory resolvedPath then
        .error (.new .forbidden "a path inside .git is not a repository registration target")
      else if (approvals.registry.containingRoot requestedPath).any fun root =>
          !isInsideOrEqual root.path resolvedPath then .error outsideRoot
      else
        match approvals.registry.records.values.find? fun record =>
            record.displayPath = resolvedPath with
        | some existing => .error (alreadyRegistered existing.repositoryId)
        | none => .ok resolvedPath

def unrepresentable : Thrown :=
  .handle .unsupportedPathEncoding
    "the root path cannot be represented exactly; register a parent directory with a representable path"

def resolved (path requestedPath : String) (found : Option String) : ApprovalHost × Option Answer :=
  match approvals.pathRefusal path requestedPath found with
  | .error problem => approvals.ends call (.refused problem)
  | .ok resolvedPath =>
      match approvals.registry.containingRoot resolvedPath with
      | some root => approvals.registersIn call resolvedPath root
      | none =>
          if isExecutable resolvedPath then approvals.goesOn call (.approving resolvedPath)
          else
            approvals.ends call (.refused (registrationProblem unrepresentable resolvedPath))

/-- `approve` draws an id once the directory was found. -/
def approving (resolvedPath : String) :
    Except Thrown (String × Bool) → ApprovalHost × Option Answer
  | .error thrown => approvals.ends call (.refused (registrationProblem thrown resolvedPath))
  | .ok (path, false) =>
      approvals.ends call (.refused (registrationProblem
        (.handle .forbidden s!"root is not a directory: {path}") resolvedPath))
  | .ok (path, true) =>
      let drawn := { approvals with rootNumber := approvals.rootNumber + 1 }
      if isAbsolute path then
        drawn.goesOn call (.granting resolvedPath path (mintedRootId drawn.rootNumber))
      else
        drawn.ends call (.refused (registrationProblem
          (.handle .forbidden s!"approved root must be an absolute path: {path}") resolvedPath))

def granting (resolvedPath path allowedRootId : String) :
    Except Thrown (String × Bool) → ApprovalHost × Option Answer
  | .error thrown => approvals.ends call (.refused (registrationProblem thrown resolvedPath))
  | .ok (granted, false) =>
      approvals.ends call (.refused (registrationProblem
        (.handle .forbidden s!"approved root is not a directory: {granted}") resolvedPath))
  | .ok (granted, true) =>
      { approvals with
        registry.handleRoots := Function.update approvals.registry.handleRoots allowedRootId
          (some granted) }.goesOn call (.pinningRoot resolvedPath path allowedRootId)

def pinnedRoot (resolvedPath path allowedRootId : String) : ApprovalHost × Option Answer :=
  let root : RootRecord :=
    { allowedRootId, path, executionTrusted := true, repositoryIds := [] }
  { approvals with registry.roots := approvals.registry.roots.set root }.goesOn call
    (.rooted resolvedPath root)

def checkedRoot (asker : Asker) (root : RootRecord) (relativePath : String) :
    DirectoryState → ApprovalHost × Option Answer
  | .missing =>
      approvals.throws call asker
        (.handle .notFound s!"the approved root {root.path} no longer exists")
  | .replaced =>
      approvals.throws call asker (.handle .forbidden
        s!"the approved root {root.path} was replaced; approve the directory again")
  | .intact =>
      match approvals.registry.handleRoots root.allowedRootId with
      | none => approvals.throws call asker (unknownRoot root.allowedRootId)
      | some rootPath =>
          if !relativePath.isEmpty && !isSafeRelativePath relativePath then
            approvals.throws call asker
              (.handle .forbidden s!"unsafe relative path: {relativePath}")
          else approvals.goesOn call (.readingLayout asker root.allowedRootId rootPath)

def readDirectory (rootPath : String) (found : LayoutRead) : Except Thrown (String × LayoutFacts) :=
  match found.resolved with
  | .error thrown => .error thrown
  | .ok (path, isDirectory) =>
      if !isInsideOrEqual rootPath path then
        .error (.handle .forbidden s!"directory {path} escapes its approved root")
      else if !isDirectory then
        .error (.handle .notFound s!"handle {found.handle} no longer names a directory")
      else
        match found.layout with
        | .error thrown => .error thrown
        | .ok layout =>
            if found.commonDirRead then .ok (path, layout)
            else
              .error (.handle .notFound
                s!"the Git common directory {layout.commonDir} could not be read")

def existing (commonDir : String) : Option RepositoryRecord :=
  (approvals.registry.repositoryIdByCommonDir commonDir).bind approvals.registry.records.get?

def readLayout (asker : Asker) (allowedRootId rootPath : String) (found : LayoutRead) :
    ApprovalHost × Option Answer :=
  match readDirectory rootPath found with
  | .error thrown => approvals.throws call asker thrown
  | .ok (path, layout) =>
      match approvals.existing layout.commonDir with
      | some existing => approvals.goesOn call (.reconciling asker existing)
      | none =>
          let drawn := { approvals with number := approvals.number + 1 }
          drawn.goesOn call (.pinning asker
            { repositoryId := mintedRepositoryId drawn.number
              allowedRootId
              displayPath := path
              displayName := baseName path
              layout
              primaryWorktreeId := ""
              worktreeIds := [] })

def reconciled (asker : Asker) (existing : RepositoryRecord) :
    Except Thrown Unit → ApprovalHost × Option Answer
  | .error thrown => approvals.throws call asker thrown
  | .ok () => approvals.answers call asker existing

def pinned (asker : Asker) (record : RepositoryRecord) : ApprovalHost × Option Answer :=
  { approvals with registry := approvals.registry.file record }.goesOn call
    (.readingWorktrees asker record)

def primaryOf (worktrees : List HostWorktree) (path : String) : Option HostWorktree :=
  ((worktrees.find? HostWorktree.isMain).or
    (worktrees.find? fun worktree => worktree.path = path)).or worktrees.head?

def readWorktrees (asker : Asker) (record : RepositoryRecord)
    (found : Except Thrown (List HostWorktree)) : ApprovalHost × Option Answer :=
  let failed := { approvals with registry := approvals.registry.forget record }
  match found with
  | .error thrown => failed.throws call asker thrown
  | .ok worktrees =>
      match primaryOf worktrees record.displayPath with
      | none =>
          failed.throws call asker
            (.handle .notFound s!"{record.displayPath} is not a Git worktree")
      | some primary =>
          let registered := { record with
            primaryWorktreeId := primary.worktreeId
            worktreeIds := worktrees.map HostWorktree.worktreeId }
          { approvals with registry := approvals.registry.complete registered }.answers call asker
            registered

def answered (resolvedPath : String) (root : RootRecord) (before : List String)
    (record : RepositoryRecord) : ApprovalHost × Option Answer :=
  if before.contains record.repositoryId then
    approvals.ends call (.refused (alreadyRegistered record.repositoryId))
  else approvals.goesOn call (.journaling resolvedPath root record)

def journaled (resolvedPath : String) (root : RootRecord) (record : RepositoryRecord) :
    Except String Unit → ApprovalHost × Option Answer
  | .error message =>
      { approvals with registry := approvals.registry.unregister record.repositoryId }.ends call
        (.refused (.new .unavailable
          s!"the repository was not approved because its access record could not be written: {message}"))
  | .ok () =>
      approvals.ends call (.registered
        { repositoryId := record.repositoryId
          allowedRootId := root.allowedRootId
          path := resolvedPath })

def revoked (record : RepositoryRecord) (remaining : Bool) :
    Except String Unit → ApprovalHost × Option Answer
  | .error message =>
      approvals.ends call (.refused (.new .unavailable
        s!"the repository was not revoked because its access record could not be written: {message}"))
  | .ok () =>
      { approvals with registry := approvals.registry.unregister record.repositoryId }.ends call
        (.revoked record.repositoryId record.allowedRootId remaining)

/-- A call takes up what it waited for. What it does not wait for leaves it as it is. -/
def resume (found : Found) : ApprovalHost × Option Answer :=
  match approvals.calls call, found with
  | some (.resolving path requestedPath), .realPath found =>
      approvals.resolved call path requestedPath found
  | some (.approving resolvedPath), .directory found => approvals.approving call resolvedPath found
  | some (.granting resolvedPath path allowedRootId), .directory found =>
      approvals.granting call resolvedPath path allowedRootId found
  | some (.pinningRoot resolvedPath path allowedRootId), .pinned =>
      approvals.pinnedRoot call resolvedPath path allowedRootId
  | some (.rooted resolvedPath root), .resumed => approvals.registersIn call resolvedPath root
  | some (.checkingRoot asker root relativePath), .checked state =>
      approvals.checkedRoot call asker root relativePath state
  | some (.readingLayout asker allowedRootId rootPath), .read found =>
      approvals.readLayout call asker allowedRootId rootPath found
  | some (.reconciling asker existing), .reconciled found =>
      approvals.reconciled call asker existing found
  | some (.pinning asker record), .pinned => approvals.pinned call asker record
  | some (.readingWorktrees asker record), .worktrees found =>
      approvals.readWorktrees call asker record found
  | some (.answered resolvedPath root before record), .resumed =>
      approvals.answered call resolvedPath root before record
  | some (.journaling resolvedPath root record), .journaled written =>
      approvals.journaled call resolvedPath root record written
  | some (.revoking record remaining), .journaled written =>
      approvals.revoked call record remaining written
  | _, _ => (approvals, none)

end Resuming

section Beginning
variable (approvals : ApprovalHost)

def register (homedir path : String) : ApprovalHost × Option Answer :=
  let requestedPath := expandUserPath homedir path
  if isAbsolute requestedPath then approvals.begins (.resolving path requestedPath)
  else
    approvals.passes (.refused (.new .invalidRequest
      "repository path must be absolute; the host will not resolve a browser path against its own cwd"))

def registerIn (allowedRootId relativePath : String) : ApprovalHost × Option Answer :=
  match approvals.registry.roots.get? allowedRootId with
  | none => approvals.passes (.threw (unknownRoot allowedRootId))
  | some root => approvals.begins (.checkingRoot .direct root relativePath)

def revoke (repositoryId : String) : ApprovalHost × Option Answer :=
  match approvals.registry.records.get? repositoryId with
  | none =>
      approvals.passes (.refused (.new .notFound s!"no registered repository {repositoryId}"))
  | some record =>
      approvals.begins (.revoking record (approvals.registry.records.values.any fun candidate =>
        candidate.repositoryId ≠ record.repositoryId ∧
          candidate.allowedRootId = record.allowedRootId))

end Beginning

def managing (homedir : String) : Machine ApprovalHost ApprovalStep (Option Answer) where
  step approvals input :=
    match input with
    | .register path => approvals.register homedir path
    | .registerIn allowedRootId relativePath => approvals.registerIn allowedRootId relativePath
    | .revoke repositoryId => approvals.revoke repositoryId
    | .unregister repositoryId =>
        ({ approvals with registry := approvals.registry.unregister repositoryId }, none)
    | .drawId => ({ approvals with number := approvals.number + 1 }, none)
    | .resume call found => approvals.resume call found

end ApprovalHost

end Calls

end Refyard.Approvals
