import Refyard.HostNode.Handles

/-! Worktree identities of the TypeScript host. An id is kept for a path as long as the path is
in the lists that Git prints; a reconcile waits for the file system once for each row that it
can ask about, and others may run meanwhile. -/
namespace Refyard.HostWorktrees
open Approvals TextCodec Handles

structure GitWorktreeRecord where
  pathBytes : Bytes
  headOid : Option String
  branchRef : Option String
  bare : Bool
  detached : Bool
  locked : Bool
  lockReasonBytes : Option Bytes
  prunable : Bool
  deriving DecidableEq

structure HostWorktree where
  worktreeId : String
  repositoryId : String
  path : String
  displayPath : TextCodec.DisplayPath
  handle : Option String
  isMain : Bool
  isBare : Bool
  headOid : Option String
  branchRef : Option String
  detached : Bool
  locked : Bool
  lockReason : Option TextCodec.DisplayPath
  prunable : Bool

structure ReconcileInput where
  repositoryId : String
  allowedRootId : String
  records : List GitWorktreeRecord
  primaryPath : Option String

/-- Kept for the statements: what a row names, the text it was filed under, and its id. -/
structure Row where
  repositoryId : String
  place : Bytes
  path : String
  worktreeId : String
  deriving DecidableEq

structure Reconcile where
  number : Nat
  input : ReconcileInput
  root : ApprovedRoot
  left : List GitWorktreeRecord
  worktrees : List HostWorktree := []
  rows : List Row := []

def Reconcile.seen (reconcile : Reconcile) : List String :=
  reconcile.worktrees.map HostWorktree.worktreeId

structure WorktreeRegistry where
  byId : InsertionMap HostWorktree.worktreeId := .empty
  idByPath : String → Option String := fun _ => none
  /-- Shared with every other id that is drawn. -/
  counter : Nat := 0
  handles : HandleRegistry := {}
  started : Nat := 0
  reconciles : List Reconcile := []
  /-- The reconcile that goes on without waiting. -/
  running : Option Nat := none
  /-- Kept for the statements: every row that was taken up, and the lists that were returned. -/
  rows : List Row := []
  lists : String → List (List Row) := fun _ => []

inductive WorktreeAnswer where
  | nothing
  | failed (error : HandleError)
  | returned (worktrees : List HostWorktree) (removed : List String)

def mintedWorktreeId (number : Nat) : String := s!"wt_{base36 number}"

abbrev Leads := Bytes → Option Bytes

/-- `realpath` of a text, as a text. -/
def realpath (leads : Leads) (text : List Char) : Option (List Char) :=
  (leads (Utf8.encode text)).map Utf8.decode

def resolvedText (leads : Leads) (record : GitWorktreeRecord) : String :=
  let displayPath := TextCodec.toDisplayPath record.pathBytes
  String.ofList
    (if displayPath.representable then (realpath leads displayPath.text).getD displayPath.text
    else displayPath.text)

def placeOf (leads : Leads) (record : GitWorktreeRecord) : Bytes :=
  (leads record.pathBytes).getD record.pathBytes

def waits : List GitWorktreeRecord → Bool
  | [] => false
  | record :: _ => (TextCodec.toDisplayPath record.pathBytes).representable

namespace WorktreeRegistry

def idFor (registry : WorktreeRegistry) (path : String) : String × WorktreeRegistry :=
  match registry.idByPath path with
  | some worktreeId => (worktreeId, registry)
  | none =>
      let minted := mintedWorktreeId (registry.counter + 1)
      (minted, { registry with
        counter := registry.counter + 1
        idByPath := Function.update registry.idByPath path (some minted) })

def handleIn (registry : WorktreeRegistry) (root : ApprovedRoot) (allowedRootId : String)
    (representable : Bool) (path : String) : Option String × WorktreeRegistry :=
  if representable && isInsideOrEqual root.path.1 path then
    match registry.handles.handleFor allowedRootId (relative root.path.1 path) with
    | .ok (handle, handles) => (some handle, { registry with handles })
    | .error _ => (none, registry)
  else (none, registry)

def worktreeOf (input : ReconcileInput) (record : GitWorktreeRecord) (path worktreeId : String)
    (handle : Option String) : HostWorktree where
  worktreeId := worktreeId
  repositoryId := input.repositoryId
  path := path
  displayPath := TextCodec.toDisplayPath record.pathBytes
  handle := handle
  isMain := input.primaryPath == some path
  isBare := record.bare
  headOid := record.headOid
  branchRef := record.branchRef
  detached := record.detached
  locked := record.locked
  lockReason := record.lockReasonBytes.map TextCodec.toDisplayPath
  prunable := record.prunable

def putBack (registry : WorktreeRegistry) (reconcile : Reconcile) : List Reconcile :=
  registry.reconciles.map fun other =>
    if other.number = reconcile.number then reconcile else other

def takeUp (registry : WorktreeRegistry) (reconcile : Reconcile) (record : GitWorktreeRecord)
    (left : List GitWorktreeRecord) (leads : Leads) : WorktreeRegistry :=
  let input := reconcile.input
  let path := resolvedText leads record
  let (worktreeId, drawn) := registry.idFor path
  let (handle, handled) := drawn.handleIn reconcile.root input.allowedRootId
    (TextCodec.toDisplayPath record.pathBytes).representable path
  let worktree := worktreeOf input record path worktreeId handle
  let row : Row :=
    { repositoryId := input.repositoryId, place := placeOf leads record, path, worktreeId }
  { handled with
    byId := registry.byId.set worktree
    reconciles := registry.putBack
      { reconcile with
        left
        worktrees := reconcile.worktrees ++ [worktree]
        rows := reconcile.rows ++ [row] }
    running := if waits left then none else some reconcile.number
    rows := registry.rows ++ [row] }

def gone (registry : WorktreeRegistry) (reconcile : Reconcile) : List HostWorktree :=
  registry.byId.values.filter fun worktree =>
    worktree.repositoryId = reconcile.input.repositoryId &&
      !reconcile.seen.contains worktree.worktreeId

def finish (registry : WorktreeRegistry) (reconcile : Reconcile) : WorktreeRegistry :=
  let removed := registry.gone reconcile
  let repositoryId := reconcile.input.repositoryId
  { registry with
    byId := removed.foldl (fun byId worktree => byId.erase worktree.worktreeId) registry.byId
    idByPath := fun path =>
      if removed.any fun worktree => worktree.path = path then none else registry.idByPath path
    reconciles := registry.reconciles.filter fun other => other.number ≠ reconcile.number
    running := none
    lists := Function.update registry.lists repositoryId
      (registry.lists repositoryId ++ [reconcile.rows]) }

def turn (registry : WorktreeRegistry) (number : Nat) : Option Reconcile :=
  if registry.running.all fun other => other = number then
    registry.reconciles.find? fun reconcile => reconcile.number = number
  else none

def reconcile (registry : WorktreeRegistry) (input : ReconcileInput) :
    WorktreeRegistry × WorktreeAnswer :=
  match registry.handles.roots.get? input.allowedRootId with
  | none =>
      (registry, .failed (.refused .forbidden s!"unknown approved root {input.allowedRootId}"))
  | some root =>
      let number := registry.started + 1
      ({ registry with
        started := number
        reconciles := registry.reconciles ++ [{ number, input, root, left := input.records }]
        running := if waits input.records then none else some number }, .nothing)

def advance (registry : WorktreeRegistry) (number : Nat) (leads : Leads) :
    WorktreeRegistry × WorktreeAnswer :=
  match registry.turn number with
  | none => (registry, .nothing)
  | some reconcile =>
      match reconcile.left with
      | [] =>
          (registry.finish reconcile, .returned reconcile.worktrees
            ((registry.gone reconcile).map HostWorktree.worktreeId))
      | record :: left => (registry.takeUp reconcile record left leads, .nothing)

def get (registry : WorktreeRegistry) (worktreeId : String) : Option HostWorktree :=
  registry.byId.get? worktreeId

def list (registry : WorktreeRegistry) (repositoryId : String) : List HostWorktree :=
  registry.byId.values.filter fun worktree => worktree.repositoryId = repositoryId

def require (registry : WorktreeRegistry) (repositoryId : String) (worktreeId : Option String) :
    Except HandleError HostWorktree :=
  match worktreeId with
  | none =>
      let candidates := registry.list repositoryId
      match candidates.find? HostWorktree.isMain <|> candidates.head? with
      | some primary => .ok primary
      | none =>
          .error (.refused .notFound s!"repository {repositoryId} has no worktrees registered")
  | some worktreeId =>
      match registry.byId.get? worktreeId with
      | some worktree =>
          if worktree.repositoryId = repositoryId then .ok worktree
          else
            .error (.refused .notFound
              s!"worktree {worktreeId} is not part of repository {repositoryId}")
      | none =>
          .error (.refused .notFound
            s!"worktree {worktreeId} is not part of repository {repositoryId}")

end WorktreeRegistry

inductive WorktreeStep where
  | reconcile (input : ReconcileInput)
  | advance (number : Nat) (leads : Leads)
  | handles (call : HandleCall)
  | drawId

def reconciling : Machine WorktreeRegistry WorktreeStep WorktreeAnswer where
  step registry input :=
    match input with
    | .advance number leads => registry.advance number leads
    | .reconcile input =>
        if registry.running.isSome then (registry, .nothing) else registry.reconcile input
    | .handles call =>
        if registry.running.isSome then (registry, .nothing)
        else ({ registry with handles := registering.next registry.handles call }, .nothing)
    | .drawId =>
        if registry.running.isSome then (registry, .nothing)
        else ({ registry with counter := registry.counter + 1 }, .nothing)

end Refyard.HostWorktrees
