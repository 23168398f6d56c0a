import Refyard.HostNode.NodePaths

/-! Authorised directory handles of the TypeScript host. A handle is an opaque name for a
directory in an approved root, and is turned back into a real path wherever it is used. -/
namespace Refyard.Handles
open Approvals

structure ApprovedRoot where
  allowedRootId : String
  path : RealPath
  parentRootId : Option String
  deriving DecidableEq

inductive HandleErrorCode where
  | forbidden
  | notFound

inductive HandleError where
  | refused (code : HandleErrorCode) (message : String)
  | fileSystem

structure HandleRecord where
  handle : String
  rootId : String
  relativePath : String
  deriving DecidableEq

structure ResolvedHandle where
  handle : String
  absolutePath : String
  root : ApprovedRoot
  relativePath : String

structure FileAnswers where
  realpath : String → Option RealPath
  isDirectory : String → Option Bool

/-- A small deterministic hash over sixteen-bit units, kept to thirty-two bits. -/
def hash (value : String) : Int :=
  ((Utf16.encode value.toList).foldl (fun accumulator unit =>
    accumulator * 31#32 + BitVec.ofNat 32 unit) 0#32).toInt

def shownHash (rootId relativePath : String) : Nat := (hash s!"{rootId}/{relativePath}").natAbs

def handleText (number : Nat) (rootId relativePath : String) : String :=
  s!"dir_{base36 number}{base36 (shownHash rootId relativePath)}"

structure Mint where
  number : Nat
  handle : String
  root : ApprovedRoot
  relativePath : String
  deriving DecidableEq

structure HandleRegistry where
  roots : InsertionMap ApprovedRoot.allowedRootId := .empty
  handles : InsertionMap HandleRecord.handle := .empty
  /-- Kept for the statements: every handle that a call was given, in order. -/
  minted : List Mint := []

def candidate (root : ApprovedRoot) (relativePath : String) : String :=
  if relativePath.isEmpty then root.path.1 else join root.path.1 relativePath

/-- `resolve` of a path behind an absolute one. -/
def resolvePath (parent relative : String) : String :=
  String.ofList ('/' :: ['/'].intercalate (segments (parent ++ "/" ++ relative)))

namespace HandleRegistry

/-- The number that the next handle shows. A text that is there already takes the place of
the earlier record, and the count stays. -/
def nextNumber (registry : HandleRegistry) : Nat := registry.handles.values.length + 1

def mintHandle (registry : HandleRegistry) (root : ApprovedRoot) (relativePath : String) :
    String × HandleRegistry :=
  let rootId := root.allowedRootId
  let number := registry.nextNumber
  let handle := handleText number rootId relativePath
  (handle, { registry with
    handles := registry.handles.set { handle, rootId, relativePath }
    minted := registry.minted ++ [{ number, handle, root, relativePath }] })

def rootToApprove (registry : HandleRegistry) (allowedRootId path : String)
    (parentRootId : Option String) (files : FileAnswers) : Except HandleError ApprovedRoot :=
  if !isAbsolute path then
    .error (.refused .forbidden s!"approved root must be an absolute path: {path}")
  else
    match files.realpath path with
    | none => .error .fileSystem
    | some resolved =>
        match files.isDirectory resolved.1 with
        | none => .error .fileSystem
        | some false =>
            .error (.refused .forbidden s!"approved root is not a directory: {resolved.1}")
        | some true =>
            match parentRootId with
            | none => .ok { allowedRootId, path := resolved, parentRootId }
            | some parentId =>
                match registry.roots.get? parentId with
                | none =>
                    .error (.refused .forbidden
                      s!"root {resolved.1} is not inside its declared parent {parentId}")
                | some parent =>
                    if isInsideOrEqual parent.path.1 resolved.1 then
                      .ok { allowedRootId, path := resolved, parentRootId }
                    else
                      .error (.refused .forbidden
                        s!"root {resolved.1} is not inside its declared parent {parent.path.1}")

def approveRoot (registry : HandleRegistry) (allowedRootId path : String)
    (parentRootId : Option String) (files : FileAnswers) :
    Except HandleError (ApprovedRoot × HandleRegistry) :=
  (registry.rootToApprove allowedRootId path parentRootId files).map fun root =>
    (root, { registry with roots := registry.roots.set root })

def requireRoot (registry : HandleRegistry) (allowedRootId : String) :
    Except HandleError ApprovedRoot :=
  match registry.roots.get? allowedRootId with
  | some root => .ok root
  | none => .error (.refused .forbidden s!"unknown approved root {allowedRootId}")

def handleRoot (registry : HandleRegistry) (allowedRootId relativePath : String) :
    Except HandleError ApprovedRoot := do
  let root ← registry.requireRoot allowedRootId
  if !relativePath.isEmpty && !isSafeRelativePath relativePath then
    .error (.refused .forbidden s!"unsafe relative path: {relativePath}")
  else pure root

def handleFor (registry : HandleRegistry) (allowedRootId relativePath : String) :
    Except HandleError (String × HandleRegistry) :=
  (registry.handleRoot allowedRootId relativePath).map fun root =>
    registry.mintHandle root relativePath

def resolve (registry : HandleRegistry) (handle : String) (files : FileAnswers) :
    Except HandleError ResolvedHandle :=
  match registry.handles.get? handle with
  | none => .error (.refused .notFound s!"unknown directory handle {handle}")
  | some record =>
      match registry.roots.get? record.rootId with
      | none =>
          .error (.refused .forbidden
            s!"handle {handle} refers to a root that is no longer approved")
      | some root =>
          match files.realpath (candidate root record.relativePath) with
          | none => .error .fileSystem
          | some resolved =>
              -- proved again on every use
              if isInsideOrEqual root.path.1 resolved.1 then
                match files.isDirectory resolved.1 with
                | none => .error .fileSystem
                | some false =>
                    .error (.refused .notFound s!"handle {handle} no longer names a directory")
                | some true =>
                    .ok { handle, absolutePath := resolved.1, root,
                          relativePath := record.relativePath }
              else
                .error (.refused .forbidden
                  s!"directory {resolved.1} escapes its approved root")

def destinationRoot (registry : HandleRegistry) (allowedRootId relativePath : String) :
    Except HandleError ApprovedRoot := do
  let root ← registry.requireRoot allowedRootId
  let candidate := resolvePath root.path.1 relativePath
  if !isSafeRelativePath relativePath then
    .error (.refused .forbidden s!"unsafe destination: {relativePath}")
  else if isInsideOrEqual root.path.1 candidate then pure root
  else
    .error (.refused .forbidden s!"destination {candidate} escapes its approved root")

def resolveDestination (registry : HandleRegistry) (allowedRootId relativePath : String) :
    Except HandleError (ResolvedHandle × HandleRegistry) :=
  (registry.destinationRoot allowedRootId relativePath).map fun root =>
    let (handle, registry) := registry.mintHandle root relativePath
    ({ handle, absolutePath := resolvePath root.path.1 relativePath, root, relativePath }, registry)

end HandleRegistry

inductive HandleCall where
  | approveRoot (allowedRootId path : String) (parentRootId : Option String) (files : FileAnswers)
  | handleFor (allowedRootId relativePath : String)
  | resolve (handle : String) (files : FileAnswers)
  | resolveDestination (allowedRootId relativePath : String)

inductive HandleAnswer where
  | root (root : ApprovedRoot)
  | handle (handle : String)
  | resolved (resolved : ResolvedHandle)
  | failed (error : HandleError)

def settle {α : Type} (registry : HandleRegistry) (answer : α → HandleAnswer) :
    Except HandleError (α × HandleRegistry) → HandleRegistry × HandleAnswer
  | .ok (value, registry) => (registry, answer value)
  | .error error => (registry, .failed error)

/-- A root is filed when the file system has answered, and a handle is looked up before. -/
def registering : Machine HandleRegistry HandleCall HandleAnswer where
  step registry call :=
    match call with
    | .approveRoot allowedRootId path parentRootId files =>
        settle registry .root (registry.approveRoot allowedRootId path parentRootId files)
    | .handleFor allowedRootId relativePath =>
        settle registry .handle (registry.handleFor allowedRootId relativePath)
    | .resolve handle files =>
        settle registry .resolved ((registry.resolve handle files).map fun found => (found, registry))
    | .resolveDestination allowedRootId relativePath =>
        settle registry .resolved (registry.resolveDestination allowedRootId relativePath)

end Refyard.Handles
