import Refyard.Foundation.IsoDate
import Refyard.HostNode.NodePaths

/-! The recovery store of the TypeScript host. What is about to be lost is copied, the copy is
verified, and a record of it goes into an index. A call waits for the file system at each of
its steps, and other calls, or the end of the process, may come between. -/
namespace Refyard.Recovery
open Approvals

inductive PathKind where
  | regularFile
  | directory
  | symlink
  | submoduleGitlink
  | other
  deriving DecidableEq

def PathKind.text : PathKind → String
  | .regularFile => "regularFile"
  | .directory => "directory"
  | .symlink => "symlink"
  | .submoduleGitlink => "submoduleGitlink"
  | .other => "other"

structure PathMetadata where
  kind : PathKind
  sizeBytes : Nat
  mode : String

inductive ContentKind where
  | text
  | binary
  | unrepresentable
  deriving DecidableEq

structure ContentFingerprint where
  hex : String
  sizeBytes : Nat
  contentKind : ContentKind
  deriving DecidableEq

def textSniffBytes : Nat := 8000

def sniffContentKind (front : Bytes) : ContentKind :=
  if front.contains 0 then .binary
  else if (Utf8.decodeStrict front).isSome then .text
  else .unrepresentable

/-- `sha256` is the digest in hexadecimal digits. -/
def fingerprintFile (sha256 : Bytes → String) (contents : Bytes) : ContentFingerprint where
  hex := sha256 contents
  sizeBytes := contents.length
  contentKind := sniffContentKind (contents.take textSniffBytes)

structure RecoveryBudget where
  maxTotalBytes : Nat
  maxAgeMs : Int

def defaultRecoveryBudget : RecoveryBudget where
  maxTotalBytes := 256 * 1024 * 1024
  maxAgeMs := 7 * 24 * 60 * 60 * 1000

structure BackupRecord where
  backupPath : String
  originalPath : String
  fingerprint : ContentFingerprint
  createdAtMs : Int
  mode : String
  deriving DecidableEq

inductive BackupOutcome where
  | verified (record : BackupRecord)
  | refused (reason : String)

/-- The directory of the store is absolute; the budget is the default one unless it is given. -/
structure RecoveryStoreOptions where
  root : RealPath
  budget : RecoveryBudget := defaultRecoveryBudget
  sha256 : Bytes → String

structure BackUpInput where
  contentRoot : RealPath
  relativePath : String
  operationId : String
  safe : isSafeRelativePath relativePath = true
  named : ProperName operationId.toList ∧ '/' ∉ operationId.toList

def BackUpInput.originalPath (input : BackUpInput) : String :=
  join input.contentRoot.1 input.relativePath

/-- What `index.json` holds: records that were written whole, or a text that was cut short,
which is no JSON. -/
inductive IndexFile where
  | absent
  | whole (records : List BackupRecord)
  | torn

def IndexFile.read : IndexFile → List BackupRecord
  | .whole records => records
  | .absent => []
  | .torn => []

structure BackupFile where
  path : String
  contents : Bytes

structure Verified where
  record : BackupRecord
  contents : Bytes

def liveBytes (records : List BackupRecord) : Nat :=
  (records.map fun record => record.fingerprint.sizeBytes).sum

structure Copying where
  input : BackUpInput
  metadata : PathMetadata
  existing : List BackupRecord
  backupPath : String

inductive Purpose where
  | backUp (backup : Verified)
  | prune (removed : Nat)

structure Rewrite where
  existing : List BackupRecord
  records : List BackupRecord
  purpose : Purpose

structure Sweep where
  cutoff : Int
  records : List BackupRecord
  keep : List BackupRecord
  removed : Nat
  left : List BackupRecord

inductive Phase where
  | metadata (input : BackUpInput)
  | existing (input : BackUpInput) (metadata : PathMetadata)
  | directory (copying : Copying)
  | source (copying : Copying)
  | copy (copying : Copying) (contents : Bytes)
  | original (copying : Copying)
  | fingerprint (copying : Copying) (hex : String)
  | mismatch (backupPath : String)
  | root (rewrite : Rewrite)
  | index (rewrite : Rewrite)
  | listing
  | pruning
  | removing (sweep : Sweep) (record : BackupRecord)

structure Call where
  number : Nat
  phase : Phase

structure Pruned where
  path : String
  records : List BackupRecord
  cutoff : Int

structure RecoveryStore where
  index : IndexFile := .absent
  files : InsertionMap BackupFile.path := .empty
  started : Nat := 0
  calls : InsertionMap Call.number := .empty
  /-- Kept for the statements: what was returned as verified, what prunes removed, and the
  times that were read. -/
  verified : List Verified := []
  pruned : List Pruned := []
  readings : List Int := []

inductive RecoveryAnswer where
  | nothing
  | backedUp (outcome : BackupOutcome)
  | listed (records : List BackupRecord)
  | pruned (removed : Nat)
  | threw

inductive Turn where
  | awaits (phase : Phase)
  | returns (answer : RecoveryAnswer)

/-- What lies outside of the store when a call goes on: the file that is backed up, and the
time. -/
structure Outside where
  metadata : PathMetadata
  contents : Bytes
  nowMs : Int

/-- `dirname` of a path as `join` writes it. -/
def dirname (path : String) : String :=
  String.ofList ('/' :: ['/'].intercalate (segments path).dropLast)

def stampOf (nowMs : Int) : Option String :=
  (IsoDate.timeClip nowMs).map fun time =>
    String.ofList ((IsoDate.toISOString time).map fun char =>
      if char = ':' ∨ char = '.' then '-' else char)

def backupPathOf (root : RealPath) (input : BackUpInput) (stamp : String) : String :=
  join root.1
    (input.operationId ++ "/" ++ stamp ++ "/" ++ relative input.contentRoot.1 input.originalPath)

section
variable (options : RecoveryStoreOptions)

def RecoveryStoreOptions.indexPath : String := join options.root.1 "index.json"

def onExisting (outside : Outside) (input : BackUpInput) (metadata : PathMetadata)
    (existing : List BackupRecord) : List Int × Turn :=
  let live := liveBytes existing
  if live + metadata.sizeBytes > options.budget.maxTotalBytes then
    ([], .returns (.backedUp (.refused
      s!"recovery area holds {live} bytes of {options.budget.maxTotalBytes}; prune or restore first")))
  else
    ([outside.nowMs], match stampOf outside.nowMs with
      | none => .returns .threw
      | some stamp =>
          .awaits (.directory
            { input, metadata, existing, backupPath := backupPathOf options.root input stamp }))

def sweepOn (cutoff : Int) (records : List BackupRecord) (removed : Nat) :
    List BackupRecord → List BackupRecord → Turn
  | keep, [] =>
      if removed > 0 then
        .awaits (.root { existing := records, records := keep, purpose := .prune removed })
      else .returns (.pruned removed)
  | keep, record :: left =>
      if record.createdAtMs ≥ cutoff then sweepOn cutoff records removed (keep ++ [record]) left
      else .awaits (.removing { cutoff, records, keep, removed, left } record)

def onRecords (outside : Outside) (records : List BackupRecord) : List Int × Turn :=
  ([outside.nowMs], sweepOn (outside.nowMs - options.budget.maxAgeMs) records 0 [] records)

namespace RecoveryStore

variable (store : RecoveryStore)

def reads (readings : List Int) : RecoveryStore :=
  { store with readings := store.readings ++ readings }

def filesIn (directory : String) : List String :=
  (store.files.values.map BackupFile.path).filter fun path => isInsideOrEqual directory path

/-- `rm` of a directory, as far as the files that are given. -/
def removes (directory : String) (paths : List String) : RecoveryStore :=
  { store with
    files := paths.foldl InsertionMap.erase store.files
    index := if isInsideOrEqual directory options.indexPath then .absent else store.index }

def prunes (sweep : Sweep) (record : BackupRecord) (paths : List String) : RecoveryStore :=
  { store.removes options (dirname (dirname record.backupPath)) paths with
    pruned := store.pruned ++ paths.map fun path =>
      { path, records := sweep.records, cutoff := sweep.cutoff } }

def writes (rewrite : Rewrite) : RecoveryStore :=
  { store with
    index := .whole rewrite.records
    verified := store.verified ++ match rewrite.purpose with
      | .backUp backup => [backup]
      | .prune _ => [] }

def perform (outside : Outside) : Phase → RecoveryStore × Turn
  | .metadata input =>
      if outside.metadata.kind ≠ .regularFile then
        (store, .returns (.backedUp (.refused
          s!"only regular files are backed up, this is a {outside.metadata.kind.text}")))
      else (store, .awaits (.existing input outside.metadata))
  | .existing input metadata =>
      let (readings, turn) := onExisting options outside input metadata store.index.read
      (store.reads readings, turn)
  | .directory copying => (store, .awaits (.source copying))
  | .source copying => (store, .awaits (.copy copying outside.contents))
  | .copy copying contents =>
      ({ store with files := store.files.set { path := copying.backupPath, contents } },
        .awaits (.original copying))
  | .original copying => (store, .awaits (.fingerprint copying (options.sha256 outside.contents)))
  | .fingerprint copying hex =>
      match store.files.get? copying.backupPath with
      | none => (store, .returns .threw)
      | some copy =>
          let fingerprint := fingerprintFile options.sha256 copy.contents
          if hex ≠ fingerprint.hex then (store, .awaits (.mismatch copying.backupPath))
          else
            let record : BackupRecord :=
              { backupPath := copying.backupPath
                originalPath := copying.input.originalPath
                fingerprint
                createdAtMs := outside.nowMs
                mode := copying.metadata.mode }
            (store.reads [outside.nowMs], .awaits (.root
              { existing := copying.existing
                records := copying.existing ++ [record]
                purpose := .backUp { record, contents := copy.contents } }))
  | .mismatch backupPath =>
      (store.removes options (dirname backupPath) (store.filesIn (dirname backupPath)),
        .returns (.backedUp (.refused "backup copy did not match the original bytes")))
  | .root rewrite => (store, .awaits (.index rewrite))
  | .index rewrite =>
      (store.writes rewrite, .returns
        (match rewrite.purpose with
        | .backUp backup => .backedUp (.verified backup.record)
        | .prune removed => .pruned removed))
  | .listing => (store, .returns (.listed store.index.read))
  | .pruning =>
      let (readings, turn) := onRecords options outside store.index.read
      (store.reads readings, turn)
  | .removing sweep record =>
      (store.prunes options sweep record
          (store.filesIn (dirname (dirname record.backupPath))),
        sweepOn sweep.cutoff sweep.records (sweep.removed + 1) sweep.keep sweep.left)

def rejects (outside : Outside) : Phase → RecoveryStore × Turn
  | .existing input metadata =>
      let (readings, turn) := onExisting options outside input metadata []
      (store.reads readings, turn)
  | .listing => (store, .returns (.listed []))
  | .pruning =>
      let (readings, turn) := onRecords options outside []
      (store.reads readings, turn)
  | _ => (store, .returns .threw)

/-- A part of what a call waits for: the first bytes of a write, or the first files of a
removal. -/
def performsPart (part : Nat) : Phase → RecoveryStore
  | .copy copying contents =>
      { store with
        files := store.files.set { path := copying.backupPath, contents := contents.take part } }
  | .mismatch backupPath =>
      store.removes options (dirname backupPath) ((store.filesIn (dirname backupPath)).take part)
  | .index _ => { store with index := .torn }
  | .removing sweep record =>
      store.prunes options sweep record
        ((store.filesIn (dirname (dirname record.backupPath))).take part)
  | _ => store

def settle (number : Nat) : Turn → RecoveryStore × RecoveryAnswer
  | .awaits phase => ({ store with calls := store.calls.set { number, phase } }, .nothing)
  | .returns answer => ({ store with calls := store.calls.erase number }, answer)

def starts (phase : Phase) : RecoveryStore :=
  { store with
    started := store.started + 1
    calls := store.calls.set { number := store.started + 1, phase } }

def list : List BackupRecord := store.index.read

def usageBytes : Nat := liveBytes store.index.read

end RecoveryStore

inductive RecoveryStep where
  | backUp (input : BackUpInput)
  | list
  | prune
  /-- What the call waits for happens: as a whole, in part, or not at all. -/
  | performs (number : Nat) (outside : Outside)
  | performsPart (number : Nat) (part : Nat)
  | rejects (number : Nat) (outside : Outside)
  /-- The process ends; the files stay. -/
  | crash

def recovering : Machine RecoveryStore RecoveryStep RecoveryAnswer where
  step store input :=
    match input with
    | .backUp input => (store.starts (.metadata input), .nothing)
    | .list => (store.starts .listing, .nothing)
    | .prune => (store.starts .pruning, .nothing)
    | .performs number outside =>
        match store.calls.get? number with
        | none => (store, .nothing)
        | some call =>
            let (next, turn) := store.perform options outside call.phase
            next.settle number turn
    | .performsPart number part =>
        match store.calls.get? number with
        | none => (store, .nothing)
        | some call => (store.performsPart options part call.phase, .nothing)
    | .rejects number outside =>
        match store.calls.get? number with
        | none => (store, .nothing)
        | some call =>
            let (next, turn) := store.rejects options outside call.phase
            next.settle number turn
    | .crash => ({ store with calls := .empty }, .nothing)

end

end Refyard.Recovery
