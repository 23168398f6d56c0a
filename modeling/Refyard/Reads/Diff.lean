import Refyard.Core.Numstat
import Refyard.Core.Patch
import Refyard.DisplayPath
import Refyard.Paths
import Refyard.Reads.Paging
import Refyard.Writes.Worktrees

/-! The diff panel: what changed, how much, and, for the path that is named, the patch. Three
commands of Git are joined here by the path. An untracked file has no diff; its content is read
from the working tree. -/
namespace Refyard.Diff
open Interaction Paths Registration

def nameStatusCommand : String := "diff --name-status -z"

def numstatCommand : String := "diff --numstat -z"

def patchCommand : String := "diff patch for one path"

def statusCommand : String := "status --porcelain=v2 --branch -z"

def diffMaxFiles : Nat := 200

inductive DiffKind where
  | unstaged
  | staged
  | untracked
  | commit
  | range
  deriving DecidableEq

structure DiffQuery where
  repositoryId : String
  worktreeId : Option String := none
  kind : DiffKind
  oid : Option String := none
  fromRev : Option String := none
  toRev : Option String := none
  pathId : Option String := none
  maxBytes : Option Nat := none

structure PatchHunk where
  header : String
  oldStart : Int
  oldLines : Int
  newStart : Int
  newLines : Int
  lines : List PatchLine
  deriving DecidableEq

inductive FilePatch where
  | text (hunks : List PatchHunk) (synthesized : Bool)
  | binary
  | oversize (reason : String)
  | unavailable (reason : String)
  | submodule (oldOid newOid : Option String)

structure DiffFileModes where
  old : Option String
  new : Option String

structure DiffFile where
  pathId : String
  displayPath : String
  oldPathId : Option String
  oldDisplayPath : Option String
  changeKind : ChangeKind
  isBinary : Bool
  isSubmodule : Bool
  insertions : Option Nat
  deletions : Option Nat
  modes : Option DiffFileModes
  patch : FilePatch

structure DiffRequest where
  kind : DiffKind
  oid : Option String
  fromRev : Option String
  toRev : Option String
  pathId : Option String

structure DiffStats where
  filesChanged : Nat
  insertions : Nat
  deletions : Nat
  binaryFiles : Nat

structure DiffResponse where
  snapshotId : String
  repositoryId : String
  worktreeId : Option String
  readAt : String
  request : DiffRequest
  files : List DiffFile
  stats : DiffStats
  truncated : Bool

/-! The commands. -/

/-- Which revisions a diff compares. Without any, the working tree is compared to the index. -/
structure DiffArguments where
  cached : Bool
  fromRev : Option String
  toRev : Option String

def incomplete (message : String) : Problem :=
  (Problem.new .gitCommandFailed message).withDetail "command" (.text "diff")

/-- `<oid>^!` is a commit against its first parent. -/
def diffArguments (query : DiffQuery) : Except Problem DiffArguments :=
  match query.kind with
  | .staged => .ok { cached := true, fromRev := none, toRev := none }
  | .commit =>
      match query.oid with
      | none => .error (incomplete "a commit diff requires an object name")
      | some oid => .ok { cached := false, fromRev := some s!"{oid}^!", toRev := none }
  | .range =>
      match query.fromRev, query.toRev with
      | some fromRev, some toRev =>
          .ok { cached := false, fromRev := some fromRev, toRev := some toRev }
      | _, _ => .error (incomplete "a range diff requires both endpoints")
  | .unstaged | .untracked => .ok { cached := false, fromRev := none, toRev := none }

def pushRange (options : DiffArguments) : List String :=
  (if options.cached then ["--cached"] else []) ++ options.fromRev.toList ++ options.toRev.toList

def planDiffNameStatus (options : DiffArguments) : GitPlan :=
  .read (["diff", "--name-status", "-z", "--no-ext-diff", "--no-textconv"] ++ pushRange options)

def planDiffNumstat (options : DiffArguments) : GitPlan :=
  .read (["diff", "--numstat", "-z", "--no-ext-diff", "--no-textconv"] ++ pushRange options)

/-- The path is the only thing behind `--`, and is no pattern. -/
def planDiffPatchForPath (path : String) (options : DiffArguments) : GitPlan :=
  .read (["--literal-pathspecs", "diff", "--no-color", "--no-ext-diff", "--no-textconv", "--patch",
    "--submodule=short"] ++ pushRange options ++ ["--", path])

/-! A patch as the contract has it. -/

def patchHunkDto (hunk : Refyard.PatchHunk) : PatchHunk where
  header := hunk.header
  oldStart := (hunk.oldStart : Int).bmod (2 ^ 64)
  oldLines := (hunk.oldLines : Int).bmod (2 ^ 64)
  newStart := (hunk.newStart : Int).bmod (2 ^ 64)
  newLines := (hunk.newLines : Int).bmod (2 ^ 64)
  lines := hunk.lines

def filePatchDto : FilePatchBody → FilePatch
  | .text hunks => .text (hunks.map patchHunkDto) false
  | .binary => .binary
  | .submodule oldOid newOid => .submodule oldOid newOid
  | .modeOnly _ _ => .text [] false
  | .unavailable reason => .unavailable reason

def notRequested : FilePatch := .unavailable "no patch was requested for this path"

/-! Untracked files. -/

/-- What the working tree has at a path. A regular file has a size, and content when it can be
read. -/
inductive FoundFile where
  | missing
  | irregular
  | regular (size : Nat) (content : Option Bytes)

inductive SynthesizedPatch where
  | text (hunks : List PatchHunk)
  | binary
  | oversize (reason : String)
  | unavailable (reason : String)
  deriving DecidableEq

def components (path : Bytes) : List Bytes :=
  if path.isEmpty then []
  else
    match path.splitOn 0x2f with
    | [] => []
    | first :: rest => first :: rest.filter fun part => !part.isEmpty && part != [0x2e]

/-- Joins a relative path onto a worktree, refusing anything that is not contained in it. -/
def joinRelative (worktree relative : Bytes) : Option Bytes :=
  if relative.head? = some 0x2f || (components relative).any (· == [0x2e, 0x2e]) then none
  else
    let joined := joinPath worktree relative
    if (components worktree).isPrefixOf (components joined) then some joined else none

def addedLines (endsWithNewline : Bool) : List (List Char) → List PatchLine
  | [] => []
  | [last] => [{ kind := .add, text := String.ofList last, noNewline := !endsWithNewline }]
  | line :: rest =>
      { kind := .add, text := String.ofList line, noNewline := false } ::
        addedLines endsWithNewline rest

/-- The hunk that an untracked file's text becomes. An empty file has no lines. -/
def textHunks (text : List Char) : List PatchHunk :=
  let endsWithNewline := text.getLast? == some '\n'
  let body := if endsWithNewline then text.dropLast else text
  let lines := if body.isEmpty then [] else addedLines endsWithNewline (body.splitOn '\n')
  if lines.isEmpty then
    [{ header := "@@ -0,0 +1,0 @@", oldStart := 0, oldLines := 0, newStart := 1, newLines := 0,
       lines := [] }]
  else
    [{ header := s!"@@ -0,0 +1,{lines.length} @@", oldStart := 0, oldLines := 0, newStart := 1,
       newLines := lines.length, lines }]

def synthesizeUntrackedPatch (disk : Bytes → FoundFile) (worktreePath relativePath : String)
    (maxBytes : Nat) : SynthesizedPatch :=
  match joinRelative (textBytes worktreePath) (textBytes relativePath) with
  | none => .unavailable "the path is outside the worktree"
  | some absolute =>
      match disk absolute with
      | .missing => .unavailable "the file could not be read"
      | .irregular => .unavailable "not a regular file"
      | .regular size content =>
          if maxBytes < size then .oversize s!"the file is {size} bytes"
          else
            match content with
            | none => .unavailable "the file could not be read"
            | some bytes =>
                if bytes.contains 0 then .binary
                else
                  match Utf8.decodeStrict bytes with
                  | none => .binary
                  | some text => .text (textHunks text)

def synthesizedPatchDto : SynthesizedPatch → FilePatch
  | .text hunks => .text hunks true
  | .binary => .binary
  | .oversize reason => .oversize reason
  | .unavailable reason => .unavailable reason

/-! The read. -/

structure DiffState where
  snapshots : SnapshotStore := {}
  paths : PathRegistry := {}

abbrev DiffRead := Interaction GitCommand GitAnswer (Problem × DiffState)

def leaving {α : Type} (state : DiffState) (program : Read α) : DiffRead α :=
  program.mapExit fun problem => (problem, state)

def checkMaxBytes (query : DiffQuery) : Except Problem Unit :=
  match query.maxBytes with
  | none => .ok ()
  | some maxBytes =>
      if maxBytes = 0 ∨ patchMaxBytesPerFile < maxBytes then
        .error ((Problem.new .invalidRequest
          s!"a patch bound is between 1 and {patchMaxBytesPerFile} bytes").withDetail
          "maxBytes" (.integer ((maxBytes : Int).bmod (2 ^ 64))))
      else .ok ()

def diffSnapshot (record : Registration.RepositoryRecord) (worktreeId : String) :
    Snapshots.SnapshotRequest where
  kind := .diff
  repositoryId := record.repositoryId
  worktreeId := some worktreeId
  targetGeneration := record.location.targetGeneration
  tips := []
  headOid := none
  observedRefsFingerprint := none
  indexKey := none
  historyIntent := none

/-- The path that is asked for. An id that was never minted is refused, and so are bytes that
are no text. -/
def requestedPath (paths : PathRegistry) (targetGeneration : String) (query : DiffQuery) :
    Except Problem (Option Bytes) :=
  match query.pathId with
  | none => .ok none
  | some pathId =>
      match paths.resolve targetGeneration pathId with
      | none =>
          .error ((Problem.new .notFound
            "that path id is unknown, or it belongs to a different worktree or an earlier build of its target").withDetail
            "pathId" (.text pathId))
      | some bytes =>
          if (Utf8.decodeStrict bytes).isNone then
            .error ((Problem.new .unsupportedPathEncoding
              "this path's bytes cannot be represented exactly on this host, so it cannot be used as an input").withDetail
              "pathId" (.text pathId))
          else .ok (some bytes)

def maxBytesOf (query : DiffQuery) : Nat := query.maxBytes.getD patchMaxBytesPerFile

def patchOptions (query : DiffQuery) : ParsePatchOptions where
  maxBytes := some (maxBytesOf query)
  maxLines := some patchMaxLinesPerFile

structure ChangeFacts where
  changes : List NameStatusEntry
  stats : List NumstatEntry
  patch : Option ParsedFilePatch
  truncated : Bool

def readPatch (target : ReadTarget) (args : DiffArguments) (query : DiffQuery) :
    Option Bytes → Read (Option ParsedFilePatch × Bool)
  | none => .done (none, false)
  | some requested => do
      let bytes ← runRequired target (planDiffPatchForPath (decodeText requested) args) patchCommand
      let parsed ← .orLeave ((parsePatch bytes (patchOptions query)).mapError
        (parseProblem patchCommand))
      pure (parsed.files.head?, parsed.truncated)

def readChanges (target : ReadTarget) (query : DiffQuery) (requested : Option Bytes) :
    Read ChangeFacts := do
  let args ← .orLeave (diffArguments query)
  let nameStatusBytes ← runRequired target (planDiffNameStatus args) nameStatusCommand
  let changes ← .orLeave ((parseNameStatus nameStatusBytes diffMaxEntries).mapError
    (parseProblem nameStatusCommand))
  let numstatBytes ← runRequired target (planDiffNumstat args) numstatCommand
  let stats ← .orLeave ((parseNumstat numstatBytes diffMaxEntries).mapError
    (parseProblem numstatCommand))
  let (patch, truncated) ← readPatch target args query requested
  pure { changes, stats, patch, truncated }

def statFor (stats : List NumstatEntry) (path : Bytes) : Option NumstatEntry :=
  stats.reverse.find? fun entry => entry.path = path

def matchedPatch (patch : Option ParsedFilePatch) (requested : Option Bytes) (path : Bytes) :
    Option ParsedFilePatch :=
  match patch, requested with
  | some file, some bytes => if bytes = path then some file else none
  | _, _ => none

def patchDto (matched : Option ParsedFilePatch) : FilePatch :=
  match matched with
  | none => notRequested
  | some file => filePatchDto file.body

def isSubmoduleBody : FilePatchBody → Bool
  | .submodule _ _ => true
  | _ => false

def bindOriginal (paths : PathRegistry) (worktreeId targetGeneration : String) :
    Option Bytes → Option String × PathRegistry
  | none => (none, paths)
  | some bytes =>
      let (pathId, paths) := paths.bind worktreeId targetGeneration bytes
      (some pathId, paths)

def changedFile (facts : ChangeFacts) (requested : Option Bytes)
    (worktreeId targetGeneration : String) (paths : PathRegistry) (change : NameStatusEntry) :
    DiffFile × PathRegistry :=
  let stat := statFor facts.stats change.path
  let matched := matchedPatch facts.patch requested change.path
  let (pathId, paths) := paths.bind worktreeId targetGeneration change.path
  let (oldPathId, paths) := bindOriginal paths worktreeId targetGeneration change.originalPath
  ({ pathId
     displayPath := displayText change.path
     oldPathId
     oldDisplayPath := change.originalPath.map displayText
     changeKind := change.changeKind
     isBinary := (stat.map NumstatEntry.binary).getD false
     isSubmodule := (matched.map fun file => isSubmoduleBody file.body).getD false
     insertions := stat.bind NumstatEntry.insertions
     deletions := stat.bind NumstatEntry.deletions
     modes := matched.map fun file => { old := file.oldMode, new := file.newMode }
     patch := patchDto matched }, paths)

def untrackedPatch (disk : Bytes → FoundFile) (canonicalWorktree : String) (maxBytes : Nat)
    (entry : StatusRecord) : SynthesizedPatch :=
  let display := toDisplayPath entry.path
  if !display.representable then .unavailable "the path cannot be represented exactly"
  else synthesizeUntrackedPatch disk canonicalWorktree display.text maxBytes

/-- The entry of one untracked file. It is all additions, and its hunk says how many lines
there are. -/
def untrackedFile (disk : Bytes → FoundFile) (canonicalWorktree : String) (maxBytes : Nat)
    (worktreeId targetGeneration : String) (paths : PathRegistry) (entry : StatusRecord) :
    DiffFile × PathRegistry :=
  let patch := untrackedPatch disk canonicalWorktree maxBytes entry
  let hunks :=
    match patch with
    | .text hunks => hunks
    | _ => []
  let (pathId, paths) := paths.bind worktreeId targetGeneration entry.path
  ({ pathId
     displayPath := displayText entry.path
     oldPathId := none
     oldDisplayPath := none
     changeKind := .added
     isBinary := patch == .binary
     isSubmodule := false
     insertions := hunks.head?.map fun hunk => (max hunk.newLines 0).toNat
     deletions := some 0
     modes := none
     patch := synthesizedPatchDto patch }, paths)

/-- One entry behind the other, each with the ids that its paths are bound to by then. -/
def describeAll {α : Type} (describe : PathRegistry → α → DiffFile × PathRegistry)
    (paths : PathRegistry) : List α → List DiffFile × PathRegistry
  | [] => ([], paths)
  | entry :: rest =>
      let (file, paths) := describe paths entry
      let (files, paths) := describeAll describe paths rest
      (file :: files, paths)

structure ResponseHead where
  snapshotId : String
  repositoryId : String
  worktreeId : String
  readAt : String
  request : DiffRequest

def complete (head : ResponseHead) (files : List DiffFile) (limitations : List String) :
    DiffResponse where
  snapshotId := head.snapshotId
  repositoryId := head.repositoryId
  worktreeId := some head.worktreeId
  readAt := head.readAt
  request := head.request
  files := files
  stats :=
    { filesChanged := files.length
      insertions := (files.filterMap DiffFile.insertions).sum
      deletions := (files.filterMap DiffFile.deletions).sum
      binaryFiles := files.countP DiffFile.isBinary }
  truncated := !limitations.isEmpty

def changeLimitations (facts : ChangeFacts) (requested : Option Bytes) (files : List DiffFile) :
    List String :=
  (if facts.truncated then
    [s!"the patch for {decodeText (requested.getD [])} was truncated by the size bound"] else []) ++
  (if files.length < facts.changes.length then
    [s!"the change set has {facts.changes.length} files; the first {diffMaxFiles} are listed"]
    else []) ++ (if requested.isNone && !files.isEmpty then
    ["patches are fetched per path; request one with pathId to see its patch"] else [])

def untrackedLimitations (targeted : List StatusRecord) (files : List DiffFile) : List String :=
  if files.length < targeted.length then
    [s!"the change set has {targeted.length} untracked files; the first {diffMaxFiles} are listed"]
  else []

def targetedRecords (parsed : StatusParseResult) (requested : Option Bytes) : List StatusRecord :=
  let untracked := parsed.records.filter fun entry => entry.kind = .untracked
  match requested with
  | none => untracked
  | some bytes => untracked.filter fun entry => entry.path = bytes

def untrackedDiff (target : ReadTarget) (disk : Bytes → FoundFile) (state : DiffState)
    (query : DiffQuery) (head : ResponseHead) (requested : Option Bytes) :
    DiffRead (DiffResponse × DiffState) := do
  let bytes ← leaving state (runRequired target planStatus statusCommand)
  let parsed ← leaving state (.orLeave ((parseStatus bytes statusMaxEntries).mapError
    (parseProblem statusCommand)))
  let targeted := targetedRecords parsed requested
  let location := target.record.location
  let (files, paths) := describeAll
    (untrackedFile disk location.canonicalWorktree (maxBytesOf query) head.worktreeId
      location.targetGeneration) state.paths (targeted.take diffMaxFiles)
  pure (complete head files (untrackedLimitations targeted files), { state with paths })

def trackedDiff (target : ReadTarget) (state : DiffState) (query : DiffQuery) (head : ResponseHead)
    (requested : Option Bytes) : DiffRead (DiffResponse × DiffState) := do
  let facts ← leaving state (readChanges target query requested)
  let (files, paths) := describeAll
    (changedFile facts requested head.worktreeId target.record.location.targetGeneration)
    state.paths (facts.changes.take diffMaxFiles)
  pure (complete head files (changeLimitations facts requested files), { state with paths })

def readDiff (target : ReadTarget) (disk : Bytes → FoundFile) (state : DiffState)
    (query : DiffQuery) (moment : ReadMoment) : DiffRead (DiffResponse × DiffState) := do
  let worktreeId ← leaving state
    (.orLeave (requireWorktree (addressed target.record) query.worktreeId))
  leaving state (.orLeave (checkMaxBytes query))
  let (snapshot, snapshots) := state.snapshots.mint moment.nowMs
    (diffSnapshot target.record worktreeId)
  let state := { state with snapshots }
  let requested ← leaving state
    (.orLeave (requestedPath state.paths target.record.location.targetGeneration query))
  let head : ResponseHead :=
    { snapshotId := snapshot.snapshotId
      repositoryId := target.record.repositoryId
      worktreeId
      readAt := moment.readAt
      request :=
        { kind := query.kind, oid := query.oid, fromRev := query.fromRev, toRev := query.toRev,
          pathId := query.pathId } }
  if query.kind = .untracked then untrackedDiff target disk state query head requested
  else trackedDiff target state query head requested

/-! What is owed to the path that is asked for. -/

def Printing (printed : GitPlan → Bytes) (command : GitCommand) (answer : GitAnswer) : Prop :=
  ∀ name bytes, requiredAnswer answer name = .ok bytes → bytes = printed command.plan

/-- The paths that changed, and the sections of the patch for the one that is asked for. -/
structure ChangeSet where
  paths : List Bytes
  sections : List ParsedFilePatch
  deriving DecidableEq

/-- What Git says of the change set. Of an untracked file it prints no patch. -/
def changeSet (printed : GitPlan → Bytes) (query : DiffQuery) (requested : Bytes) :
    Except Problem ChangeSet :=
  if query.kind = .untracked then do
    let parsed ← (parseStatus (printed planStatus) statusMaxEntries).mapError
      (parseProblem statusCommand)
    pure { paths := (targetedRecords parsed none).map StatusRecord.path, sections := [] }
  else do
    let args ← diffArguments query
    let changes ← (parseNameStatus (printed (planDiffNameStatus args)) diffMaxEntries).mapError
      (parseProblem nameStatusCommand)
    let parsed ← (parsePatch (printed (planDiffPatchForPath (decodeText requested) args))
      (patchOptions query)).mapError (parseProblem patchCommand)
    pure { paths := changes.map NameStatusEntry.path, sections := parsed.files }

def Shows (patch : FilePatch) : FilePatch → Prop
  | .text hunks _ => ∃ shown, patch = .text shown false ∧ hunks ⊆ shown
  | whole => patch = whole

/-- Whether a patch is built from all sections that are headed by the path. -/
def BuiltFrom (patch : FilePatch) (sections : List ParsedFilePatch) (headed : Nat → Bytes)
    (path : Bytes) : Prop :=
  ∀ place part, sections[place]? = some part → headed place = path →
    Shows patch (filePatchDto part.body)

def Delivered (paths : PathRegistry) (targetGeneration : String) (set : ChangeSet)
    (headed : Nat → Bytes) (requested : Bytes) (files : List DiffFile) : Prop :=
  ∃ file ∈ files, paths.resolve targetGeneration file.pathId = some requested ∧
    file.patch ≠ notRequested ∧ BuiltFrom file.patch set.sections headed requested

/-- The path is among those that are listed, and the first section says all that the sections
for the path say. An untracked file is looked for by its path. -/
def Deliverable (query : DiffQuery) (set : ChangeSet) (headed : Nat → Bytes) (requested : Bytes) :
    Prop :=
  query.kind = .untracked ∨ requested ∈ set.paths.take diffMaxFiles ∧
    ∃ first ∈ set.sections.head?, BuiltFrom (filePatchDto first.body) set.sections headed requested

/-! No section is without a body of its own. -/

namespace Sectioned

structure Available (state : Patch.PatchState) : Prop where
  files : ∀ file ∈ state.files, ∀ reason, file.body ≠ .unavailable reason
  current : ∀ file ∈ state.current, file.unavailableReason = none

theorem unavailableReason_withHeader (file : MutableFile) (header : Patch.Header) :
    (Patch.withHeader file header).unavailableReason = file.unavailableReason := by
  cases header with
  | index value => cases parsed : Patch.parseIndexMode value <;> simp [Patch.withHeader, parsed]
  | subproject value =>
    unfold Patch.withHeader
    dsimp only
    split
    · rfl
    · split <;> rfl
  | _ => rfl

theorem body_ne {file : MutableFile} (available : file.unavailableReason = none) (reason : String) :
    Patch.body file ≠ .unavailable reason := by
  unfold Patch.body
  rw [available]
  dsimp only
  split
  · nofun
  · split
    · nofun
    · split <;> nofun

variable {state : Patch.PatchState}

theorem Available.flushHunk (h : Available state) : Available (Patch.flushHunk state) := by
  unfold Patch.flushHunk
  split
  · next hunk file _ current =>
    refine ⟨h.files, fun flushed member => ?_⟩
    cases member
    exact h.current file current
  · exact ⟨h.files, h.current⟩

theorem Available.flushFile (h : Available state) : Available (Patch.flushFile state) := by
  unfold Patch.flushFile
  split
  · exact h
  · next file current =>
    refine ⟨fun parsed member => ?_, by simp⟩
    rw [List.mem_append, List.mem_singleton] at member
    obtain before | rfl := member
    · exact h.files parsed before
    · exact body_ne (h.current file current)

theorem Available.hunkLine {next : Patch.PatchState} (h : Available state)
    {hunk : Refyard.PatchHunk} {line : List Char}
    (stepped : Patch.hunkLine state hunk line = .ok next) : Available next := by
  unfold Patch.hunkLine at stepped
  split at stepped
  · split at stepped
    · cases stepped
      exact ⟨h.files, h.current⟩
    · cases stepped
  · split at stepped
    · cases stepped
      exact ⟨h.files, h.current⟩
    · cases stepped
      exact h.flushHunk

theorem Available.step {next : Patch.PatchState} (h : Available state) {line : List Char}
    (stepped : Patch.step state line = .ok next) : Available next := by
  unfold Patch.step at stepped
  split at stepped
  · cases stepped
    refine ⟨h.flushHunk.flushFile.files, fun file member => ?_⟩
    cases member
    rfl
  · split at stepped
    · cases stepped
      exact h
    · next file current =>
      split at stepped
      · next header _ =>
        cases stepped
        refine ⟨h.files, fun told member => ?_⟩
        cases member
        rw [unavailableReason_withHeader]
        exact h.current file current
      · split at stepped
        · split at stepped
          · cases stepped
          · cases stepped
            exact ⟨h.flushHunk.files, h.flushHunk.current⟩
        · split at stepped
          · cases stepped
            exact h
          · exact h.hunkLine stepped

theorem Available.run {maxBytes maxLines lineCount : Nat} {lines : List Bytes}
    {last : Patch.PatchState × Bool} (h : Available state)
    (ran : Patch.run maxBytes maxLines lineCount state lines = .ok last) : Available last.1 := by
  induction lines generalizing lineCount state with
  | nil =>
    cases ran
    exact h
  | cons line lines ih =>
    unfold Patch.run at ran
    split at ran
    · cases ran
      exact h
    · obtain ⟨next, stepped, rest⟩ := bind_eq_ok.mp ran
      exact ih (h.step stepped) rest

theorem body_of_parsePatch {bytes : Bytes} {options : ParsePatchOptions}
    {parsed : ParsePatchResult} (h : parsePatch bytes options = .ok parsed) :
    ∀ file ∈ parsed.files, ∀ reason, file.body ≠ .unavailable reason := by
  obtain ⟨⟨state, truncated⟩, ran, ended⟩ := bind_eq_ok.mp h
  have start : Available { files := [], current := none, currentHunk := none } :=
    ⟨by simp, by simp⟩
  have available := start.run ran
  obtain rfl := Except.ok.inj ended
  cases truncated with
  | true => exact available.flushFile.files
  | false => exact available.flushHunk.flushFile.files

end Sectioned

/-! An entry is for the path of its change, and goes on to be. -/

theorem mem_of_forall₂ {α β : Type} {related : α → β → Prop} {entries : List α} {others : List β}
    (all : List.Forall₂ related entries others) :
    (∀ other ∈ others, ∃ entry ∈ entries, related entry other) ∧
      ∀ entry ∈ entries, ∃ other ∈ others, related entry other := by
  induction all with
  | nil => simp
  | cons first _ ih =>
    constructor
    · intro other member
      obtain rfl | behind := List.mem_cons.mp member
      · exact ⟨_, List.mem_cons_self, first⟩
      · obtain ⟨entry, also, holds⟩ := ih.1 other behind
        exact ⟨entry, List.mem_cons_of_mem _ also, holds⟩
    · intro entry member
      obtain rfl | behind := List.mem_cons.mp member
      · exact ⟨_, List.mem_cons_self, first⟩
      · obtain ⟨other, also, holds⟩ := ih.2 entry behind
        exact ⟨other, List.mem_cons_of_mem _ also, holds⟩

structure Grown (before after : PathRegistry) : Prop where
  consistent : after.Consistent "wt_1"
  kept : ∀ onBuild id bytes, before.resolve onBuild id = some bytes →
    after.resolve onBuild id = some bytes

theorem Grown.trans {first second third : PathRegistry} (before : Grown first second)
    (behind : Grown second third) : Grown first third where
  consistent := behind.consistent
  kept onBuild id bytes known := behind.kept onBuild id bytes (before.kept onBuild id bytes known)

structure Describes (targetGeneration : String) (paths : PathRegistry) (path : Bytes)
    (patch : FilePatch) (described : DiffFile × PathRegistry) : Prop where
  grown : Grown paths described.2
  own : described.2.resolve targetGeneration described.1.pathId = some path
  patch : described.1.patch = patch

section
variable {paths : PathRegistry} (consistent : paths.Consistent "wt_1") (targetGeneration : String)
include consistent

theorem grown_bind (bytes : Bytes) : Grown paths (paths.bind "wt_1" targetGeneration bytes).2 where
  consistent := consistent.bind targetGeneration bytes
  kept _ _ _ := consistent.resolve_of_bind targetGeneration bytes

theorem grown_bindOriginal (original : Option Bytes) :
    Grown paths (bindOriginal paths "wt_1" targetGeneration original).2 := by
  cases original with
  | none => exact ⟨consistent, fun _ _ _ => id⟩
  | some bytes => exact grown_bind consistent targetGeneration bytes

theorem describes_changedFile (facts : ChangeFacts) (requested : Option Bytes)
    (change : NameStatusEntry) : Describes targetGeneration paths change.path
      (patchDto (matchedPatch facts.patch requested change.path))
      (changedFile facts requested "wt_1" targetGeneration paths change) := by
  have bound := grown_bind consistent targetGeneration change.path
  have original := grown_bindOriginal bound.consistent targetGeneration change.originalPath
  constructor
  · exact bound.trans original
  · exact original.kept _ _ _ (consistent.resolve_bind targetGeneration change.path)
  · rfl

theorem describes_untrackedFile (disk : Bytes → FoundFile) (canonicalWorktree : String)
    (maxBytes : Nat) (entry : StatusRecord) : Describes targetGeneration paths entry.path
      (synthesizedPatchDto (untrackedPatch disk canonicalWorktree maxBytes entry))
      (untrackedFile disk canonicalWorktree maxBytes "wt_1" targetGeneration paths entry) where
  grown := grown_bind consistent targetGeneration entry.path
  own := consistent.resolve_bind targetGeneration entry.path
  patch := rfl

theorem describeAll_forall₂ {α : Type} {describe : PathRegistry → α → DiffFile × PathRegistry}
    {pathOf : α → Bytes} {patchOf : α → FilePatch}
    (each : ∀ {paths : PathRegistry}, paths.Consistent "wt_1" → ∀ entry,
      Describes targetGeneration paths (pathOf entry) (patchOf entry) (describe paths entry))
    (entries : List α) :
    Grown paths (describeAll describe paths entries).2 ∧ List.Forall₂ (fun entry file =>
        (describeAll describe paths entries).2.resolve targetGeneration file.pathId =
          some (pathOf entry) ∧ file.patch = patchOf entry)
        entries (describeAll describe paths entries).1 := by
  induction entries generalizing paths with
  | nil => exact ⟨⟨consistent, fun _ _ _ => id⟩, .nil⟩
  | cons entry rest ih =>
    have first := each consistent entry
    obtain ⟨grown, others⟩ := ih first.grown.consistent
    exact ⟨first.grown.trans grown, .cons ⟨grown.kept _ _ _ first.own, first.patch⟩ others⟩

theorem exists_described_iff {α : Type} {describe : PathRegistry → α → DiffFile × PathRegistry}
    {pathOf : α → Bytes} {patchOf : α → FilePatch} (test : FilePatch → Prop)
    (each : ∀ {paths : PathRegistry}, paths.Consistent "wt_1" → ∀ entry,
      Describes targetGeneration paths (pathOf entry) (patchOf entry) (describe paths entry))
    {entries : List α} {path : Bytes} :
    (∃ file ∈ (describeAll describe paths entries).1,
      (describeAll describe paths entries).2.resolve targetGeneration file.pathId = some path ∧
        test file.patch) ↔ ∃ entry ∈ entries, pathOf entry = path ∧ test (patchOf entry) := by
  have all := (describeAll_forall₂ consistent targetGeneration each entries).2
  constructor
  · rintro ⟨file, member, own, holds⟩
    obtain ⟨entry, also, described, patch⟩ := (mem_of_forall₂ all).1 file member
    rw [described, Option.some_inj] at own
    exact ⟨entry, also, own, patch ▸ holds⟩
  · rintro ⟨entry, member, rfl, holds⟩
    obtain ⟨file, also, described, patch⟩ := (mem_of_forall₂ all).2 entry member
    exact ⟨file, also, described, patch ▸ holds⟩

end

/-! What the read finds. -/

section
variable {printed : GitPlan → Bytes} {target : ReadTarget} {query : DiffQuery} {requested : Bytes}

theorem yields_printing {plan : GitPlan} {name : String} {bytes : Bytes} :
    (runRequired target plan name).Yields (Printing printed) bytes ↔ bytes = printed plan := by
  rw [yields_runRequired]
  constructor
  · rintro ⟨answer, prints, read⟩
    exact prints name bytes read
  · rintro rfl
    refine ⟨finishedWith 0 (printed plan), fun other bytes read => ?_, rfl⟩
    exact (Except.ok.inj read).symm

theorem yields_readChanges (tracked : query.kind ≠ .untracked) {set : ChangeSet}
    (told : changeSet printed query requested = .ok set) {facts : ChangeFacts}
    (read : (readChanges target query (some requested)).Yields (Printing printed) facts) :
    facts.changes.map NameStatusEntry.path = set.paths ∧ facts.patch = set.sections.head? ∧
      ∀ file ∈ set.sections, ∀ reason, file.body ≠ .unavailable reason := by
  unfold readChanges at read
  simp only [readPatch, yields_bind, yields_printing, yields_orLeave, mapError_eq_ok,
    exists_eq_left, pure_eq, yields_done] at read
  obtain ⟨args, argued, changes, changed, stats, -, ⟨patch, truncated⟩, ⟨parsed, parses, kept⟩,
    rfl⟩ := read
  unfold changeSet at told
  rw [if_neg tracked] at told
  obtain ⟨_, argued', told⟩ := bind_eq_ok.mp told
  cases argued.symm.trans argued'
  obtain ⟨_, changed', told⟩ := bind_eq_ok.mp told
  obtain ⟨_, parses', told⟩ := bind_eq_ok.mp told
  rw [mapError_eq_ok] at changed' parses'
  cases changed.symm.trans changed'
  cases parses.symm.trans parses'
  obtain rfl := Except.ok.inj told
  exact ⟨rfl, (congrArg Prod.fst kept).symm, Sectioned.body_of_parsePatch parses⟩

end

theorem patchDto_matched {sections : List ParsedFilePatch} {requested path : Bytes}
    (available : ∀ file ∈ sections, ∀ reason, file.body ≠ .unavailable reason) :
    patchDto (matchedPatch sections.head? (some requested) path) ≠ notRequested ↔
      requested = path ∧ sections.head?.isSome := by
  cases sections with
  | nil => simp [matchedPatch, patchDto]
  | cons first rest =>
    by_cases own : requested = path
    · simp only [matchedPatch, own, List.head?_cons, if_true, patchDto, Option.isSome_some,
        true_and, iff_true]
      intro same
      have shown := available first List.mem_cons_self
      revert same
      cases body : first.body with
      | unavailable reason => exact absurd body (shown reason)
      | _ => nofun
    · simp [matchedPatch, own, patchDto]

theorem dto_untrackedPatch_ne (disk : Bytes → FoundFile) (canonicalWorktree : String)
    (maxBytes : Nat) (entry : StatusRecord) :
    synthesizedPatchDto (untrackedPatch disk canonicalWorktree maxBytes entry) ≠ notRequested := by
  unfold untrackedPatch synthesizeUntrackedPatch notRequested
  dsimp only
  repeat' split
  all_goals simp [synthesizedPatchDto]

theorem builtFrom_nil (patch : FilePatch) (headed : Nat → Bytes) (path : Bytes) :
    BuiltFrom patch [] headed path := by
  intro place part found
  rw [List.getElem?_nil] at found
  cases found

section
variable (request : OpenRequest) (repositoryId : String) (executor : GitExecutor)
  (disk : Bytes → FoundFile) (snapshots : SnapshotStore) (reads : List PathRead) (query : DiffQuery)
  (moment : ReadMoment)

def registered : ReadTarget := ⟨(buildRecord request repositoryId).settled, executor⟩

def boundBy (reads : List PathRead) : PathRegistry := (BoundPaths.binding.after {} reads).registry

def diffAfter : DiffRead (DiffResponse × DiffState) :=
  readDiff (registered request repositoryId executor) disk ⟨snapshots, boundBy reads⟩ query moment

variable {request repositoryId executor disk snapshots reads query moment}
variable {printed : GitPlan → Bytes} {pathId : String} {requested : Bytes}
  {answer : DiffResponse × DiffState}

theorem requestedPath_of_resolve (asked : query.pathId = some pathId) {paths : PathRegistry}
    {targetGeneration : String} (bound : paths.resolve targetGeneration pathId = some requested)
    {found : Option Bytes} (resolved : requestedPath paths targetGeneration query = .ok found) :
    found = some requested := by
  unfold requestedPath at resolved
  rw [asked] at resolved
  dsimp only at resolved
  rw [bound] at resolved
  dsimp only at resolved
  split at resolved
  · cases resolved
  · exact (Except.ok.inj resolved).symm

theorem yields_diffAfter (asked : query.pathId = some pathId)
    (bound : (boundBy reads).resolve request.targetGeneration pathId = some requested)
    (answered : (diffAfter request repositoryId executor disk snapshots reads query moment).Yields
      (Printing printed) answer) :
    ∃ snapshots' head, head.worktreeId = "wt_1" ∧ (if query.kind = .untracked then
        untrackedDiff (registered request repositoryId executor) disk ⟨snapshots', boundBy reads⟩
          query head (some requested)
      else
        trackedDiff (registered request repositoryId executor) ⟨snapshots', boundBy reads⟩ query
          head (some requested)).Yields (Printing printed) answer := by
  unfold diffAfter readDiff at answered
  simp only [leaving, yields_bind, yields_mapExit, yields_orLeave] at answered
  obtain ⟨worktreeId, addressed, -, -, found, resolved, rest⟩ := answered
  obtain rfl := requestedPath_of_resolve asked bound resolved
  refine ⟨_, _, ?_, rest⟩
  unfold requireWorktree at addressed
  split at addressed
  · exact (Except.ok.inj addressed).symm
  · split at addressed
    · exact (Except.ok.inj addressed).symm
    · cases addressed

variable {set : ChangeSet}

theorem delivered_untracked (untracked : query.kind = .untracked)
    (told : changeSet printed query requested = .ok set) (named : requested ∈ set.paths)
    (headed : Nat → Bytes) {head : ResponseHead} (worktree : head.worktreeId = "wt_1")
    (answered : (untrackedDiff (registered request repositoryId executor) disk
      ⟨snapshots, boundBy reads⟩ query head (some requested)).Yields (Printing printed) answer) :
    Delivered answer.2.paths request.targetGeneration set headed requested answer.1.files := by
  unfold untrackedDiff at answered
  simp only [leaving, yields_bind, yields_mapExit, yields_printing, yields_orLeave, mapError_eq_ok,
    exists_eq_left, pure_eq, yields_done] at answered
  obtain ⟨parsed, parses, rfl⟩ := answered
  unfold changeSet at told
  rw [if_pos untracked] at told
  obtain ⟨_, parses', told⟩ := bind_eq_ok.mp told
  rw [mapError_eq_ok] at parses'
  cases parses.symm.trans parses'
  obtain rfl := Except.ok.inj told
  obtain ⟨entry, member, own⟩ := List.mem_map.mp named
  have targeted : entry ∈ targetedRecords parsed (some requested) :=
    List.mem_filter.mpr ⟨member, decide_eq_true own⟩
  obtain ⟨first, rest, found⟩ := List.exists_cons_of_ne_nil (List.ne_nil_of_mem targeted)
  have same : first.path = requested := by
    have among : first ∈ targetedRecords parsed (some requested) := found ▸ List.mem_cons_self
    exact of_decide_eq_true (List.mem_filter.mp among).2
  refine (exists_described_iff (BoundPaths.consistent_after reads) request.targetGeneration
    (fun patch => patch ≠ notRequested ∧ BuiltFrom patch [] headed requested)
    (fun consistent entry => worktree ▸ describes_untrackedFile consistent request.targetGeneration
      disk _ _ entry)).mpr
    ⟨first, ?_, same, dto_untrackedPatch_ne disk _ _ first, builtFrom_nil _ headed requested⟩
  rw [found]
  exact List.mem_cons_self

theorem delivered_tracked (tracked : query.kind ≠ .untracked)
    (told : changeSet printed query requested = .ok set) (headed : Nat → Bytes)
    {head : ResponseHead} (worktree : head.worktreeId = "wt_1")
    (answered : (trackedDiff (registered request repositoryId executor) ⟨snapshots, boundBy reads⟩
      query head (some requested)).Yields (Printing printed) answer) :
    Delivered answer.2.paths request.targetGeneration set headed requested answer.1.files ↔
      requested ∈ set.paths.take diffMaxFiles ∧ ∃ first ∈ set.sections.head?,
        BuiltFrom (filePatchDto first.body) set.sections headed requested := by
  unfold trackedDiff at answered
  simp only [leaving, yields_bind, yields_mapExit, pure_eq, yields_done] at answered
  obtain ⟨facts, read, rfl⟩ := answered
  obtain ⟨paths, patch, available⟩ := yields_readChanges tracked told read
  refine (exists_described_iff (BoundPaths.consistent_after reads) request.targetGeneration
    (fun patch => patch ≠ notRequested ∧ BuiltFrom patch set.sections headed requested)
    (fun consistent change => worktree ▸ describes_changedFile consistent request.targetGeneration
      facts (some requested) change)).trans ?_
  rw [← paths, patch, ← List.map_take]
  constructor
  · rintro ⟨change, member, rfl, shown, built⟩
    obtain ⟨-, some_first⟩ := (patchDto_matched available).mp shown
    obtain ⟨first, found⟩ := Option.isSome_iff_exists.mp some_first
    refine ⟨List.mem_map_of_mem member, first, found, ?_⟩
    rw [found] at built
    simpa [matchedPatch, patchDto] using built
  · rintro ⟨listed, first, found, built⟩
    obtain ⟨change, member, rfl⟩ := List.mem_map.mp listed
    refine ⟨change, member, rfl, (patchDto_matched available).mpr ⟨rfl, ?_⟩, ?_⟩
    · rw [Option.mem_def.mp found]
      rfl
    · rw [Option.mem_def.mp found]
      simpa [matchedPatch, patchDto] using built

/-- A requested patch is delivered exactly where the path is among the files that are listed and
the first section of the patch is all there is for it. -/
theorem requested_patch_delivered_iff (headed : Nat → Bytes) (asked : query.pathId = some pathId)
    (bound : (boundBy reads).resolve request.targetGeneration pathId = some requested)
    {set : ChangeSet} (told : changeSet printed query requested = .ok set)
    (named : requested ∈ set.paths)
    (answered : (diffAfter request repositoryId executor disk snapshots reads query moment).Yields
      (Printing printed) answer) :
    Delivered answer.2.paths request.targetGeneration set headed requested answer.1.files ↔
      Deliverable query set headed requested := by
  obtain ⟨snapshots', head, worktree, rest⟩ := yields_diffAfter asked bound answered
  by_cases untracked : query.kind = .untracked
  · rw [if_pos untracked] at rest
    exact iff_of_true (delivered_untracked untracked told named headed worktree rest)
      (.inl untracked)
  · rw [if_neg untracked] at rest
    rw [delivered_tracked untracked told headed worktree rest, Deliverable, or_iff_right untracked]

theorem exists_answer (asked : query.pathId = some pathId) (whole : query.worktreeId = none)
    (unbounded : query.maxBytes = none) (tracked : query.kind ≠ .untracked)
    (bound : (boundBy reads).resolve request.targetGeneration pathId = some requested)
    {chars : List Char} (text : Utf8.decodeStrict requested = some chars) {args : DiffArguments}
    (argued : diffArguments query = .ok args) (told : changeSet printed query requested = .ok set)
    {stats : List NumstatEntry}
    (counted : parseNumstat (printed (planDiffNumstat args)) diffMaxEntries = .ok stats) :
    ∃ answer, (diffAfter request repositoryId executor disk snapshots reads query moment).Yields
      (Printing printed) answer := by
  have found : requestedPath (boundBy reads) request.targetGeneration query =
      .ok (some requested) := by
    simp [requestedPath, asked, bound, text]
  unfold changeSet at told
  rw [if_neg tracked] at told
  obtain ⟨_, argued', told⟩ := bind_eq_ok.mp told
  cases argued.symm.trans argued'
  obtain ⟨changes, changed, told⟩ := bind_eq_ok.mp told
  obtain ⟨parsed, parses, -⟩ := bind_eq_ok.mp told
  rw [mapError_eq_ok] at changed parses
  unfold diffAfter readDiff
  simp only [leaving, yields_bind, yields_mapExit, yields_orLeave]
  apply Exists.intro
  refine ⟨"wt_1", by rw [whole]; rfl, (), by rw [checkMaxBytes, unbounded], some requested, found, ?_⟩
  rw [if_neg tracked]
  unfold trackedDiff readChanges
  simp only [leaving, readPatch, yields_bind, yields_mapExit, yields_printing, yields_orLeave,
    mapError_eq_ok, exists_eq_left, pure_eq, yields_done]
  exact ⟨_, ⟨args, argued, changes, changed, stats, counted, _, ⟨parsed, parses, rfl⟩, rfl⟩, rfl⟩

end

section
open Registrations

/-- A file that became a symbolic link. Git prints its removal and its addition. -/
def typeChange (plan : GitPlan) : Bytes :=
  asciiBytes (if plan.argv.contains "--name-status" then "T\x00a\x00"
    else if plan.argv.contains "--numstat" then "1\t1\ta\x00"
    else
      "diff --git a/a b/a\ndeleted file mode 100644\n--- a/a\n+++ /dev/null\n@@ -1 +0,0 @@\n-x\ndiff --git a/a b/a\nnew file mode 120000\n--- /dev/null\n+++ b/a\n@@ -0,0 +1 @@\n+y\n")

def removedHunk : Refyard.PatchHunk where
  header := "@@ -1 +0,0 @@"
  oldStart := 1
  oldLines := 1
  newStart := 0
  newLines := 0
  lines := [{ kind := .remove, text := "x", noNewline := false }]

def addedHunk : Refyard.PatchHunk where
  header := "@@ -0,0 +1 @@"
  oldStart := 0
  oldLines := 0
  newStart := 1
  newLines := 1
  lines := [{ kind := .add, text := "y", noNewline := false }]

def ofTypeChange : ChangeSet where
  paths := [[0x61]]
  sections :=
    [{ headerPaths := { old := some "a", new := some "/dev/null" }, oldMode := some "100644",
       newMode := none, isNew := false, isDeleted := true, isRename := false, similarity := none,
       body := .text [removedHunk] },
     { headerPaths := { old := some "/dev/null", new := some "a" }, oldMode := none,
       newMode := some "120000", isNew := true, isDeleted := false, isRename := false,
       similarity := none, body := .text [addedHunk] }]

def typeChangeQuery : DiffQuery where
  repositoryId := "repo_1"
  kind := .unstaged
  pathId := some (mintedPathId 1)

def typeChangeReads : List PathRead := [⟨exampleRequest "/repo" "gen_1", "repo_1", [0x61]⟩]

def typeChangeRead : DiffRead (DiffResponse × DiffState) :=
  diffAfter (exampleRequest "/repo" "gen_1") "repo_1" .onThisMachine (fun _ => .missing) {}
    typeChangeReads typeChangeQuery ⟨"gen_1", 0, ""⟩

theorem changeSet_typeChange : changeSet typeChange typeChangeQuery [0x61] = .ok ofTypeChange := by
  unfold typeChange
  simp only [apply_ite asciiBytes]
  rw [asciiBytes_ofList, asciiBytes_ofList, asciiBytes_ofList]
  decide +kernel

theorem resolve_typeChange :
    (boundBy typeChangeReads).resolve "gen_1" (mintedPathId 1) = some [0x61] :=
  (PathRegistry.consistent_empty "wt_1").resolve_bind "gen_1" [0x61]

theorem exists_answer_typeChange :
    ∃ answer, typeChangeRead.Yields (Printing typeChange) answer := by
  have text : Utf8.decodeStrict [0x61] = some ['a'] := Utf8.decodeStrict_eq_some.mpr rfl
  have counted : parseNumstat (typeChange (planDiffNumstat ⟨false, none, none⟩)) diffMaxEntries =
      .ok [⟨some 1, some 1, [0x61], none, false⟩] := by
    decide +kernel
  exact exists_answer rfl rfl rfl nofun resolve_typeChange text rfl changeSet_typeChange counted

theorem not_deliverable_typeChange :
    ¬Deliverable typeChangeQuery ofTypeChange (fun _ => [0x61]) [0x61] := by
  rintro (untracked | ⟨-, first, found, built⟩)
  · cases untracked
  · cases found
    obtain ⟨shown, same, held⟩ := built 1 _ rfl rfl
    cases same
    have among := held List.mem_cons_self
    revert among
    decide +kernel

/-- The file's entry is there, and the addition of the link is not in its patch. -/
theorem not_delivered_typeChange : ∃ answer, typeChangeRead.Yields (Printing typeChange) answer ∧
      changeSet typeChange typeChangeQuery [0x61] = .ok ofTypeChange ∧ [0x61] ∈ ofTypeChange.paths ∧
      ¬Delivered answer.2.paths "gen_1" ofTypeChange (fun _ => [0x61]) [0x61] answer.1.files := by
  obtain ⟨answer, answered⟩ := exists_answer_typeChange
  obtain ⟨snapshots', head, worktree, rest⟩ := yields_diffAfter rfl resolve_typeChange answered
  refine ⟨answer, answered, changeSet_typeChange, by decide, fun delivered =>
    not_deliverable_typeChange ?_⟩
  exact .inr ((delivered_tracked (by decide) changeSet_typeChange _ worktree rest).mp delivered)

theorem requested_patch_typeChange : ∃ answer, typeChangeRead.Yields (Printing typeChange) answer ∧
      (Delivered answer.2.paths "gen_1" ofTypeChange (fun _ => [0x61]) [0x61] answer.1.files ↔
        Deliverable typeChangeQuery ofTypeChange (fun _ => [0x61]) [0x61]) := by
  obtain ⟨answer, answered⟩ := exists_answer_typeChange
  exact ⟨answer, answered, requested_patch_delivered_iff (fun _ => [0x61]) rfl resolve_typeChange
    changeSet_typeChange (by decide) answered⟩

end

end Refyard.Diff
