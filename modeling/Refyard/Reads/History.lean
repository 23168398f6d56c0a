import Refyard.Core.Objects
import Refyard.Foundation.Possible
import Refyard.Reads.RefFacts
import Refyard.Snapshots

/-! One page of the commit graph. A page is served from a snapshot, the tips it started
with; a cursor walks those same tips on, whatever the refs have become meanwhile. -/
namespace Refyard
open Snapshots Interaction

def revListCommand : String := "rev-list topology"

def catFileCommand : String := "cat-file --batch"

def catFileCheckCommand : String := "cat-file --batch-check"

/-- `LIMITS.historyDefaultPageSize`. -/
def historyDefaultPageSize : Nat := 200

/-- `LIMITS.historyMaxPageSize`. -/
def historyMaxPageSize : Nat := 500

structure CommitSummary where
  oid : String
  parents : List String
  subject : String
  authorName : String
  authorEmail : String
  authoredAt : String
  committedAt : String
  refNames : List String
  signed : Bool
  boundary : Bool
  missingParents : List String

structure CommitDetail where
  oid : String
  parents : List String
  treeOid : String
  authorName : String
  authorEmail : String
  authoredAt : String
  committerName : String
  committerEmail : String
  committedAt : String
  subject : String
  body : String
  encoding : Option String
  signed : Bool

structure HistoryPage where
  snapshotId : String
  repositoryId : String
  readAt : String
  objectFormat : Registration.ObjectFormat
  shallow : Bool
  topology : Topology
  commits : List CommitSummary
  nextCursor : Option String
  tipsMoved : Bool
  truncated : Bool
  detail : Option CommitDetail

structure HistoryQuery where
  repositoryId : String
  worktreeId : Option String := none
  cursor : Option String := none
  limit : Option Nat := none
  detailOid : Option String := none
  firstParentOnly : Option Bool := none
  message : Option String := none
  author : Option String := none
  oidPrefix : Option String := none
  refFullName : Option String := none
  committedAfter : Option String := none
  committedBefore : Option String := none
  pathId : Option String := none

/-- The filters a continuation may not redefine. This build implements none of them. -/
def historyFilters : List (String × (HistoryQuery → Bool)) :=
  [("message", fun query => query.message.isSome), ("author", fun query => query.author.isSome),
   ("oidPrefix", fun query => query.oidPrefix.isSome),
   ("refFullName", fun query => query.refFullName.isSome),
   ("committedAfter", fun query => query.committedAfter.isSome),
   ("committedBefore", fun query => query.committedBefore.isSome),
   ("pathId", fun query => query.pathId.isSome)]

def HistoryQuery.filters (query : HistoryQuery) : List String :=
  (historyFilters.filter fun filter => filter.2 query).map Prod.fst

def validateFilters (query : HistoryQuery) : Except Problem Unit :=
  if query.filters.isEmpty then .ok ()
  else
    .error ((Problem.new .unsupportedOperation
      ("this build does not implement the " ++ ", ".intercalate query.filters ++
        " history filter(s) yet; remove them rather than receiving an unfiltered page")).withDetail
      "filters" (.text (",".intercalate query.filters)))

def validateNewQuery (query : HistoryQuery) : Except Problem Unit :=
  match query.limit with
  | none => validateFilters query
  | some limit =>
      if limit = 0 ∨ historyMaxPageSize < limit then
        .error ((Problem.new .invalidRequest
          s!"a history page is between 1 and {historyMaxPageSize} commits").withDetail
          "limit" (.integer limit))
      else validateFilters query

def unavailableCursor {α : Type} (code : ProblemCode) : Except Problem α :=
  .error (.new code "that cursor is unavailable; reload history")

def expiredPage {α : Type} : Except Problem α :=
  .error (.new .staleSnapshot "that page's snapshot has expired; reload history")

def checkContinued (query : HistoryQuery) (targetGeneration : String) (limit : Nat)
    (snapshot : Snapshots.SnapshotRecord) : Except Problem Unit :=
  match snapshot.historyIntent with
  | none => expiredPage
  | some intent =>
      if snapshot.kind ≠ .history then expiredPage
      else if snapshot.targetGeneration ≠ targetGeneration then
        .error ((Problem.new .staleSnapshot
          "that cursor was minted for an earlier build of this execution target; reload history").withDetail
          "targetGeneration" (.text targetGeneration))
      else if query.limit.any (· ≠ limit) || query.firstParentOnly.any (· ≠ intent.firstParentOnly) then
        .error (.new .invalidRequest "page size and first-parent mode are owned by the cursor")
      else .ok ()

/-- Resolves a cursor into the page size, the snapshot and the offset it continues. -/
def resolveContinuation (snapshots : SnapshotState) (query : HistoryQuery)
    (repositoryId worktreeId cursor targetGeneration : String) :
    Except Problem (Nat × Snapshots.SnapshotRecord × Nat) :=
  match snapshots.resolveCursor cursor with
  | .malformed => unavailableCursor .invalidRequest
  | .unknown | .expired => unavailableCursor .staleSnapshot
  | .resolved snapshotId skip limit _ =>
      match query.filters.head? with
      | some filter =>
          .error ((Problem.new .invalidRequest
            "a cursor continuation cannot redefine history filters").withDetail
            "filter" (.text filter))
      | none =>
          match snapshots.cursorRepository cursor with
          | none => unavailableCursor .staleSnapshot
          | some (cursorRepository, cursorWorktree) =>
              if cursorRepository ≠ repositoryId ∨ cursorWorktree ≠ some worktreeId then
                .error (.new .forbidden "that cursor belongs to a different repository or worktree")
              else
                match snapshots.get snapshotId with
                | none => expiredPage
                | some snapshot =>
                    (checkContinued query targetGeneration limit snapshot).map fun _ =>
                      (limit, snapshot, skip)

def decodeText (bytes : Bytes) : String := String.ofList (Utf8.decode bytes)

def firstLineBytes (messageBytes : Bytes) : Bytes := messageBytes.takeWhile fun byte => byte ≠ 0x0a

def isoSeconds (seconds : Int) : String :=
  formatIso8601Millis (max (-(2 ^ 63)) (min (2 ^ 63 - 1) (seconds * 1000)))

/-- The bodies of a batch by the name Git reported, and the names it could not produce. -/
structure CommitBodies where
  bodies : String → Option CommitObject := fun _ => none
  missing : List String := []

def notACommit {α : Type} (oid : String) (objectType : CatFileObjectType) : Except Problem α :=
  .error (.new .internalError s!"{oid} is a {objectType.asStr}, not a commit")

def commitOf (oid : String) (objectType : CatFileObjectType) (body : Bytes) :
    Except Problem CommitObject :=
  if objectType ≠ .commit then notACommit oid objectType
  else (parseCommitObject body).mapError (parseProblem catFileCommand)

def collectBody (found : CommitBodies) : CatFileEntry → Except Problem CommitBodies
  | .missing input => .ok { found with missing := found.missing ++ [input] }
  | .object oid objectType body =>
      (commitOf oid objectType body).map fun commit =>
        { found with bodies := Function.update found.bodies oid (some commit) }

def runCatFile (target : ReadTarget) (objectNames : List String) : Read (List CatFileEntry) := do
  let plan ← .orLeave ((planCatFileBatch objectNames).mapError (parseProblem catFileCommand))
  let bytes ← runRequired target plan catFileCommand
  .orLeave ((decodeChunks [bytes]).mapError (parseProblem catFileCommand))

/-- Which of these names Git cannot produce. A name that was not answered counts. -/
def findMissingObjects (target : ReadTarget) (oids : List String) : Read (List String) :=
  if oids.isEmpty then .done []
  else do
    let bounded := oids.take refListMaxEntries
    let plan ← .orLeave ((planCatFileExists bounded).mapError (parseProblem catFileCheckCommand))
    let bytes ← runRequired target plan catFileCheckCommand
    let presence ← .orLeave ((parseObjectPresence bytes bounded).mapError
      (parseProblem catFileCheckCommand))
    pure (bounded.filter fun oid => oid ∉ presence.present ∨ oid ∈ presence.missing)

def parentsOf (bodies : String → Option CommitObject) (row : TopologyEntry) : List String :=
  match bodies row.oid with
  | some body => body.parentOids
  | none => row.parentOids

def outsideOf (bodies : String → Option CommitObject) (rows : List TopologyEntry) : List String :=
  (rows.flatMap (parentsOf bodies)).foldl (fun outside parent =>
    if rows.any (fun row => row.oid = parent) || outside.contains parent then outside
    else outside ++ [parent]) []

def summaryOf (bodies : String → Option CommitObject) (absent : List String)
    (decoration : String → List String) (row : TopologyEntry) : Except Problem CommitSummary :=
  match bodies row.oid with
  | none => .error (.new .internalError s!"the page named {row.oid} but no body came back for it")
  | some body =>
      let parents := parentsOf bodies row
      let missingParents := parents.filter fun parent => parent ∈ absent
      .ok
        { oid := row.oid
          parents
          subject := decodeText (firstLineBytes body.messageBytes)
          authorName := decodeText body.author.nameBytes
          authorEmail := decodeText body.author.emailBytes
          authoredAt := isoSeconds body.author.timestamp
          committedAt := isoSeconds body.committer.timestamp
          refNames := decoration row.oid
          signed := body.signed
          boundary := row.boundary || !missingParents.isEmpty
          missingParents }

structure PageRows where
  commits : List CommitSummary
  missing : List String
  rowCount : Nat

def readPage (target : ReadTarget) (tips : List String) (maxCount skip : Nat)
    (firstParentOnly : Bool) (decoration : String → List String) : Read PageRows := do
  let plan ← .orLeave ((planRevList { tips, maxCount, skip, firstParentOnly }).mapError
    (parseProblem revListCommand))
  let topologyBytes ← runRequired target plan revListCommand
  let rows ← .orLeave ((parseRevListTopology topologyBytes).mapError (parseProblem revListCommand))
  if rows.isEmpty then pure { commits := [], missing := [], rowCount := 0 }
  else do
    let entries ← runCatFile target (rows.map TopologyEntry.oid)
    let found ← .orLeave (entries.foldlM collectBody {})
    let absent ← findMissingObjects target (outsideOf found.bodies rows)
    let commits ← .orLeave (rows.mapM (summaryOf found.bodies absent decoration))
    pure { commits, missing := found.missing, rowCount := rows.length }

def collectDetail (found : List String × Option (String × CommitObject)) :
    CatFileEntry → Except Problem (List String × Option (String × CommitObject))
  | .missing input => .ok (found.1 ++ [input], found.2)
  | .object oid objectType body =>
      (commitOf oid objectType body).map fun commit => (found.1, some (oid, commit))

def detailOf (oid : String) (found : List String × Option (String × CommitObject)) :
    Except Problem CommitDetail :=
  match found with
  | (missing, none) =>
      let problem := (Problem.new .notFound
        s!"commit {oid} is not present in this repository").withDetail "oid" (.text oid)
      .error (if missing.isEmpty then problem
        else problem.withDetail "missing" (.text (",".intercalate missing)))
  | (_, some (resolvedOid, body)) =>
      .ok
        { oid := resolvedOid
          parents := body.parentOids
          treeOid := body.treeOid
          authorName := decodeText body.author.nameBytes
          authorEmail := decodeText body.author.emailBytes
          authoredAt := isoSeconds body.author.timestamp
          committerName := decodeText body.committer.nameBytes
          committerEmail := decodeText body.committer.emailBytes
          committedAt := isoSeconds body.committer.timestamp
          subject := decodeText (firstLineBytes body.messageBytes)
          body := decodeText body.messageBytes
          encoding := body.encoding
          signed := body.signed }

def readCommitDetail (target : ReadTarget) (oid : String) : Read CommitDetail := do
  let entries ← runCatFile target [oid]
  let found ← .orLeave (entries.foldlM collectDetail ([], none))
  .orLeave (detailOf oid found)

structure SnapshotStore where
  state : SnapshotState := {}
  ttlMs : Nat := 30 * 60 * 1000
  maxEntries : Nat := 4096

def SnapshotStore.mint (store : SnapshotStore) (now : Nat) (request : SnapshotRequest) :
    Snapshots.SnapshotRecord × SnapshotStore :=
  let (snapshot, state) := store.state.mint store.ttlMs store.maxEntries now request
  (snapshot, { store with state })

def SnapshotStore.mintCursor (store : SnapshotStore) (snapshot : Snapshots.SnapshotRecord)
    (skip limit : Nat) : String × SnapshotStore :=
  let (cursor, state) := store.state.mintCursor snapshot skip limit
  (cursor, { store with state })

abbrev StoredRead := Interaction GitCommand GitAnswer (Problem × SnapshotStore)

def keeping {α : Type} (store : SnapshotStore) (program : Read α) : StoredRead α :=
  program.mapExit fun problem => (problem, store)

structure ReadMoment where
  targetGeneration : String
  nowMs : Nat
  readAt : String

def addressed (record : Registration.RepositoryRecord) : Registry.RepositoryRecord where
  repositoryId := record.repositoryId
  worktreeId := record.worktreeId
  displayPath := record.displayPath
  layout := { isBare := record.layout.isBare }
  location :=
    { targetId := record.location.targetId
      targetGeneration := record.location.targetGeneration
      canonicalWorktree := record.location.canonicalWorktree }

/-- Every filter that is served narrows the walk itself, so a page is always continuous. -/
def historySnapshot (target : ReadTarget) (query : HistoryQuery) (worktreeId : String)
    (moment : ReadMoment) (facts : RefFacts) (head : HeadState) : SnapshotRequest where
  kind := .history
  repositoryId := target.record.repositoryId
  worktreeId := some worktreeId
  targetGeneration := moment.targetGeneration
  tips := collectTips head facts.refs
  headOid := head.oid
  observedRefsFingerprint := some (observedRefsFingerprint head facts.refs)
  indexKey := none
  historyIntent := some
    { firstParentOnly := query.firstParentOnly == some true, topology := .continuous }

/-- The page size, the snapshot and the offset of a page, and the store it leaves. -/
structure PageStart where
  limit : Nat
  snapshot : Snapshots.SnapshotRecord
  skip : Nat
  store : SnapshotStore

def startPage (target : ReadTarget) (store : SnapshotStore) (query : HistoryQuery)
    (worktreeId : String) (moment : ReadMoment) : StoredRead PageStart :=
  match query.cursor with
  | some cursor => do
      let (limit, snapshot, skip) ← keeping store (.orLeave (resolveContinuation store.state query
        target.record.repositoryId worktreeId cursor moment.targetGeneration))
      pure { limit, snapshot, skip, store }
  | none => do
      keeping store (.orLeave (validateNewQuery query))
      let facts ← keeping store (readRefFacts target)
      let head ← keeping store (readHeadState target)
      let (snapshot, store) := store.mint moment.nowMs
        (historySnapshot target query worktreeId moment facts head)
      pure { limit := query.limit.getD historyDefaultPageSize, snapshot, skip := 0, store }

def intentOf (snapshot : Snapshots.SnapshotRecord) : Except Problem HistoryIntent :=
  match snapshot.historyIntent with
  | some intent => .ok intent
  | none => .error (.new .internalError "history snapshot has no normalized intent")

def finishPage (target : ReadTarget) (start : PageStart) (intent : HistoryIntent)
    (moment : ReadMoment) (tipsMoved : Bool) (detail : Option CommitDetail) (rows : PageRows) :
    HistoryPage × SnapshotStore :=
  let hasMore := start.limit < rows.rowCount
  let commits := rows.commits.take start.limit
  let (nextCursor, store) :=
    if hasMore then
      let (cursor, store) :=
        start.store.mintCursor start.snapshot (start.skip + commits.length) start.limit
      (some cursor, store)
    else (none, start.store)
  ({ snapshotId := start.snapshot.snapshotId
     repositoryId := target.record.repositoryId
     readAt := moment.readAt
     objectFormat := Registration.objectFormatOf target.record
     shallow := target.record.layout.isShallow
     topology := intent.topology
     commits
     nextCursor
     tipsMoved
     truncated := hasMore || !rows.missing.isEmpty
     detail }, store)

def readDetail (target : ReadTarget) (query : HistoryQuery) : Read (Option CommitDetail) :=
  match query.detailOid with
  | some oid => do
      let detail ← readCommitDetail target oid
      pure (some detail)
  | none => .done none

/-- No tip means an unborn repository: an empty page, not a failure to read one. -/
def readRows (target : ReadTarget) (start : PageStart) (intent : HistoryIntent)
    (decoration : String → List String) : Read PageRows :=
  if start.snapshot.tips.isEmpty then .done { commits := [], missing := [], rowCount := 0 }
  else
    readPage target start.snapshot.tips (start.limit + 1) start.skip intent.firstParentOnly decoration

/-- Reads one page of history. The refs are read again for the decoration and for
`tipsMoved`. -/
def readHistory (target : ReadTarget) (store : SnapshotStore) (query : HistoryQuery)
    (moment : ReadMoment) : StoredRead (HistoryPage × SnapshotStore) := do
  let worktreeId ← keeping store
    (.orLeave (requireWorktree (addressed target.record) query.worktreeId))
  let start ← startPage target store query worktreeId moment
  let intent ← keeping start.store (.orLeave (intentOf start.snapshot))
  let facts ← keeping start.store (readRefFacts target)
  let head ← keeping start.store (readHeadState target)
  let observed := observedRefsFingerprint head facts.refs
  let tipsMoved := start.snapshot.observedRefsFingerprint != some observed
  let detail ← keeping start.store (readDetail target query)
  let rows ← keeping start.store (readRows target start intent (decorationMap facts.refs))
  pure (finishPage target start intent moment tipsMoved detail rows)

end Refyard
