import Refyard.Clock
import Refyard.Contract.Operation
import Refyard.Foundation.PublishLog
import Refyard.Foundation.Table
import Refyard.Jobs.Identity

/-! The journal: what this service did, published before it did it. A file holds the
JSON of a value, which reads back as that value; the model keeps the value. Counters
and clock readings are unbounded integers. -/
namespace Refyard

structure JournalRecord where
  operationId : String
  clientRequestId : String
  actor : String
  kind : MutationKind
  target : MutationTarget
  status : OperationStatus
  sequence : Nat
  acceptedAtMs : Int
  startedAtMs : Option Int
  finishedAtMs : Option Int
  payloadDigest : String
  writeKey : String
  result : Option OperationResult
  problem : Option Problem
  unknownReason : Option String
  acknowledgedAtMs : Option Int
  deriving DecidableEq

namespace JournalRecord

def toOperationRecord (record : JournalRecord) : OperationRecord where
  operationId := record.operationId
  clientRequestId := record.clientRequestId
  kind := record.kind
  target := record.target
  status := record.status
  sequence := record.sequence
  acceptedAt := formatIso8601Millis record.acceptedAtMs
  startedAt := record.startedAtMs.map formatIso8601Millis
  finishedAt := record.finishedAtMs.map formatIso8601Millis
  result := record.result
  problem := record.problem

def blocksWrites (record : JournalRecord) : Bool :=
  (record.status = .unknown || record.status = .needsAttention) && record.acknowledgedAtMs.isNone

def isUnfinished (record : JournalRecord) : Bool :=
  record.status = .accepted || record.status = .running

def isTerminal (record : JournalRecord) : Bool := !record.isUnfinished

end JournalRecord

structure IndexEntry where
  operationId : String
  sequence : Nat

structure JournalIndex where
  nextSequence : Nat
  operations : List IndexEntry

inductive FileName where
  | index
  | record (operationId : String)
  deriving DecidableEq

/-- What a journal file holds; `unreadable` is text this host did not print. -/
inductive FileText where
  | index (value : JournalIndex)
  | record (value : JournalRecord)
  | unreadable

def FileName.base : FileName → String
  | .index => "index.json"
  | .record operationId => operationId ++ ".json"

structure StateRoot where
  path : String
  files : PublishLog FileName FileText

namespace StateRoot

def directory (root : StateRoot) : FileName → String
  | .index => root.path ++ "/journal"
  | .record _ => root.path ++ "/journal/records"

def filePath (root : StateRoot) (name : FileName) : String :=
  root.directory name ++ "/" ++ name.base

def temporary (root : StateRoot) (name : FileName) : String :=
  root.directory name ++ "/." ++ name.base ++ ".tmp"

def read (root : StateRoot) (name : FileName) : Option FileText := root.files.read name

def publish (root : StateRoot) (name : FileName) (text : FileText) : StateRoot :=
  { root with files := root.files.publish name text }

end StateRoot

inductive WriteStage where
  | create
  | writeAll
  | syncAll
  | rename

/-- A disk that takes `left` more writes of a call and refuses the one after them. -/
structure WriteFault where
  left : Nat
  stage : WriteStage
  error : String

def nextWrite (fault : Option WriteFault) : Option WriteFault :=
  fault.map fun fault => { fault with left := fault.left - 1 }

def WriteStage.message (stage : WriteStage) (temporary path error : String) : String :=
  match stage with
  | .create | .writeAll => s!"the journal file {temporary} could not be written: {error}"
  | .syncAll => s!"the journal file {temporary} could not be flushed: {error}"
  | .rename => s!"the journal record {path} could not be published: {error}"

def StateRoot.writeAtomic (root : StateRoot) (fault : Option WriteFault) (name : FileName)
    (text : FileText) : Except Problem StateRoot :=
  match fault with
  | some ⟨0, stage, error⟩ =>
      .error (internal (stage.message (root.temporary name) (root.filePath name) error))
  | _ => .ok (root.publish name text)

inductive EffectOutcome where
  | succeeded (result : OperationResult)
  | failed (problem : Problem)
  | needsAttention (problem : Problem)
  | unknown (reason : String) (problem : Problem)

def terminalRecord (record : JournalRecord) (outcome : EffectOutcome) (finishedAtMs : Int) :
    JournalRecord :=
  match outcome with
  | .succeeded result =>
      { record with
        status := .succeeded, result := some result, problem := none,
        finishedAtMs := some finishedAtMs }
  | .failed problem =>
      { record with
        status := .failed, result := none,
        problem := some (problem.forOperation record.operationId),
        finishedAtMs := some finishedAtMs }
  | .needsAttention problem =>
      { record with
        status := .needsAttention, result := none,
        problem := some (problem.forOperation record.operationId),
        finishedAtMs := some finishedAtMs }
  | .unknown reason problem =>
      { record with
        status := .unknown, result := none,
        problem := some (problem.forOperation record.operationId),
        finishedAtMs := some finishedAtMs, unknownReason := some reason }

structure JournalState where
  records : Table JournalRecord.operationId
  order : List String
  nextSequence : Nat

structure Journal where
  state : JournalState
  root : Option StateRoot

def unknownOperation (operationId : String) : Problem :=
  .new .notFound s!"unknown operation {operationId}"

def JournalState.blank : JournalState where
  records := .empty
  order := []
  nextSequence := 0

/-- The records an index names, read one file at a time. The system's own words at the
end of a message are left out. -/
def loadEntries (root : StateRoot) (state : JournalState) :
    List IndexEntry → Except Problem JournalState
  | [] => .ok state
  | entry :: rest =>
      if !isOperationId entry.operationId then
        .error (internal
          s!"the journal names an operation this host would not mint: {entry.operationId.quote}")
      else
        let path := root.filePath (.record entry.operationId)
        match root.read (.record entry.operationId) with
        | none =>
            .error (internal s!"the journal index names {path} but its record could not be read")
        | some (.record record) =>
            loadEntries root
              { state with
                order := state.order ++ [record.operationId],
                records := state.records.insert record } rest
        | some _ => .error (internal s!"the journal record {path} is not readable")

def load (root : StateRoot) : Except Problem JournalState :=
  let index : Except Problem JournalIndex := match root.read .index with
    | none => .ok ⟨0, []⟩
    | some (.index index) => .ok index
    | some _ =>
        .error (internal
          s!"the journal index {root.filePath .index} is not readable as an index")
  match index with
  | .error problem => .error problem
  | .ok index =>
      match loadEntries root .blank index.operations with
      | .error problem => .error problem
      | .ok state =>
          let above := ((state.records.values.map fun record => record.sequence + 1).max?).getD 1
          .ok { state with nextSequence := max index.nextSequence above }

/-- `Journal::open`: whatever the previous process left. -/
def openJournal (root : Option StateRoot) : Except Problem Journal :=
  match root with
  | none => .ok ⟨.blank, none⟩
  | some root =>
      match load root with
      | .error problem => .error problem
      | .ok state => .ok ⟨state, some root⟩

namespace Journal

def get (journal : Journal) (operationId : String) : Option JournalRecord :=
  journal.state.records.get? operationId

def writeRecord (journal : Journal) (fault : Option WriteFault) (record : JournalRecord) :
    Except Problem Journal :=
  match journal.root with
  | none => .ok journal
  | some root =>
      if !isOperationId record.operationId then
        .error (internal
          s!"an operation id this host did not mint cannot name a journal file: {record.operationId.quote}")
      else
        match root.writeAtomic fault (.record record.operationId) (.record record) with
        | .error problem => .error problem
        | .ok root => .ok { journal with root := some root }

def indexOf (state : JournalState) : JournalIndex where
  nextSequence := state.nextSequence
  operations := (state.order.filterMap state.records.get?).map fun record =>
    ⟨record.operationId, record.sequence⟩

def writeIndex (journal : Journal) (fault : Option WriteFault) : Except Problem Journal :=
  match journal.root with
  | none => .ok journal
  | some root =>
      match root.writeAtomic fault .index (.index (indexOf journal.state)) with
      | .error problem => .error problem
      | .ok root => .ok { journal with root := some root }

def putRecord (journal : Journal) (record : JournalRecord) : Journal :=
  { journal with state.records := journal.state.records.insert record }

def number (journal : Journal) (sequence : Nat) : Journal :=
  { journal with state.nextSequence := sequence + 1 }

/-- The record `append` writes: the journal assigns the sequence. -/
def numbered (journal : Journal) (record : JournalRecord) : JournalRecord :=
  { record with sequence := max journal.state.nextSequence record.sequence }

/-- The three changes `append` makes in memory. -/
def enter (journal : Journal) (record : JournalRecord) : Journal :=
  { journal with
    state.nextSequence := record.sequence + 1,
    state.order := journal.state.order ++ [record.operationId],
    state.records := journal.state.records.insert record }

/-- Writes a new record, durably, before returning. An error does not undo what was
already done in memory. -/
def append (journal : Journal) (fault : Option WriteFault) (record : JournalRecord) :
    Except Problem Unit × Journal :=
  if journal.state.records.contains record.operationId then
    (.error (internal
      s!"operation {record.operationId} already exists in the journal; use mark_started or finish to change it"),
      journal)
  else
    let record := journal.numbered record
    match journal.writeRecord fault record with
    | .error problem => (.error problem, journal)
    | .ok journal =>
        match (journal.enter record).writeIndex (nextWrite fault) with
        | .error problem => (.error problem, journal.enter record)
        | .ok journal => (.ok (), journal)

/-- The shape the four status changes share: look the record up, refuse any status but
the expected one, publish the updated record, then keep it. -/
def transition (journal : Journal) (fault : Option WriteFault) (operationId : String)
    (expected : OperationStatus) (refusal : String) (update : JournalRecord → JournalRecord) :
    Except Problem JournalRecord × Journal :=
  match journal.get operationId with
  | none => (.error (unknownOperation operationId), journal)
  | some record =>
      if record.status ≠ expected then
        (.error (internal s!"operation {operationId} is {statusName record.status} and {refusal}"),
          journal)
      else
        match journal.writeRecord fault (update record) with
        | .error problem => (.error problem, journal)
        | .ok journal => (.ok (update record), journal.putRecord (update record))

def startedRecord (startedAtMs : Int) (record : JournalRecord) : JournalRecord :=
  { record with status := .running, startedAtMs := some startedAtMs }

def cancelledRecord (finishedAtMs : Int) (record : JournalRecord) : JournalRecord :=
  { record with
    status := .cancelled, finishedAtMs := some finishedAtMs, result := none, problem := none }

def neverStartedRecord (problem : Problem) (finishedAtMs : Int) (record : JournalRecord) :
    JournalRecord :=
  { record with
    status := .failed, finishedAtMs := some finishedAtMs,
    problem := some (problem.forOperation record.operationId), result := none }

def markStarted (journal : Journal) (fault : Option WriteFault) (operationId : String)
    (startedAtMs : Int) : Except Problem JournalRecord × Journal :=
  journal.transition fault operationId .accepted "cannot start; only an accepted operation starts"
    (startedRecord startedAtMs)

def markCancelled (journal : Journal) (fault : Option WriteFault) (operationId : String)
    (finishedAtMs : Int) : Except Problem JournalRecord × Journal :=
  journal.transition fault operationId .accepted
    "cannot be cancelled; only an operation that has not started can" (cancelledRecord finishedAtMs)

def finish (journal : Journal) (fault : Option WriteFault) (operationId : String)
    (outcome : EffectOutcome) (finishedAtMs : Int) : Except Problem JournalRecord × Journal :=
  journal.transition fault operationId .running
    "cannot finish; an operation finishes after it has started"
    fun record => terminalRecord record outcome finishedAtMs

def finishWithoutStart (journal : Journal) (fault : Option WriteFault) (operationId : String)
    (problem : Problem) (finishedAtMs : Int) : Except Problem JournalRecord × Journal :=
  journal.transition fault operationId .accepted "cannot be finished as never-started"
    (neverStartedRecord problem finishedAtMs)

def reconciledRecord (nowMs : Int) (message reason : String) (sequence : Nat)
    (record : JournalRecord) : JournalRecord :=
  { record with
    status := .unknown, sequence := sequence, finishedAtMs := some nowMs, result := none,
    problem := some ((Problem.new .uncertainOutcome message).forOperation record.operationId),
    unknownReason := some reason }

/-- The loop of `reconcile_unfinished` over the records still to rewrite. The counter
moves before the write it numbers, also when that write fails. -/
def reconcileLoop (nowMs : Int) (message reason : String) (journal : Journal)
    (fault : Option WriteFault) (reconciled : List JournalRecord) :
    List JournalRecord → Except Problem (List JournalRecord) × Journal
  | [] =>
      if reconciled.isEmpty then (.ok reconciled, journal)
      else
        match journal.writeIndex fault with
        | .error problem => (.error problem, journal)
        | .ok journal => (.ok reconciled, journal)
  | record :: rest =>
      let sequence := max journal.state.nextSequence (record.sequence + 1)
      let updated := reconciledRecord nowMs message reason sequence record
      let journal := journal.number sequence
      match journal.writeRecord fault updated with
      | .error problem => (.error problem, journal)
      | .ok journal =>
          reconcileLoop nowMs message reason (journal.putRecord updated) (nextWrite fault)
            (reconciled ++ [updated]) rest

/-- Every record the previous process left unfinished becomes `unknown`. -/
def reconcileUnfinished (journal : Journal) (fault : Option WriteFault) (nowMs : Int)
    (message reason : String) : Except Problem (List JournalRecord) × Journal :=
  reconcileLoop nowMs message reason journal fault []
    (journal.state.records.values.filter JournalRecord.isUnfinished)

/-- Every record whose outcome nobody established and nobody has confirmed. -/
def unacknowledged (journal : Journal) : List JournalRecord :=
  journal.state.records.values.filter JournalRecord.blocksWrites

/-- The record an acknowledgement writes: only the confirmation and the sequence change. -/
def acknowledgedRecord (journal : Journal) (nowMs : Int) (record : JournalRecord) : JournalRecord :=
  { record with
    acknowledgedAtMs := some nowMs,
    sequence := max journal.state.nextSequence (record.sequence + 1) }

/-- Records that a person confirmed the repository's state after an uncertain outcome. -/
def acknowledge (journal : Journal) (fault : Option WriteFault) (operationId : String)
    (nowMs : Int) : Except Problem JournalRecord × Journal :=
  match journal.get operationId with
  | none => (.error (unknownOperation operationId), journal)
  | some record =>
      if !record.blocksWrites then
        (.error (internal s!"operation {operationId} has no unresolved outcome to acknowledge"),
          journal)
      else
        let updated := journal.acknowledgedRecord nowMs record
        let journal := journal.number updated.sequence
        match journal.writeRecord fault updated with
        | .error problem => (.error problem, journal)
        | .ok journal =>
            match (journal.putRecord updated).writeIndex (nextWrite fault) with
            | .error problem => (.error problem, journal.putRecord updated)
            | .ok journal => (.ok updated, journal)

def listFor (journal : Journal) (actor : String) (limit : Nat) : List JournalRecord :=
  ((journal.state.records.values.filter fun record => record.actor = actor).mergeSort
    fun left right => right.sequence ≤ left.sequence).take limit

def newer (best : Option JournalRecord) (record : JournalRecord) : Option JournalRecord :=
  match best with
  | none => some record
  | some held => if held.sequence ≤ record.sequence then some record else some held

/-- The last of the records with the largest sequence, as `max_by_key` picks it. -/
def newest (records : List JournalRecord) : Option JournalRecord := records.foldl newer none

def findClientRequest (journal : Journal) (actor clientRequestId : String) :
    Option JournalRecord :=
  newest (journal.state.records.values.filter fun record =>
    record.actor = actor && record.clientRequestId = clientRequestId)

def records (journal : Journal) : List JournalRecord :=
  journal.state.order.filterMap journal.get

end Journal
end Refyard
