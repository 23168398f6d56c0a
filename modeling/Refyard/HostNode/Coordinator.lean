import Refyard.HostNode.Journal
import Refyard.HostNode.Preconditions
import Refyard.HostNode.Queue

/-! The job engine of the TypeScript host over its journal, and the effects it starts. Each
call is divided where it waits, and the steps of all calls come in any order. -/
namespace Refyard.HostNode

/-- What an append comes to. One that rejects may have put its line into the file. -/
inductive Appended where
  | stored
  | full
  | rejected (landed : Bool)
  deriving DecidableEq

def Appended.landed : Appended → Bool
  | .stored => true
  | .full => false
  | .rejected landed => landed

def Appended.puts (appended : Appended) (entry : Option JournalEntry) : List JournalEntry :=
  if appended.landed then entry.toList else []

def journalFullMessage : String :=
  "the operation journal is full; no expired records could be removed, so no new operation is accepted"

structure Ledger where
  entries : Entries := .empty
  /-- The records in the file. -/
  file : List JournalEntry := []
  /-- Every record that was ever put into the file, which is no part of the program. -/
  log : List JournalEntry := []

namespace Ledger

def append (ledger : Ledger) (entry : JournalEntry) (appended : Appended) : Ledger where
  entries := if appended = .stored then ledger.entries.set entry else ledger.entries
  file := if appended.landed then ledger.file ++ [entry] else ledger.file
  log := if appended.landed then ledger.log ++ [entry] else ledger.log

/-- Expired records are dropped, in memory and in the file. Where there are none, nothing is
written. -/
def compact (policy : RetentionPolicy) (ledger : Ledger) (nowMs : Int) : Ledger :=
  if ledger.entries.values.any fun entry => mayPruneRecord entry nowMs policy then
    { ledger with
      entries := .ofList (keptEntries ledger.entries nowMs policy)
      file := keptEntries ledger.entries nowMs policy }
  else ledger

def get (ledger : Ledger) (operationId : String) : Option JournalEntry :=
  ledger.entries.get? operationId

def list (ledger : Ledger) (actor : String) (limit : Nat) : List JournalEntry :=
  ((ledger.entries.values.filter fun entry => entry.actor = actor).insertionSort
    fun first second => second.sequence ≤ first.sequence).take limit

def isUnfinished (status : String) : Bool := status = "accepted" || status = "running"

def unfinished (ledger : Ledger) : List JournalEntry :=
  ledger.entries.values.filter fun entry => isUnfinished entry.status

end Ledger

structure OperationRecord where
  operationId : String
  clientRequestId : String
  kind : String
  target : JsObject
  status : String
  sequence : Int
  acceptedAt : List Char
  startedAt : Option (List Char)
  finishedAt : Option (List Char)
  result : Json
  problem : Json

/-- Nothing where the time of acceptance is no date: `toISOString` throws. -/
def recordFor (entry : JournalEntry) : Option OperationRecord :=
  entry.acceptedAtMs.map fun acceptedAt => {
    operationId := entry.operationId
    clientRequestId := entry.clientRequestId
    kind := entry.kind
    target := entry.target
    status := entry.status
    sequence := entry.sequence
    acceptedAt := IsoDate.toISOString acceptedAt
    startedAt := entry.startedAtMs.map IsoDate.toISOString
    finishedAt := entry.finishedAtMs.map IsoDate.toISOString
    result := entry.result
    problem := entry.problem }

def problemJson (code message : String) (operationId : String) : Json :=
  .object [("code", .string code), ("message", .string message), ("retryable", .bool false),
    ("operationId", .string operationId)]

/-- `{ ...problem, operationId }`: a name that is there keeps its place. -/
def withOperationId (problem : List (String × Json)) (operationId : String) : Json :=
  .object (InsertionMap.setIn Prod.fst ("operationId", .string operationId) problem)

inductive EffectOutcome where
  | succeeded (result : Json)
  | failed (problem : List (String × Json))
  | needsAttention (problem : List (String × Json))
  | unknown (problem : List (String × Json))

/-- An effect reports, or throws with a message if what it throws is an error. -/
inductive EffectEnd where
  | reported (outcome : EffectOutcome)
  | threw (message : Option String)

structure Transition where
  status : OperationStatus
  result : Json := .null
  problem : Json := .null
  unknownReason : Option String := none
  started : Bool := false
  finished : Bool := false

/-- The record that `transition` appends. -/
def Transition.apply (next : Transition) (entry : JournalEntry) (sequence : Int) (now : Timestamp) :
    JournalEntry :=
  { entry with
    status := statusName next.status
    sequence
    startedAtMs := if next.started then entry.startedAtMs.or (some now) else entry.startedAtMs
    finishedAtMs := if next.finished then some now else entry.finishedAtMs
    result := next.result
    problem := next.problem
    unknownReason := next.unknownReason }

/-- What `transition` returns where its append finds the journal full. -/
def unrecorded (entry : JournalEntry) : JournalEntry :=
  { entry with
    status := statusName .unknown
    problem := problemJson "InternalError" journalFullMessage entry.operationId
    unknownReason := some "the journal could not record this transition" }

def startTransition : Transition where
  status := .running
  started := true

def unsupportedTransition (kind : MutationKind) (operationId : String) : Transition where
  status := .failed
  finished := true
  problem :=
    problemJson "UnsupportedOperation" s!"{kind.wireName} is not implemented in this build"
      operationId

def EffectEnd.transition (operationId : String) : EffectEnd → Transition
  | .reported (.succeeded result) => { status := .succeeded, result, finished := true }
  | .reported (.failed problem) =>
      { status := .failed, problem := withOperationId problem operationId, finished := true }
  | .reported (.needsAttention problem) =>
      { status := .needsAttention, problem := withOperationId problem operationId, finished := true }
  | .reported (.unknown problem) =>
      { status := .unknown
        problem := withOperationId problem operationId
        unknownReason := stringField problem "message"
        finished := true }
  | .threw message =>
      { status := .unknown
        finished := true
        unknownReason := some "the effect threw before reporting an outcome"
        problem :=
          problemJson "UncertainOutcome"
            ("the operation failed unexpectedly (" ++ message.getD "unknown error" ++
              "); its effect on the repository is unknown and it was not retried")
            operationId }

def targetJson : MutationTarget → JsObject
  | .workspace allowedRootId relativeDestination =>
      .record [("kind", .string "workspace"), ("allowedRootId", .string allowedRootId),
        ("relativeDestination", .string relativeDestination)]
  | .repository repositoryId expectedSnapshotId =>
      .record [("kind", .string "repository"), ("repositoryId", .string repositoryId),
        ("expectedSnapshotId", .string expectedSnapshotId)]
  | .worktree repositoryId worktreeId expectedSnapshotId =>
      .record [("kind", .string "worktree"), ("repositoryId", .string repositoryId),
        ("worktreeId", .string worktreeId), ("expectedSnapshotId", .string expectedSnapshotId)]

structure WriteBlock where
  repositoryId : String
  operationIds : List String
  reason : String
  since : Timestamp

def WriteBlock.restart (block : WriteBlock) : RestartWriteBlock where
  reason := block.reason
  operationIds := block.operationIds

/-- A submission that waits for its facts, with the block that was held when it began. -/
structure Submission where
  actor : String
  request : ParsedMutationRequest
  digest : String
  repositoryId : String
  block : Option RestartWriteBlock

structure Acceptance where
  entry : JournalEntry
  request : ParsedMutationRequest

structure Refusal where
  entry : JournalEntry
  refusal : EnqueueRefusal

/-- Where the task of a started ticket is: its `running` record is being appended, that append
has answered, the effect runs, or its outcome is being appended. -/
inductive TaskStage where
  | starting
  | recorded
  | running
  | finishing
  deriving DecidableEq

structure Task where
  ticket : QueueTicket ParsedMutationRequest
  /-- The record under way, or the one last returned. -/
  entry : JournalEntry
  stage : TaskStage

def Acceptance.id (acceptance : Acceptance) : String := acceptance.entry.operationId

def Refusal.id (refusal : Refusal) : String := refusal.entry.operationId

def Task.id (task : Task) : String := task.ticket.id

structure AwaitingStart where
  operationId : String
  actor : String
  digest : String

/-- An effect that was started, with the operation's last record in the file at that time. -/
structure EffectStart where
  operationId : String
  recorded : Option JournalEntry

structure History where
  enqueued : List (QueueTicket ParsedMutationRequest) := []
  /-- The tickets that the queue started. -/
  began : List (QueueTicket ParsedMutationRequest) := []
  effects : List EffectStart := []
  /-- The operations whose cancellation was confirmed. -/
  cancelled : List String := []

structure Coordinator where
  ledger : Ledger
  blocks : Table WriteBlock.repositoryId
  effects : List MutationKind
  queue : Queue ParsedMutationRequest := {}
  awaitingStart : Table AwaitingStart.operationId := .empty
  /-- The sequence number handed out last. -/
  sequence : Int := 0
  /-- How many operation ids were handed out. -/
  minted : Nat := 0
  submissions : List Submission := []
  acceptances : List Acceptance := []
  refusals : List Refusal := []
  tasks : List Task := []
  cancellations : List JournalEntry := []
  /-- Scheduled runs of `pump`. -/
  pumps : Nat := 0
  history : History := {}

structure Setting where
  operationId : Nat → String
  distinct : Function.Injective operationId
  /-- The digest of a request's canonical text. -/
  digest : ParsedMutationRequest → String
  retention : RetentionPolicy

inductive CoordinatorInput where
  | submit (actor : String) (request : ParsedMutationRequest)
  /-- The facts of a submission are gathered. -/
  | check (place : Nat) (lookups : Lookups) (now : Timestamp)
  | accept (place : Nat) (appended : Appended) (now : Timestamp)
  | refuse (place : Nat) (appended : Appended)
  | cancel (actor operationId : String) (now : Timestamp)
  | recordCancellation (place : Nat) (appended : Appended)
  | recordStart (place : Nat) (appended : Appended)
  | begin (place : Nat) (now : Timestamp)
  | finish (place : Nat) (ended : EffectEnd) (now : Timestamp)
  | recordOutcome (place : Nat) (appended : Appended)
  | pump (now : Timestamp)
  | compact (nowMs : Int)
  | registerEffect (kind : MutationKind)
  | resolveBlock (repositoryId : String)

inductive Answer where
  | waiting
  | record (record : OperationRecord) (duplicate : Bool)
  | problem (problem : Problem)
  | rejected
  | done

def answerRecord (entry : JournalEntry) (duplicate : Bool) : Answer :=
  match recordFor entry with
  | none => .rejected
  | some record => .record record duplicate

def conflictProblem (existing : JournalEntry) : Problem :=
  (Problem.new .idempotencyConflict
    "that client request id was already used with a different payload; use a new id for the changed request").forOperation
      existing.operationId

def unsupportedProblem (kind : MutationKind) : Problem :=
  .new .unsupportedOperation
    s!"{kind.wireName} is not implemented in this build; no operation was accepted"

def unknownRepositoryProblem : Problem :=
  .new .notFound "that request does not name a repository this service knows"

def EnqueueRefusal.isFull : EnqueueRefusal → Bool
  | .queueFull _ => true
  | .actorBusy => false

def refusalTransition (refusal : EnqueueRefusal) (operationId : String) : Transition where
  status := .failed
  finished := true
  problem := .object
    [("code", .string (if refusal.isFull then "ResourceBusy" else "Conflict")),
      ("message", .string refusal.message), ("retryable", .bool refusal.isFull),
      ("operationId", .string operationId)]

def refusalProblem (refusal : EnqueueRefusal) : Problem :=
  let problem := Problem.new (if refusal.isFull then .resourceBusy else .conflict) refusal.message
  if refusal.isFull then problem.asRetryable else problem

def notCancellableProblem (entry : JournalEntry) : Problem :=
  (Problem.new .conflict
    (if entry.status = "running" then
      "that operation is already running; a running mutation cannot be cancelled in this version"
    else s!"that operation already finished as {entry.status}")).forOperation entry.operationId

def alreadyStartedProblem (operationId : String) : Problem :=
  (Problem.new .conflict "that operation has already started").forOperation operationId

/-- The record of a confirmed cancellation. It keeps the result and the reason it had. -/
def cancelledEntry (entry : JournalEntry) (sequence : Int) (now : Timestamp) : JournalEntry :=
  { entry with
    status := statusName .cancelled
    sequence
    finishedAtMs := some now
    problem :=
      problemJson "Cancelled" "cancelled while queued; nothing was run" entry.operationId }

/-- `LIMITS.idempotencyMaxEntries`. -/
def idempotencyMaxEntries : Nat := 2000

namespace Coordinator

def blockFor (coordinator : Coordinator) (repositoryId : String) : Option RestartWriteBlock :=
  (coordinator.blocks.get? repositoryId).map WriteBlock.restart

def keeps (coordinator : Coordinator) (ticket : QueueTicket ParsedMutationRequest) : Bool :=
  (coordinator.ledger.get ticket.id).isSome && coordinator.awaitingStart.contains ticket.id

/-- The executor up to the append of the `running` record. -/
def startTask (now : Timestamp) (coordinator : Coordinator)
    (ticket : QueueTicket ParsedMutationRequest) : Coordinator :=
  match coordinator.ledger.get ticket.id with
  | none => coordinator
  | some entry =>
      { coordinator with
        sequence := coordinator.sequence + 1
        tasks := coordinator.tasks ++
          [{ ticket, entry := startTransition.apply entry (coordinator.sequence + 1) now,
             stage := .starting }] }

def pump (coordinator : Coordinator) (now : Timestamp) : Coordinator :=
  let (started, queue) := coordinator.queue.run coordinator.keeps
  started.foldl (startTask now)
    { coordinator with
      queue
      history := { coordinator.history with began := coordinator.history.began ++ started } }

section
variable (setting : Setting)

/-- `submit` up to the call for its facts. -/
def submit (coordinator : Coordinator) (actor : String) (request : ParsedMutationRequest) :
    Coordinator × Answer :=
  match (coordinator.ledger.list actor idempotencyMaxEntries).find? fun entry =>
      entry.clientRequestId = request.clientRequestId with
  | some existing =>
      (coordinator,
        if existing.payloadDigest ≠ setting.digest request then .problem (conflictProblem existing)
        else answerRecord existing true)
  | none =>
      if request.kind ∉ coordinator.effects then
        (coordinator, .problem (unsupportedProblem request.kind))
      else
        match writeKeyOfTarget request.target with
        | none => (coordinator, .problem unknownRepositoryProblem)
        | some repositoryId =>
            ({ coordinator with
              submissions := coordinator.submissions ++
                [{ actor, request, digest := setting.digest request, repositoryId,
                   block := coordinator.blockFor repositoryId }] }, .waiting)

def acceptedEntry (coordinator : Coordinator) (submission : Submission) (now : Timestamp) :
    JournalEntry where
  operationId := setting.operationId coordinator.minted
  clientRequestId := submission.request.clientRequestId
  actor := submission.actor
  kind := submission.request.kind.wireName
  target := targetJson submission.request.target
  status := statusName .accepted
  sequence := coordinator.sequence + 1
  acceptedAtMs := some now
  startedAtMs := none
  finishedAtMs := none
  payloadDigest := submission.digest
  repositoryId := submission.repositoryId
  result := .null
  problem := .null
  unknownReason := none

/-- `submit` from its facts up to the append of its record. -/
def check (coordinator : Coordinator) (place : Nat) (lookups : Lookups) (now : Timestamp) :
    Coordinator × Answer :=
  match coordinator.submissions[place]? with
  | none => (coordinator, .done)
  | some submission =>
      let rest := { coordinator with submissions := coordinator.submissions.eraseIdx place }
      match preconditionsFor lookups submission.block submission.request with
      | none => (rest, .rejected)
      | some context =>
          match checkPreconditions context with
          | .error problem => (rest, .problem problem)
          | .ok () =>
              ({ rest with
                minted := coordinator.minted + 1
                sequence := coordinator.sequence + 1
                acceptances := coordinator.acceptances ++
                  [{ entry := coordinator.acceptedEntry setting submission now,
                     request := submission.request }] }, .waiting)

end

/-- `submit` once its record is in the journal. -/
def enqueueAccepted (coordinator : Coordinator) (acceptance : Acceptance) (now : Timestamp) :
    Coordinator × Answer :=
  let entry := acceptance.entry
  match coordinator.queue.enqueue entry.operationId entry.actor entry.repositoryId .write
      acceptance.request with
  | (.error refusal, _) =>
      ({ coordinator with
        sequence := coordinator.sequence + 1
        refusals := coordinator.refusals ++
          [{ entry := (refusalTransition refusal entry.operationId).apply entry
               (coordinator.sequence + 1) now
             refusal }] }, .waiting)
  | (.ok ticket, queue) =>
      let pumped := pump { coordinator with
        queue
        awaitingStart := coordinator.awaitingStart.insert
          ⟨entry.operationId, entry.actor, entry.payloadDigest⟩
        history := { coordinator.history with enqueued := coordinator.history.enqueued ++ [ticket] } }
        now
      (pumped, answerRecord ((pumped.ledger.get entry.operationId).getD entry) false)

/-- `submit` from the append of its record. -/
def accept (coordinator : Coordinator) (place : Nat) (appended : Appended) (now : Timestamp) :
    Coordinator × Answer :=
  match coordinator.acceptances[place]? with
  | none => (coordinator, .done)
  | some acceptance =>
      let answered := { coordinator with
        acceptances := coordinator.acceptances.eraseIdx place
        ledger := coordinator.ledger.append acceptance.entry appended }
      match appended with
      | .full => (answered, .problem (Problem.new .resourceBusy journalFullMessage).asRetryable)
      | .rejected _ => (answered, .rejected)
      | .stored => answered.enqueueAccepted acceptance now

/-- The end of a `submit` that the queue refused. -/
def refuse (coordinator : Coordinator) (place : Nat) (appended : Appended) :
    Coordinator × Answer :=
  match coordinator.refusals[place]? with
  | none => (coordinator, .done)
  | some refused =>
      let answered := { coordinator with
        refusals := coordinator.refusals.eraseIdx place
        ledger := coordinator.ledger.append refused.entry appended }
      match appended with
      | .rejected _ => (answered, .rejected)
      | _ =>
          let problem := refusalProblem refused.refusal
          (answered, .problem
            (if (answered.ledger.get refused.entry.operationId).isSome then
              problem.forOperation refused.entry.operationId
            else problem))

def cancel (coordinator : Coordinator) (actor operationId : String) (now : Timestamp) :
    Coordinator × Answer :=
  let notFound := Problem.new .notFound "no such operation for this session"
  match coordinator.ledger.get operationId with
  | none => (coordinator, .problem notFound)
  | some entry =>
      if entry.actor ≠ actor then (coordinator, .problem notFound)
      else if entry.status ≠ "accepted" then (coordinator, .problem (notCancellableProblem entry))
      else
        match coordinator.queue.cancel operationId with
        | (false, _) => (coordinator, .problem (alreadyStartedProblem operationId))
        | (true, queue) =>
            let cancelled := cancelledEntry entry (coordinator.sequence + 1) now
            ({ coordinator with
              queue
              awaitingStart := coordinator.awaitingStart.erase operationId
              sequence := coordinator.sequence + 1
              cancellations := coordinator.cancellations ++ [cancelled]
              history := { coordinator.history with
                cancelled := coordinator.history.cancelled ++ [operationId] } },
              answerRecord cancelled false)

def recordCancellation (coordinator : Coordinator) (place : Nat) (appended : Appended) :
    Coordinator :=
  match coordinator.cancellations[place]? with
  | none => coordinator
  | some entry =>
      { coordinator with
        cancellations := coordinator.cancellations.eraseIdx place
        ledger := coordinator.ledger.append entry appended }

/-- The append of a `running` record answers. Where it rejects, the task ends: its slot is
given back, and nothing else happens. -/
def recordStart (coordinator : Coordinator) (place : Nat) (appended : Appended) : Coordinator :=
  match coordinator.tasks[place]? with
  | none => coordinator
  | some task =>
      if task.stage ≠ .starting then coordinator
      else
        let ledger := coordinator.ledger.append task.entry appended
        match appended with
        | .stored =>
            { coordinator with
              ledger
              tasks := coordinator.tasks.set place { task with stage := .recorded } }
        | .full =>
            { coordinator with
              ledger
              tasks := coordinator.tasks.set place
                { task with entry := unrecorded task.entry, stage := .recorded } }
        | .rejected _ =>
            { coordinator with
              ledger
              tasks := coordinator.tasks.eraseIdx place
              queue := coordinator.queue.release task.ticket }

def begin (coordinator : Coordinator) (place : Nat) (now : Timestamp) : Coordinator :=
  match coordinator.tasks[place]? with
  | none => coordinator
  | some task =>
      if task.stage ≠ .recorded then coordinator
      else if task.ticket.job.kind ∉ coordinator.effects then
        { coordinator with
          sequence := coordinator.sequence + 1
          tasks := coordinator.tasks.set place
            { task with
              entry := (unsupportedTransition task.ticket.job.kind task.entry.operationId).apply
                task.entry (coordinator.sequence + 1) now
              stage := .finishing } }
      else
        { coordinator with
          tasks := coordinator.tasks.set place { task with stage := .running }
          history := { coordinator.history with
            effects := coordinator.history.effects ++
              [{ operationId := task.ticket.id
                 recorded := lastOf JournalEntry.operationId coordinator.ledger.log
                   task.ticket.id }] } }

def finish (coordinator : Coordinator) (place : Nat) (ended : EffectEnd) (now : Timestamp) :
    Coordinator :=
  match coordinator.tasks[place]? with
  | none => coordinator
  | some task =>
      if task.stage ≠ .running then coordinator
      else
        { coordinator with
          sequence := coordinator.sequence + 1
          tasks := coordinator.tasks.set place
            { task with
              entry := (ended.transition task.entry.operationId).apply task.entry
                (coordinator.sequence + 1) now
              stage := .finishing } }

/-- The append of the outcome answers. However it does, `pump` is scheduled and the slot is
given back. -/
def recordOutcome (coordinator : Coordinator) (place : Nat) (appended : Appended) : Coordinator :=
  match coordinator.tasks[place]? with
  | none => coordinator
  | some task =>
      if task.stage ≠ .finishing then coordinator
      else
        { coordinator with
          ledger := coordinator.ledger.append task.entry appended
          tasks := coordinator.tasks.eraseIdx place
          awaitingStart := coordinator.awaitingStart.erase task.ticket.id
          pumps := coordinator.pumps + 1
          queue := coordinator.queue.release task.ticket }

def runPump (coordinator : Coordinator) (now : Timestamp) : Coordinator :=
  if coordinator.pumps = 0 then coordinator
  else pump { coordinator with pumps := coordinator.pumps - 1 } now

/-- `resolveBlock` of the recovery that the coordinator was given. -/
def resolveBlock (coordinator : Coordinator) (repositoryId : String) : Coordinator :=
  { coordinator with blocks := coordinator.blocks.erase repositoryId }

def recorded (coordinator : Coordinator) : CoordinatorInput → List JournalEntry
  | .accept place appended _ => appended.puts (coordinator.acceptances[place]?.map Acceptance.entry)
  | .refuse place appended => appended.puts (coordinator.refusals[place]?.map Refusal.entry)
  | .recordCancellation place appended => appended.puts coordinator.cancellations[place]?
  | .recordStart place appended =>
      appended.puts ((coordinator.tasks[place]?.filter fun task => task.stage = .starting).map Task.entry)
  | .recordOutcome place appended =>
      appended.puts ((coordinator.tasks[place]?.filter fun task => task.stage = .finishing).map Task.entry)
  | _ => []

def step (setting : Setting) (coordinator : Coordinator) : CoordinatorInput → Coordinator × Answer
  | .submit actor request => coordinator.submit setting actor request
  | .check place lookups now => coordinator.check setting place lookups now
  | .accept place appended now => coordinator.accept place appended now
  | .refuse place appended => coordinator.refuse place appended
  | .cancel actor operationId now => coordinator.cancel actor operationId now
  | .recordCancellation place appended => (coordinator.recordCancellation place appended, .done)
  | .recordStart place appended => (coordinator.recordStart place appended, .done)
  | .begin place now => (coordinator.begin place now, .done)
  | .finish place ended now => (coordinator.finish place ended now, .done)
  | .recordOutcome place appended => (coordinator.recordOutcome place appended, .done)
  | .pump now => (coordinator.runPump now, .done)
  | .compact nowMs =>
      ({ coordinator with ledger := coordinator.ledger.compact setting.retention nowMs }, .done)
  | .registerEffect kind =>
      ({ coordinator with effects := coordinator.effects ++ [kind] }, .done)
  | .resolveBlock repositoryId => (coordinator.resolveBlock repositoryId, .done)

def machine (setting : Setting) : Machine Coordinator CoordinatorInput Answer := ⟨step setting⟩

end Coordinator

/-- What a coordinator is created over. No id that it will hand out is on record. -/
structure Opening (setting : Setting) where
  ledger : Ledger
  blocks : Table WriteBlock.repositoryId
  effects : List MutationKind
  unused : ∀ number, ledger.get (setting.operationId number) = none

def Opening.coordinator {setting : Setting} (opening : Opening setting) : Coordinator where
  ledger := opening.ledger
  blocks := opening.blocks
  effects := opening.effects

def sampleSetting : Setting where
  operationId number := String.ofList (List.replicate number 'x')
  distinct first second same := by
    have lengths := congrArg String.length same
    simpa using lengths
  digest request := String.ofList request.operation.stringify
  retention := { ttlMs := 0, maxBytes := 0 }

def sampleOpening : Opening sampleSetting where
  ledger := {}
  blocks := .empty
  effects := [.initRepository]
  unused _ := rfl

def workspaceRequest (clientRequestId : String) : ParsedMutationRequest where
  clientRequestId
  target := .workspace "root" "new"
  kind := .initRepository
  operation := .null

def noLookups : Lookups where
  require _ := .error none
  worktree _ _ := .error none
  facts _ := .error none
  snapshots _ := none

end Refyard.HostNode
