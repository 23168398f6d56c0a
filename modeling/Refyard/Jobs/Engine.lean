import Refyard.Core.Preconditions
import Refyard.Jobs.Queue
import Refyard.Jobs.Recovery
import Refyard.Jobs.Request

/-! The write path: journal, queue, effects and the rules that join them. A function of
the source that awaits is cut at the await, and what its locals hold there is a value of
its own. A part between two awaits is one step, as on the binary's current-thread runtime. -/
namespace Refyard

structure SubmitResult where
  record : OperationRecord
  /-- The request was submitted before and its effect did not run again. -/
  duplicate : Bool

/-- An effect is known here by the kind it runs; what it does is its outcome. -/
structure MutationEngine where
  journal : Journal
  recovery : Recovery
  effects : List MutationKind
  queue : Queue MutationRequest
  nextOperation : Nat

/-- What `submit` holds while the facts of its request are read. -/
structure Submission where
  actor : String
  request : MutationRequest
  digest : String
  writeKey : String
  block : Option WriteBlock

inductive SubmitStart where
  | answered (answer : Except Problem SubmitResult)
  | awaiting (submission : Submission)

inductive TicketStart where
  | effectStarted
  | ended

def restartBlockOf (block : WriteBlock) : RestartWriteBlock where
  reason := block.reason
  operationIds := block.operationIds

namespace MutationEngine

/-- `with_event_sink`: the id counter starts above every id the journal holds. -/
def build (journal : Journal) (recovery : Recovery) (effects : List MutationKind) :
    MutationEngine where
  journal := journal
  recovery := recovery
  effects := effects
  queue := .new {}
  nextOperation := nextOperationSeed (journal.records.map JournalRecord.operationId)

/-- `submit` up to the reading of the facts. The payload digest and the source's write key
for the request are given. -/
def beginSubmit (engine : MutationEngine) (actor : String) (request : MutationRequest)
    (digest : String) (writeKey : Except Problem String) : SubmitStart :=
  match engine.journal.findClientRequest actor request.clientRequestId with
  | some existing =>
      if existing.payloadDigest ≠ digest then
        .answered (.error ((Problem.new .idempotencyConflict
          "that client request id was already used with a different payload; use a new id for the changed request").forOperation
            existing.operationId))
      else .answered (.ok ⟨existing.toOperationRecord, true⟩)
  | none =>
      if request.operation.kind ∉ engine.effects then
        .answered (.error (.new .unsupportedOperation
          s!"{request.operation.kind.debugName} is not implemented in this build; no operation was accepted"))
      else
        match writeKey with
        | .error problem => .answered (.error problem)
        | .ok writeKey =>
            .awaiting { actor, request, digest, writeKey, block := engine.recovery.blockFor writeKey }

/-- The record `submit` journals; the journal assigns its sequence. -/
def acceptedRecord (submission : Submission) (operationId : String) (nowMs : Int) :
    JournalRecord where
  operationId := operationId
  clientRequestId := submission.request.clientRequestId
  actor := submission.actor
  kind := submission.request.operation.kind
  target := submission.request.target
  status := .accepted
  sequence := 0
  acceptedAtMs := nowMs
  startedAtMs := none
  finishedAtMs := none
  payloadDigest := submission.digest
  writeKey := submission.writeKey
  result := none
  problem := none
  unknownReason := none
  acknowledgedAtMs := none

def refusalProblem : EnqueueRefusal → Problem
  | .queueFull =>
      .new .resourceBusy
        "this session already has the maximum number of operations waiting; wait for them to finish"
  | .alreadyQueued => .new .conflict "that operation is already queued"

def refusalRetryable : EnqueueRefusal → Bool
  | .queueFull => true
  | .alreadyQueued => false

def mintedId (engine : MutationEngine) : String := "op_" ++ base36 (engine.nextOperation + 1)

/-- The last part of `submit`: queue the journalled operation and start what may start. The
tickets `pump` spawned come with the answer. -/
def enqueueAccepted (engine : MutationEngine) (submission : Submission) (operationId : String)
    (fault : Option WriteFault) (nowMs : Int) :
    Except Problem SubmitResult × List (QueueTicket MutationRequest) × MutationEngine :=
  match engine.queue.enqueue operationId submission.actor submission.writeKey .write
      submission.request with
  | (.error refusal, _) =>
      let problem := refusalProblem refusal
      let (finished, journal) :=
        engine.journal.finishWithoutStart fault operationId problem nowMs
      (match finished with
        | .error failure => .error failure
        | .ok _ => .error (if refusalRetryable refusal then problem.asRetryable else problem),
        [], { engine with journal })
  | (.ok _, queue) =>
      let (started, queue) := queue.takeStartable
      (match engine.journal.get operationId with
        | none =>
            .error (.new .internalError
              "the operation was journalled but cannot be read back")
        | some record => .ok ⟨record.toOperationRecord, false⟩,
        started, { engine with queue })

/-- `submit` once the facts are read, under the disk it meets. -/
def resumeSubmit (engine : MutationEngine) (submission : Submission)
    (facts : Except Problem PreconditionContext) (fault : Option WriteFault) (nowMs laterMs : Int) :
    Except Problem SubmitResult × List (QueueTicket MutationRequest) × MutationEngine :=
  match facts with
  | .error problem => (.error problem, [], engine)
  | .ok context =>
      match checkPreconditions
          { context with restartBlock := submission.block.map restartBlockOf } with
      | .error problem => (.error problem, [], engine)
      | .ok () =>
          let operationId := engine.mintedId
          let (appended, journal) :=
            engine.journal.append fault (acceptedRecord submission operationId nowMs)
          let engine := { engine with journal, nextOperation := engine.nextOperation + 1 }
          match appended with
          | .error problem =>
              (.error (Problem.new .resourceBusy
                s!"the operation journal could not record this request: {problem.message}").asRetryable,
                [], engine)
          | .ok () =>
              engine.enqueueAccepted submission operationId (nextWrite (nextWrite fault)) laterMs

def queueRelease (engine : MutationEngine) (operationId : String) : MutationEngine :=
  { engine with queue := engine.queue.release operationId }

/-- `run_ticket` up to its effect. A ticket that ends here gives its slot back. -/
def startTicket (engine : MutationEngine) (ticket : QueueTicket MutationRequest)
    (fault : Option WriteFault) (nowMs : Int) : TicketStart × MutationEngine :=
  match engine.journal.markStarted fault ticket.id nowMs with
  | (.error _, journal) => (.ended, { engine with journal }.queueRelease ticket.id)
  | (.ok _, journal) =>
      if ticket.job.operation.kind ∈ engine.effects then (.effectStarted, { engine with journal })
      else (.ended, { engine with journal }.queueRelease ticket.id)

/-- `run_ticket` from its effect's outcome on. -/
def finishTicket (engine : MutationEngine) (ticket : QueueTicket MutationRequest)
    (outcome : EffectOutcome) (fault : Option WriteFault) (nowMs laterMs : Int) : MutationEngine :=
  match engine.journal.finish fault ticket.id outcome nowMs with
  | (.error _, journal) => { engine with journal }.queueRelease ticket.id
  | (.ok record, journal) =>
      if record.status = .unknown then
        { engine with journal, recovery := engine.recovery.block record laterMs }.queueRelease
          ticket.id
      else { engine with journal }.queueRelease ticket.id

def abandonTicket (engine : MutationEngine) (ticket : QueueTicket MutationRequest) :
    MutationEngine :=
  engine.queueRelease ticket.id

def alreadyRunning (operationId : String) : Problem :=
  (Problem.new .conflict
    "that operation is already running; a running mutation cannot be cancelled in this version").forOperation
      operationId

def cancel (engine : MutationEngine) (actor operationId : String) (fault : Option WriteFault)
    (nowMs : Int) : Except Problem OperationRecord × MutationEngine :=
  match engine.journal.get operationId with
  | none => (.error (unknownOperation operationId), engine)
  | some record =>
      if record.actor ≠ actor then (.error (unknownOperation operationId), engine)
      else if record.status ≠ .accepted then
        (.error (if record.status = .running then alreadyRunning operationId
          else (Problem.new .conflict "that operation already finished").forOperation operationId),
          engine)
      else
        match engine.queue.cancel operationId with
        | (false, _) => (.error (alreadyRunning operationId), engine)
        | (true, queue) =>
            let (cancelled, journal) := engine.journal.markCancelled fault operationId nowMs
            (cancelled.map JournalRecord.toOperationRecord, { engine with queue, journal })

end MutationEngine
end Refyard
