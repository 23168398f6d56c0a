import Refyard.Jobs.Durability
import Refyard.Jobs.Engine
import Refyard.Jobs.QueueSafety

/-! What each part of an engine call can do, said once. -/
namespace Refyard

def Submission.passes (submission : Submission) : Except Problem PreconditionContext → Bool
  | .error _ => false
  | .ok context =>
      match checkPreconditions
          { context with restartBlock := submission.block.map restartBlockOf } with
      | .error _ => false
      | .ok () => true

namespace MutationEngine

variable {actor : String} {request : MutationRequest} (ticket : QueueTicket MutationRequest)

theorem beginSubmit_awaiting {engine : MutationEngine} {digest : String}
    {writeKey : Except Problem String} {submission : Submission}
    (h : engine.beginSubmit actor request digest writeKey = .awaiting submission) :
    engine.journal.findClientRequest actor request.clientRequestId = none ∧
      submission.actor = actor ∧ submission.request = request ∧ submission.digest = digest ∧
      writeKey = .ok submission.writeKey := by
  unfold beginSubmit at h
  split at h
  · split at h <;> contradiction
  · rename_i unknown
    split at h
    · contradiction
    · split at h
      · contradiction
      · cases h
        exact ⟨unknown, rfl, rfl, rfl, rfl⟩

theorem beginSubmit_found {engine : MutationEngine} {existing : JournalRecord}
    (found : engine.journal.findClientRequest actor request.clientRequestId = some existing)
    (digest : String) (writeKey : Except Problem String) :
    (existing.payloadDigest = digest ∧ engine.beginSubmit actor request digest writeKey =
        .answered (.ok ⟨existing.toOperationRecord, true⟩)) ∨
    (existing.payloadDigest ≠ digest ∧ ∃ problem : Problem,
      engine.beginSubmit actor request digest writeKey = .answered (.error problem) ∧
        problem.code = .idempotencyConflict ∧ problem.operationId = some existing.operationId) := by
  unfold beginSubmit
  simp only [found]
  split
  · rename_i differs
    exact .inr ⟨differs, _, rfl, rfl, rfl⟩
  · rename_i same
    exact .inl ⟨not_not.mp same, rfl⟩

/-- The journal and the counter after `submit` appended its record, whatever the answer. -/
def appended (engine : MutationEngine) (submission : Submission) (fault : Option WriteFault)
    (nowMs : Int) : MutationEngine :=
  { engine with
    journal := (engine.journal.append fault
      (acceptedRecord submission engine.mintedId nowMs)).2,
    nextOperation := engine.nextOperation + 1 }

variable (engine : MutationEngine)

/-- `submit` after its facts: refused before anything is written; not recorded; recorded
and refused by the queue; or queued, with every ticket that may now start. -/
theorem resumeSubmit_cases (submission : Submission) (facts : Except Problem PreconditionContext)
    (fault : Option WriteFault) (nowMs laterMs : Int) : (submission.passes facts = false ∧
      ∃ problem, engine.resumeSubmit submission facts fault nowMs laterMs =
        (.error problem, [], engine)) ∨ (submission.passes facts = true ∧
      (∃ problem, (engine.journal.append fault
        (acceptedRecord submission engine.mintedId nowMs)).1 = .error problem) ∧
      ∃ problem, engine.resumeSubmit submission facts fault nowMs laterMs =
        (.error problem, [], engine.appended submission fault nowMs)) ∨
    (submission.passes facts = true ∧
      (engine.journal.append fault (acceptedRecord submission engine.mintedId nowMs)).1 = .ok () ∧
      ((∃ refusal problem, (engine.queue.enqueue engine.mintedId submission.actor
          submission.writeKey .write submission.request).1 = .error refusal ∧
        engine.resumeSubmit submission facts fault nowMs laterMs =
          (.error problem, [], { engine.appended submission fault nowMs with
            journal := ((engine.appended submission fault nowMs).journal.finishWithoutStart
              (nextWrite (nextWrite fault)) engine.mintedId (refusalProblem refusal) laterMs).2 })) ∨
      (∃ ticket : QueueTicket MutationRequest, ticket.id = engine.mintedId ∧
        ticket.actor = submission.actor ∧ ticket.repositoryId = submission.writeKey ∧
        ticket.mode = .write ∧ ticket.job = submission.request ∧
        (∀ other ∈ engine.queue.pending, other.id ≠ engine.mintedId) ∧
        let joined : Queue MutationRequest :=
          { engine.queue with pending := engine.queue.pending ++ [ticket] }
        ∃ answer, engine.resumeSubmit submission facts fault nowMs laterMs =
            (answer, joined.takeStartable.1,
              { engine.appended submission fault nowMs with queue := joined.takeStartable.2 }) ∧
          ∀ record, (engine.appended submission fault nowMs).journal.get engine.mintedId =
            some record → answer = .ok ⟨record.toOperationRecord, false⟩))) := by
  unfold resumeSubmit
  cases facts with
  | error problem => exact .inl ⟨rfl, problem, rfl⟩
  | ok context =>
    simp only [Submission.passes]
    cases checked : checkPreconditions
        { context with restartBlock := submission.block.map restartBlockOf } with
    | error problem => exact .inl ⟨rfl, problem, rfl⟩
    | ok value =>
      refine .inr ?_
      unfold appended
      cases hrecorded : engine.journal.append fault
          (acceptedRecord submission engine.mintedId nowMs) with
      | mk answer journal =>
        simp only
        cases answer with
        | error problem => exact .inl ⟨trivial, ⟨problem, rfl⟩, _, rfl⟩
        | ok recorded =>
          refine .inr ⟨trivial, rfl, ?_⟩
          unfold enqueueAccepted
          obtain ⟨refusal, refused⟩ | ⟨ticket, hid, hactor, hkey, hmode, hjob, absent, joined⟩ :=
            engine.queue.enqueue_cases engine.mintedId submission.actor submission.writeKey .write
              submission.request
          · refine .inl ⟨refusal, ?_⟩
            simp only [refused]
            split
            · exact ⟨_, trivial, rfl⟩
            · exact ⟨_, trivial, rfl⟩
          · refine .inr ⟨ticket, hid, hactor, hkey, hmode, hjob, absent, ?_⟩
            simp only [joined]
            refine ⟨_, rfl, fun record held => ?_⟩
            simp only [held]

theorem startTicket_cases (fault : Option WriteFault) (nowMs : Int) :
    (engine.startTicket ticket fault nowMs = (.ended, engine.queueRelease ticket.id) ∧
      ∀ record, engine.journal.get ticket.id = some record → record.status = .accepted →
        engine.journal.takesRecord fault ticket.id = false) ∨
    (∃ record, engine.journal.get ticket.id = some record ∧ record.status = .accepted ∧
      engine.journal.takesRecord fault ticket.id = true ∧ let started : MutationEngine :=
        { engine with
          journal := engine.journal.store (Journal.startedRecord nowMs record) }
      (engine.startTicket ticket fault nowMs = (.effectStarted, started) ∧
          ticket.job.operation.kind ∈ engine.effects ∨
        engine.startTicket ticket fault nowMs = (.ended, started.queueRelease ticket.id) ∧
          ticket.job.operation.kind ∉ engine.effects)) := by
  unfold startTicket Journal.markStarted
  obtain ⟨problem, refused, why⟩ | ⟨record, held, status, takes, stored⟩ :=
    engine.journal.transition_cases fault ticket.id .accepted
      "cannot start; only an accepted operation starts"
      (Journal.startedRecord nowMs) (startedRecord_sameRequest nowMs)
  · exact .inl ⟨by simp only [refused], why⟩
  · refine .inr ⟨record, held, status, takes, ?_⟩
    simp only [stored]
    split
    · rename_i implemented
      exact .inl ⟨rfl, implemented⟩
    · rename_i missing
      exact .inr ⟨rfl, missing⟩

/-- An outcome is recorded or not; an unknown one that is recorded blocks its key; the slot
is given back in every case. -/
theorem finishTicket_cases (outcome : EffectOutcome) (fault : Option WriteFault)
    (nowMs laterMs : Int) :
    (engine.finishTicket ticket outcome fault nowMs laterMs = engine.queueRelease ticket.id ∧
      ∀ record, engine.journal.get ticket.id = some record → record.status = .running →
        engine.journal.takesRecord fault ticket.id = false) ∨
    (∃ record, engine.journal.get ticket.id = some record ∧ record.status = .running ∧
      engine.journal.takesRecord fault ticket.id = true ∧
      engine.finishTicket ticket outcome fault nowMs laterMs = { engine with
          journal := engine.journal.store (terminalRecord record outcome nowMs), recovery :=
            if outcome.status = OperationStatus.unknown then
              engine.recovery.block (terminalRecord record outcome nowMs) laterMs
            else engine.recovery }.queueRelease ticket.id) := by
  unfold finishTicket Journal.finish
  obtain ⟨problem, refused, why⟩ | ⟨record, held, status, takes, stored⟩ :=
    engine.journal.transition_cases fault ticket.id .running
      "cannot finish; an operation finishes after it has started"
      (fun record => terminalRecord record outcome nowMs)
      fun record => terminalRecord_sameRequest record outcome nowMs
  · exact .inl ⟨by simp only [refused], why⟩
  · refine .inr ⟨record, held, status, takes, ?_⟩
    simp only [stored, terminalRecord_status]
    split <;> rfl

/-- A cancellation is refused, or takes the ticket out of the queue and then asks the
journal. -/
theorem cancel_cases (actor operationId : String) (fault : Option WriteFault) (nowMs : Int) :
    (∃ problem, engine.cancel actor operationId fault nowMs = (.error problem, engine)) ∨
    (∃ before ticket after, engine.queue.pending = before ++ ticket :: after ∧
      ticket.id = operationId ∧ engine.cancel actor operationId fault nowMs =
        ((engine.journal.markCancelled fault operationId nowMs).1.map
            JournalRecord.toOperationRecord, { engine with
            queue := { engine.queue with pending := before ++ after },
            journal := (engine.journal.markCancelled fault operationId nowMs).2 })) := by
  unfold cancel
  cases held : engine.journal.get operationId with
  | none => exact .inl ⟨_, rfl⟩
  | some record =>
    simp only
    split
    · exact .inl ⟨_, rfl⟩
    · split
      · exact .inl ⟨_, rfl⟩
      · obtain ⟨-, stays⟩ | ⟨before, ticket, after, parts, hid, removed⟩ :=
          engine.queue.cancel_cases operationId
        · exact .inl ⟨_, by simp only [stays]; rfl⟩
        · exact .inr ⟨before, ticket, after, parts, hid, by simp only [removed]⟩

end MutationEngine
end Refyard
