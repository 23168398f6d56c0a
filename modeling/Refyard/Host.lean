import Refyard.Jobs.EngineSteps
import Refyard.Service

/-! The running host as one machine: its engine, the submissions that wait for their facts
and the tickets that were spawned. Every interleaving of clients, effects, failing writes
and restarts is a list of inputs. -/
namespace Refyard

/-- A spawned `run_ticket`: not yet polled, or waiting for its effect. -/
structure Task where
  ticket : QueueTicket MutationRequest
  effectRunning : Bool

def Task.id (task : Task) : String := task.ticket.id

structure Host where
  engine : MutationEngine
  submissions : List Submission
  tasks : Table Task.id

inductive HostInput where
  | submit (actor : String) (request : MutationRequest) (registries : Registries)
  /-- The facts of the submission at this position are read. -/
  | resume (position : Nat) (facts : Except Problem PreconditionContext)
      (fault : Option WriteFault) (nowMs laterMs : Int)
  /-- The caller of the submission at this position goes away. -/
  | drop (position : Nat)
  | start (operationId : String) (fault : Option WriteFault) (nowMs : Int)
  | finish (operationId : String) (outcome : EffectOutcome) (fault : Option WriteFault)
      (nowMs laterMs : Int)
  /-- The effect panics. -/
  | abandon (operationId : String)
  | cancel (actor operationId : String) (fault : Option WriteFault) (nowMs : Int)
  | acknowledge (operationId confirmedSnapshotId : String) (registries : Registries)
      (fault : Option WriteFault) (nowMs : Int)
  /-- The process ends, starts that fail or end early follow, and one start succeeds. -/
  | restart (failedStarts : List (Option WriteFault × Int)) (nowMs : Int)

inductive HostAnswer where
  | awaiting
  | submitted (answer : Except Problem SubmitResult)
  | effectStarted (ticket : QueueTicket MutationRequest)
  | ticketEnded
  | operation (answer : Except Problem OperationRecord)
  | restarted
  | ignored

namespace Host

def fresh (path : Option String) (effects : List MutationKind) : Host where
  engine := .build (.fresh path) .new effects
  submissions := []
  tasks := .empty

/-- `with_state_root`: open the journal, reconcile it, and build the engine over both. -/
def boot (root : Option StateRoot) (effects : List MutationKind) (fault : Option WriteFault)
    (nowMs : Int) : Except Problem Host :=
  match openJournal root with
  | .error problem => .error problem
  | .ok journal =>
      match Recovery.new.reconcile journal fault nowMs with
      | (.error problem, _, _) => .error problem
      | (.ok _, journal, recovery) =>
          .ok { engine := .build journal recovery effects, submissions := [], tasks := .empty }

def rootAfterStart (root : Option StateRoot) (start : Option WriteFault × Int) :
    Option StateRoot :=
  match openJournal root with
  | .error _ => root
  | .ok journal => (Recovery.new.reconcile journal start.1 start.2).2.1.root

def spawn (tasks : Table Task.id) (tickets : List (QueueTicket MutationRequest)) :
    Table Task.id :=
  tickets.foldl (fun tasks ticket => tasks.insert ⟨ticket, false⟩) tasks

section
variable (digest : MutationRequest → String)

def step (host : Host) : HostInput → Host × HostAnswer
  | .submit actor request registries =>
      match host.engine.beginSubmit actor request (digest request)
          (registries.writeKey request) with
      | .answered answer => (host, .submitted answer)
      | .awaiting submission =>
          ({ host with submissions := host.submissions ++ [submission] }, .awaiting)
  | .resume position facts fault nowMs laterMs =>
      match host.submissions[position]? with
      | none => (host, .ignored)
      | some submission =>
          let (answer, started, engine) :=
            host.engine.resumeSubmit submission facts fault nowMs laterMs
          ({ engine, submissions := host.submissions.eraseIdx position,
             tasks := spawn host.tasks started }, .submitted answer)
  | .drop position =>
      ({ host with submissions := host.submissions.eraseIdx position }, .ignored)
  | .start operationId fault nowMs =>
      match host.tasks.get? operationId with
      | some ⟨ticket, false⟩ =>
          match host.engine.startTicket ticket fault nowMs with
          | (.effectStarted, engine) =>
              ({ host with engine, tasks := host.tasks.insert ⟨ticket, true⟩ },
                .effectStarted ticket)
          | (.ended, engine) =>
              ({ host with engine, tasks := host.tasks.erase operationId }, .ticketEnded)
      | _ => (host, .ignored)
  | .finish operationId outcome fault nowMs laterMs =>
      match host.tasks.get? operationId with
      | some ⟨ticket, true⟩ =>
          ({ host with
            engine := host.engine.finishTicket ticket outcome fault nowMs laterMs,
            tasks := host.tasks.erase operationId }, .ticketEnded)
      | _ => (host, .ignored)
  | .abandon operationId =>
      match host.tasks.get? operationId with
      | some ⟨ticket, true⟩ =>
          ({ host with
            engine := host.engine.abandonTicket ticket,
            tasks := host.tasks.erase operationId }, .ticketEnded)
      | _ => (host, .ignored)
  | .cancel actor operationId fault nowMs =>
      let (answer, engine) := host.engine.cancel actor operationId fault nowMs
      ({ host with engine }, .operation answer)
  | .acknowledge operationId confirmedSnapshotId registries fault nowMs =>
      let (answer, engine) := host.engine.acknowledgeUncertainOperation registries operationId
        confirmedSnapshotId fault nowMs
      ({ host with engine }, .operation answer)
  | .restart failedStarts nowMs =>
      match boot (failedStarts.foldl rootAfterStart host.engine.journal.root) host.engine.effects
          none nowMs with
      | .ok host => (host, .restarted)
      | .error _ => (host, .ignored)

def machine : Machine Host HostInput HostAnswer := ⟨step digest⟩

end

/-! A session with two repositories, for runs on fixed inputs. -/

def sampleRegistries : Registries where
  repositories id :=
    if id = "repo_1" then some ⟨"local", "/work/a", ""⟩
    else if id = "repo_2" then some ⟨"local", "/work/b", ""⟩
    else none
  snapshots id :=
    if id = "snap_1" then some ⟨"repo_1", 100⟩
    else if id = "snap_2" then some ⟨"repo_2", 100⟩
    else none

def sampleRequest (clientRequestId repositoryId : String) : MutationRequest where
  clientRequestId := clientRequestId
  target := .worktree repositoryId "wt_1" "snap_1"
  operation := .unstagePaths ["path_1"]

def sampleHost : Host := fresh (some "state") [.unstagePaths]

def accept (clientRequestId repositoryId : String) : List HostInput :=
  [.submit "owner" (sampleRequest clientRequestId repositoryId) sampleRegistries,
    .resume 0 (.ok { indexUnchanged := true }) none 1 1]

def run (operationId : String) (outcome : EffectOutcome) : List HostInput :=
  [.start operationId none 2, .finish operationId outcome none 3 3]

def failure : Problem := .new .gitCommandFailed "git failed"

def sampleDigest (request : MutationRequest) : String := request.clientRequestId

def sampleKey : String := "repo:local\x00/work/a"

end Host
end Refyard
