import Refyard.Foundation.InsertionMap
import Refyard.Http.Router

/-! Execution targets: creating and disconnecting them while repositories are opened on them.
A call is cut at its awaits. What it holds there is a value of its own, and what it waits for
comes from outside. -/
namespace Refyard.Http
open Registration

structure ExecutionTargetSummary where
  targetId : String
  kind : ExecutionTargetKind
  label : String
  ready : Bool
  generation : String

def TargetRecord.summary (target : TargetRecord) : ExecutionTargetSummary where
  targetId := target.targetId
  kind := target.kind
  label := target.label
  ready := target.ready
  generation := target.generation

structure SshHostCandidate where
  hostId : String
  sourceId : String
  hostAlias : String
  displayLabel : String

structure SshHostListing where
  hosts : List SshHostCandidate
  revision : String

inductive CreateTargetRequest where
  | «local»
  | sshConfig (hostId : String)

section Identity
variable (digest : String → String)

def sshTargetId (sourceId hostAlias : String) : String :=
  "tgt_ssh_" ++ digest s!"{sourceId}\x00{hostAlias}"

def sshTargetGeneration (sourceId sourceRevision hostAlias probeFacts : String) : String :=
  "gen_ssh_" ++ digest s!"{sourceId}\x00{sourceRevision}\x00{hostAlias}\x00{probeFacts}"

def probeFacts : Option String → Option String → String
  | some version, _ => s!"shell=ok;git={version}"
  | none, some code => s!"probe-failed:{code}"
  | none, none => "probe-unknown"

end Identity

def codeName : ProblemCode → String
  | .unauthenticated => "Unauthenticated"
  | .forbidden => "Forbidden"
  | .notFound => "NotFound"
  | .invalidRequest => "InvalidRequest"
  | .unsupportedOperation => "UnsupportedOperation"
  | .invalidOperationPayload => "InvalidOperationPayload"
  | .unsupportedPathEncoding => "UnsupportedPathEncoding"
  | .staleSnapshot => "StaleSnapshot"
  | .stalePreview => "StalePreview"
  | .conflict => "Conflict"
  | .idempotencyConflict => "IdempotencyConflict"
  | .resourceBusy => "ResourceBusy"
  | .limitExceeded => "LimitExceeded"
  | .gitCommandFailed => "GitCommandFailed"
  | .needsAttention => "NeedsAttention"
  | .uncertainOutcome => "UncertainOutcome"
  | .timeout => "Timeout"
  | .cancelled => "Cancelled"
  | .unavailable => "Unavailable"
  | .internalError => "InternalError"

namespace ApplicationService

def sshTargetRecord (digest : String → String) (candidate : SshHostCandidate)
    (sourceRevision : String) (gitVersion : Option String) (unavailable : Option Problem)
    (provided : Bool) : TargetRecord where
  targetId := sshTargetId digest candidate.sourceId candidate.hostAlias
  kind := .sshConfig
  label := candidate.displayLabel
  ready := unavailable.isNone
  generation := sshTargetGeneration digest candidate.sourceId sourceRevision candidate.hostAlias
    (probeFacts gitVersion (unavailable.map fun problem => codeName problem.code))
  executor := if provided then some .sshConfig else none
  unavailable := unavailable

/-- `TargetRegistry::insert`: a rebuilt target takes the place of the one it replaces. -/
def recordTarget (service : ApplicationService) (target : TargetRecord) :
    ExecutionTargetSummary × ApplicationService :=
  (target.summary, { service with
      targets := InsertionMap.setIn TargetRecord.targetId target service.targets })

def disconnectTarget (service : ApplicationService) (targetId : String) :
    Except Problem Unit × ApplicationService :=
  match service.targets.find? fun target => target.targetId = targetId with
  | none => (.error (.new .notFound s!"unknown execution target {targetId}"), service)
  | some target =>
      match target.kind with
      | .local =>
          (.error (.new .unsupportedOperation
            "the local execution target is this service's own machine and cannot be disconnected"),
            service)
      | .sshConfig =>
          (.ok (), { service with
            targets := service.targets.eraseP fun target => target.targetId = targetId
            registry := (service.registry.revokeTarget targetId).2 })

def targetFor (service : ApplicationService) (record : Registration.RepositoryRecord) :
    Except Problem TargetRecord :=
  match service.targets.find? fun target => target.targetId = record.location.targetId with
  | none =>
      .error (.new .notFound
        s!"repository {record.repositoryId} was opened on target {record.location.targetId} and that target is no longer connected; open the repository again")
  | some target =>
      if target.generation ≠ record.location.targetGeneration then
        .error ((Problem.new .staleSnapshot
          s!"repository {record.repositoryId} was opened on an earlier build of target {record.location.targetId}; open the repository again").withDetail
            "targetGeneration" (.text target.generation))
      else .ok target

end ApplicationService

inductive Call where
  /-- `create_target` for the configuration catalogue. -/
  | listing (hostId : String)
  /-- `create_target` for the remote host. -/
  | probing (candidate : SshHostCandidate) (sourceRevision : String)
  /-- `register_repository_on` for this machine's file system. -/
  | locating (path : String) (target : TargetRecord)
  /-- `register_repository_on` for the layout of the repository. -/
  | opening (approved : ApplicationService.Approved)
  /-- A call that has done its work, for the HEADs of the repositories it answers with. -/
  | answering (records : List Registration.RepositoryRecord)

def Call.registersOn : Call → Option String
  | .locating _ target => some target.targetId
  | .opening approved => some approved.targetId
  | .listing _ | .probing _ _ | .answering _ => none

inductive ServiceStep where
  | createTarget (request : CreateTargetRequest)
  | registerRepositoryOn (body : RegisterBody)
  | revokeRepository (repositoryId : String)
  | disconnectTarget (targetId : String)
  | listed (call : Nat) (listing : Except Problem SshHostListing) (provider : Except Problem Unit)
  | probed (call : Nat) (version : Except Problem String)
  | located (call : Nat) (opening : Opening)
  | laidOut (call : Nat) (answer : LayoutAnswer)
  | answered (call : Nat) (heads : Heads)

inductive Reply where
  | target (summary : ExecutionTargetSummary)
  | repositories (response : RepositoriesResponse)
  | disconnected

/-- The service and its calls in progress. What no step reads is kept to tell of the run: the
targets that were disconnected, in order, and how many when a call began. -/
structure ServiceRun where
  service : ApplicationService
  calls : Nat → Option Call := fun _ => none
  begun : Nat := 0
  disconnects : List String := []
  seen : Nat → Nat := fun _ => 0

namespace ServiceRun

def since (run : ServiceRun) (call : Nat) : List String :=
  run.disconnects.drop (run.seen call)

def begins (run : ServiceRun) (held : Call) : ServiceRun :=
  { run with
    calls := Function.update run.calls run.begun (some held)
    begun := run.begun + 1
    seen := Function.update run.seen run.begun run.disconnects.length }

def passes (run : ServiceRun) : ServiceRun := { run with begun := run.begun + 1 }

def goesOn (run : ServiceRun) (call : Nat) (held : Call) : ServiceRun :=
  { run with calls := Function.update run.calls call (some held) }

def ends (run : ServiceRun) (call : Nat) : ServiceRun :=
  { run with calls := Function.update run.calls call none }

abbrev Answer := Option (Except Problem Reply)

section Steps
variable (run : ServiceRun)

def refuses (problem : Problem) : ServiceRun × Answer := (run.passes, some (.error problem))

def stops (call : Nat) (problem : Problem) : ServiceRun × Answer :=
  (run.ends call, some (.error problem))

def createTarget : CreateTargetRequest → ServiceRun × Answer
  | .local =>
      match run.service.targets.find? fun target => target.targetId = run.service.targetId with
      | none =>
          run.refuses (internal "the local execution target is missing from this service")
      | some target => (run.passes, some (.ok (.target target.summary)))
  | .sshConfig hostId => (run.begins (.listing hostId), none)

def records (call : Nat) (target : TargetRecord) : ServiceRun × Answer :=
  let (summary, service) := run.service.recordTarget target
  ({ run.ends call with service }, some (.ok (.target summary)))

/-- `create_ssh_target` between the catalogue and the probe. -/
def listed (digest : String → String) (call : Nat) (hostId : String)
    (listing : Except Problem SshHostListing) (provider : Except Problem Unit) :
    ServiceRun × Answer :=
  match listing with
  | .error problem => run.stops call problem
  | .ok listing =>
      match listing.hosts.find? fun candidate => candidate.hostId = hostId with
      | none =>
          run.stops call (.new .notFound
            s!"no SSH host candidate {hostId} is in this configuration source; re-read sshHosts, because the source may have changed")
      | some candidate =>
          match provider with
          | .ok () => (run.goesOn call (.probing candidate listing.revision), none)
          | .error problem =>
              if problem.code = .invalidRequest then run.stops call problem
              else
                run.records call (ApplicationService.sshTargetRecord digest candidate
                  listing.revision none (some problem) false)

/-- `create_ssh_target` behind the probe. -/
def probed (digest : String → String) (call : Nat) (candidate : SshHostCandidate)
    (sourceRevision : String) : Except Problem String → ServiceRun × Answer
  | .ok version =>
      run.records call (ApplicationService.sshTargetRecord digest candidate sourceRevision
        (some version) none true)
  | .error problem =>
      run.records call (ApplicationService.sshTargetRecord digest candidate sourceRevision none
        (some problem) true)

/-- `register_repository_on` up to its first await. -/
def registerRepositoryOn (body : RegisterBody) : ServiceRun × Answer :=
  match run.service.requireTarget (body.targetId.getD run.service.targetId) with
  | .error problem => run.refuses problem
  | .ok target =>
      if !target.ready then run.refuses (ApplicationService.notReady target)
      else
        match target.kind with
        | .local => (run.begins (.locating body.path target), none)
        | .sshConfig =>
            match run.service.approveRemote target body.path with
            | (.error problem, service) => { run with service }.refuses problem
            | (.ok approved, service) => ({ run with service }.begins (.opening approved), none)

def located (call : Nat) (path : String) (target : TargetRecord) (opening : Opening) :
    ServiceRun × Answer :=
  match run.service.approveLocal target path opening with
  | (.error problem, service) => { run with service }.stops call problem
  | (.ok approved, service) => ({ run with service }.goesOn call (.opening approved), none)

def laidOut (call : Nat) (approved : ApplicationService.Approved) (answer : LayoutAnswer) :
    ServiceRun × Answer :=
  match run.service.file approved answer with
  | (.error problem, service) => { run with service }.stops call problem
  | (.ok (_, records), service) => ({ run with service }.goesOn call (.answering records), none)

def revokeRepository (repositoryId : String) : ServiceRun × Answer :=
  match run.service.registry.revoke repositoryId with
  | (false, _) => run.refuses (.new .notFound s!"unknown repository {repositoryId}")
  | (true, registry) =>
      ({ run with service.registry := registry }.begins (.answering registry.list), none)

def disconnectTarget (targetId : String) : ServiceRun × Answer :=
  match run.service.disconnectTarget targetId with
  | (.error problem, service) => { run with service }.refuses problem
  | (.ok (), service) =>
      ({ run.passes with service, disconnects := run.disconnects ++ [targetId] },
        some (.ok .disconnected))

def answered (call : Nat) (records : List Registration.RepositoryRecord) (heads : Heads) :
    ServiceRun × Answer :=
  (run.ends call, some (.ok (.repositories (run.service.respond heads records))))

end Steps

def serving (digest : String → String) : Machine ServiceRun ServiceStep Answer where
  step run input :=
    match input with
    | .createTarget request => run.createTarget request
    | .registerRepositoryOn body => run.registerRepositoryOn body
    | .revokeRepository repositoryId => run.revokeRepository repositoryId
    | .disconnectTarget targetId => run.disconnectTarget targetId
    | .listed call listing provider =>
        match run.calls call with
        | some (.listing hostId) => run.listed digest call hostId listing provider
        | _ => (run, none)
    | .probed call version =>
        match run.calls call with
        | some (.probing candidate revision) => run.probed digest call candidate revision version
        | _ => (run, none)
    | .located call opening =>
        match run.calls call with
        | some (.locating path target) => run.located call path target opening
        | _ => (run, none)
    | .laidOut call answer =>
        match run.calls call with
        | some (.opening approved) => run.laidOut call approved answer
        | _ => (run, none)
    | .answered call heads =>
        match run.calls call with
        | some (.answering records) => run.answered call records heads
        | _ => (run, none)

def started (targets : List TargetRecord) (targetId : String) : ServiceRun where
  service := { targets, targetId }

end ServiceRun
end Refyard.Http
