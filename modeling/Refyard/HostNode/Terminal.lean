import Refyard.Contract.Problem
import Refyard.Core.Bytes
import Refyard.Foundation.InsertionMap
import Refyard.Foundation.Machine

/-! The terminal service of the TypeScript host: sessions, their owners and the output stream. -/
namespace Refyard.Terminal

def terminalPayloadMaxBytes : Nat := 65536

def terminalSessionsPerService : Nat := 8

def terminalPreSubscribeBufferBytes : Nat := 256 * 1024

/-- Base64 inflates by 4/3, so a piece of this size stays inside the contract's payload. -/
def maxFrameBytes : Nat := 32 * 1024

def base64Digit (number : Nat) : Char :=
  if number < 26 then Char.ofNat ('A'.toNat + number)
  else if number < 52 then Char.ofNat ('a'.toNat + (number - 26))
  else if number < 62 then Char.ofNat ('0'.toNat + (number - 52))
  else if number = 62 then '+'
  else '/'

def toBase64 : Bytes → List Char
  | [] => []
  | [first] =>
      [base64Digit (first.toNat / 4), base64Digit (first.toNat % 4 * 16), '=', '=']
  | [first, second] =>
      [base64Digit (first.toNat / 4), base64Digit (first.toNat % 4 * 16 + second.toNat / 16),
        base64Digit (second.toNat % 16 * 4), '=']
  | first :: second :: third :: rest =>
      base64Digit (first.toNat / 4) :: base64Digit (first.toNat % 4 * 16 + second.toNat / 16) ::
        base64Digit (second.toNat % 16 * 4 + third.toNat / 64) ::
          base64Digit (third.toNat % 64) :: toBase64 rest

inductive TerminalFrame where
  | output (sessionId : String) (data : Bytes)
  | exit (sessionId : String) (exitCode : Option Int)
  deriving DecidableEq

structure PtySpawnRequest where
  cwd : String
  shell : String
  argv : List String
  env : InsertionMap (Prod.fst : String × String → String)
  cols : Nat
  rows : Nat

inductive PtyCall where
  | write (bytes : Bytes)
  | resize (cols rows : Nat)
  | kill

inductive Seen where
  | opened (caller : String) (request : PtySpawnRequest)
  | called (caller : Option String) (call : PtyCall)
  | attached (caller : String) (stream : Nat)
  | detached
  | wrote (bytes : Bytes)
  | sent (stream : Nat) (frame : TerminalFrame)
  | dropped (bytes : Bytes)

structure Session where
  sessionId : String
  repositoryId : String
  ownerSessionId : String
  /-- Cleared once the shell exited; the record remains for its exit frame. -/
  process : Bool := true
  /-- Bounded tail buffer kept while no stream is attached. -/
  pending : List Bytes := []
  pendingBytes : Nat := 0
  subscriber : Option Nat := none
  exited : Bool := false
  killedByHost : Bool := false
  /-- What has happened at the session, oldest first. Nothing reads it. -/
  seen : List Seen

namespace Session

def note (session : Session) (event : Seen) : Session :=
  { session with seen := session.seen ++ [event] }

def send (session : Session) (frame : TerminalFrame) : Session :=
  match session.subscriber with
  | some stream => session.note (.sent stream frame)
  | none => session

def finish (session : Session) (exitCode : Option Int) : Session :=
  if session.exited then session
  else
    { session with exited := true, process := false }.send (.exit session.sessionId exitCode)

def take (session : Session) (piece : Bytes) : Session :=
  match session.subscriber with
  | some _ => session.send (.output session.sessionId piece)
  | none =>
      { session with
        pending := session.pending ++ [piece]
        pendingBytes := session.pendingBytes + piece.length }

def dropFrom (session : Session) : List Bytes → Session
  | first :: second :: rest =>
      if session.pendingBytes > terminalPreSubscribeBufferBytes then
        dropFrom { session with
          pending := second :: rest
          pendingBytes := session.pendingBytes - first.length
          seen := session.seen ++ [.dropped first] } (second :: rest)
      else session
  | _ => session

def dropOldest (session : Session) : Session := session.dropFrom session.pending

end Session

def pieces (bytes : Bytes) : List Bytes :=
  (List.range ((bytes.length + (maxFrameBytes - 1)) / maxFrameBytes)).map fun index =>
    (bytes.drop (index * maxFrameBytes)).take maxFrameBytes

namespace Session

def deliver (session : Session) (bytes : Bytes) : Session :=
  ((pieces bytes).foldl take session).dropOldest

def onData (session : Session) (bytes : Bytes) : Session :=
  (session.note (.wrote bytes)).deliver bytes

/-- A kill by the host is told without a code, whatever code the platform observed. -/
def onExit (session : Session) (exitCode : Option Int) : Session :=
  session.finish (if session.killedByHost then none else exitCode)

def kill (session : Session) (caller : Option String) : Session :=
  let session := { session with killedByHost := true }
  if session.process then session.note (.called caller .kill) else session

/-- The stream replaces the one before it, and is sent what the buffer holds. -/
def subscribe (session : Session) (caller : String) (stream : Nat) : Session :=
  let session := { session with subscriber := some stream }.note (.attached caller stream)
  let session := session.pending.foldl
    (fun session chunk => session.send (.output session.sessionId chunk)) session
  let session := { session with pending := [], pendingBytes := 0 }
  if session.exited then session.send (.exit session.sessionId none) else session

def detach (session : Session) (stream : Nat) : Session :=
  if session.subscriber = some stream then { session with subscriber := none }.note .detached
  else session

end Session

structure Served where
  sessionId : String
  place : Nat

/-- Every session that was ever opened, and those that are served under an id. -/
structure TerminalService where
  opened : List Session := []
  sessions : InsertionMap Served.sessionId := .empty

structure TerminalCommand where
  name : String
  shell : String
  argv : List String

structure TerminalServiceOptions where
  /-- A host without a pty module has none. -/
  port : Bool
  command : TerminalCommand
  environment : List (String × Option String)

def terminalEnvironment (environment : List (String × Option String)) :
    InsertionMap (Prod.fst : String × String → String) :=
  let entries := InsertionMap.ofList
    (environment.filterMap fun entry => entry.2.map fun value => (entry.1, value))
  let entries := (entries.set ("TERM", "xterm-256color")).set ("COLORTERM", "truecolor")
  match entries.get? "LANG" with
  | none => entries.set ("LANG", "en_US.UTF-8")
  | some lang => if lang.2 = "" then entries.set ("LANG", "en_US.UTF-8") else entries

inductive Refusal where
  | problem (problem : Problem)
  | spawnFailed

inductive Answer where
  | opened (sessionId shell cwd : String)
  | accepted

structure OpenInput where
  repositoryId : String
  cols : Nat
  rows : Nat
  ownerSessionId : String
  /-- The directory the registry has for the repository. -/
  approved : Option String
  /-- Whether the port can start the shell. -/
  spawns : Bool
  /-- The id the service draws. -/
  sessionId : String

namespace TerminalService

def requireLiveSession (service : TerminalService) (sessionId ownerSessionId : String) :
    Except Problem (Nat × Session) :=
  match service.sessions.get? sessionId with
  | none => .error (.new .notFound "no such terminal session on this host")
  | some served =>
      match service.opened[served.place]? with
      | none => .error (.new .notFound "no such terminal session on this host")
      | some session =>
          if session.ownerSessionId ≠ ownerSessionId then
            .error (.new .forbidden "this terminal belongs to another browser session")
          else .ok (served.place, session)

def requireLiveProcess (session : Session) : Except Problem Unit :=
  if session.process then .ok ()
  else .error (.new .notFound "that terminal session has already exited")

def put (service : TerminalService) (place : Nat) (change : Session → Session) :
    TerminalService :=
  { service with opened := service.opened.modify place change }

def isSwept (service : TerminalService) (served : Served) : Bool :=
  match service.opened[served.place]? with
  | some session => session.exited && session.subscriber.isNone
  | none => false

def sweep (service : TerminalService) : TerminalService :=
  { service with
    sessions := (service.sessions.values.filter service.isSwept).foldl
      (fun sessions served => sessions.erase served.sessionId) service.sessions }

def noPort : Problem :=
  .new .unsupportedOperation
    "this host has no pty module, so it cannot open a terminal session"

def tooMany : Problem :=
  (Problem.new .resourceBusy
    s!"this host serves at most {terminalSessionsPerService} terminal sessions at once").asRetryable

def notApproved : Problem :=
  .new .notFound "no approved repository with that id on this host"

def spawnRequest (options : TerminalServiceOptions) (input : OpenInput) (cwd : String) :
    PtySpawnRequest where
  cwd
  shell := options.command.shell
  argv := options.command.argv
  env := terminalEnvironment options.environment
  cols := input.cols
  rows := input.rows

def openSession (options : TerminalServiceOptions) (service : TerminalService) (input : OpenInput) :
    TerminalService × Except Refusal Answer :=
  if ¬ options.port then (service, .error (.problem noPort))
  else
    let service := service.sweep
    if service.sessions.values.length ≥ terminalSessionsPerService then
      (service, .error (.problem tooMany))
    else
      match input.approved with
      | none => (service, .error (.problem notApproved))
      | some cwd =>
          if ¬ input.spawns then (service, .error .spawnFailed)
          else
            let session : Session :=
              { sessionId := input.sessionId
                repositoryId := input.repositoryId
                ownerSessionId := input.ownerSessionId
                seen := [.opened input.ownerSessionId (spawnRequest options input cwd)] }
            ({ opened := service.opened ++ [session]
               sessions := service.sessions.set ⟨input.sessionId, service.opened.length⟩ },
              .ok (.opened input.sessionId options.command.name cwd))

def change (service : TerminalService) (sessionId ownerSessionId : String)
    (allowed : Session → Except Problem Unit) (change : Session → Session) :
    TerminalService × Except Refusal Answer :=
  match service.requireLiveSession sessionId ownerSessionId with
  | .error problem => (service, .error (.problem problem))
  | .ok (place, session) =>
      match allowed session with
      | .error problem => (service, .error (.problem problem))
      | .ok () => (service.put place change, .ok .accepted)

def write (service : TerminalService) (sessionId : String) (bytes : Bytes)
    (ownerSessionId : String) : TerminalService × Except Refusal Answer :=
  service.change sessionId ownerSessionId requireLiveProcess fun session =>
    session.note (.called (some ownerSessionId) (.write bytes))

def resize (service : TerminalService) (sessionId : String) (cols rows : Nat)
    (ownerSessionId : String) : TerminalService × Except Refusal Answer :=
  service.change sessionId ownerSessionId requireLiveProcess fun session =>
    session.note (.called (some ownerSessionId) (.resize cols rows))

def close (service : TerminalService) (sessionId ownerSessionId : String) :
    TerminalService × Except Refusal Answer :=
  let (service, answer) :=
    service.change sessionId ownerSessionId (fun _ => .ok ()) (·.kill (some ownerSessionId))
  match answer with
  | .ok _ => ({ service with sessions := service.sessions.erase sessionId }, answer)
  | .error _ => (service, answer)

def subscribe (service : TerminalService) (sessionId ownerSessionId : String) (stream : Nat) :
    TerminalService × Except Refusal Answer :=
  service.change sessionId ownerSessionId (fun _ => .ok ()) (·.subscribe ownerSessionId stream)

def end' (service : TerminalService) (served : Served) : TerminalService :=
  let service := service.put served.place fun session => (session.kill none).finish none
  { service with sessions := service.sessions.erase served.sessionId }

def closeAll (service : TerminalService) : TerminalService :=
  service.sessions.values.foldl end' service

end TerminalService

/-- What comes in: calls of clients and of the host, a stream that lets go, and what the
process of a session tells. -/
inductive TerminalInput where
  | openSession (input : OpenInput)
  | write (sessionId : String) (bytes : Bytes) (ownerSessionId : String)
  | resize (sessionId : String) (cols rows : Nat) (ownerSessionId : String)
  | close (sessionId ownerSessionId : String)
  | subscribe (sessionId ownerSessionId : String) (stream : Nat)
  | closeAll
  | detach (place stream : Nat)
  | onData (place : Nat) (bytes : Bytes)
  | onExit (place : Nat) (exitCode : Option Int)

def serving (options : TerminalServiceOptions) :
    Machine TerminalService TerminalInput (Except Refusal Answer) where
  step service input :=
    match input with
    | .openSession input => service.openSession options input
    | .write sessionId bytes ownerSessionId => service.write sessionId bytes ownerSessionId
    | .resize sessionId cols rows ownerSessionId => service.resize sessionId cols rows ownerSessionId
    | .close sessionId ownerSessionId => service.close sessionId ownerSessionId
    | .subscribe sessionId ownerSessionId stream =>
        service.subscribe sessionId ownerSessionId stream
    | .closeAll => (service.closeAll, .ok .accepted)
    | .detach place stream => (service.put place (·.detach stream), .ok .accepted)
    | .onData place bytes => (service.put place (·.onData bytes), .ok .accepted)
    | .onExit place exitCode => (service.put place (·.onExit exitCode), .ok .accepted)

end Refyard.Terminal
