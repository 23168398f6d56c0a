import Refyard.GitClient.EventFrames

/-! The event stream client: connections, the loop that makes them again, and what the listener
is told. -/
namespace Refyard.GitClient

inductive Stage where
  /-- The request is out. -/
  | fetching
  /-- The body is being read. -/
  | reading
  /-- `connect` has returned and whoever awaits it has not gone on yet. -/
  | settled
  | done
  deriving DecidableEq

structure Connection where
  /-- Awaited by the loop, and not by `start`. -/
  ofLoop : Bool
  since : Option Int := none
  stage : Stage
  body : Body := {}
  /-- What has come of the body and the frames that were handled. Nothing reads them. -/
  received : Bytes := []
  frames : List (List Char) := []
  /-- Where the server stands in its answer. Nothing reads it. -/
  position : Int := 0

def Connection.inFlight (connection : Connection) : Bool :=
  connection.stage = .fetching || connection.stage = .reading

inductive LoopState where
  | idle
  | waiting (ms : Nat)
  | connecting
  deriving DecidableEq

inductive Note where
  | event (sequence : Int) (envelope : Json)
  | gap (fromSequence toSequence : Int)
  | error (code message : String)

structure EventClient where
  baseRetryMs : Nat := 1000
  sequence : Int := 0
  stopped : Bool := false
  isConnected : Bool := false
  attempt : Nat := 0
  /-- The first response was accepted, which is what `start` waits for. -/
  signalled : Bool := false
  loop : LoopState := .idle
  connections : List Connection := []
  told : List Note := []
  /-- Where the first answer began and how far the listener was told. Nothing reads them. -/
  base : Int := 0
  reached : Int := 0

def Reading.after (position : Int) : Reading → Int
  | .gap _ _ toSequence => toSequence
  | .event sequence _ => sequence
  | _ => position

namespace EventClient

def tell (client : EventClient) (note : Note) : EventClient :=
  { client with told := client.told ++ [note] }

def onError (client : EventClient) (code message : String) : EventClient :=
  client.tell (.error code message)

def handle (client : EventClient) : Reading → EventClient
  | .nothing => client
  | .unparsable => client.onError "InternalError" "the event stream sent unparsable data"
  | .gap sequence fromSequence toSequence =>
      { client with sequence := max client.sequence sequence, reached := toSequence }.tell
        (.gap fromSequence toSequence)
  | .event sequence envelope =>
      { client with sequence := max client.sequence sequence, reached := sequence }.tell
        (.event sequence envelope)

def handleFrame (client : EventClient) (frame : List Char) : EventClient :=
  client.handle (readFrame frame)

def put (client : EventClient) (place : Nat) (change : Connection → Connection) : EventClient :=
  { client with connections := client.connections.modify place change }

def settle (client : EventClient) (place : Nat) : EventClient :=
  client.put place fun connection => { connection with stage := .settled }

def connect (client : EventClient) (ofLoop : Bool) (token : Option String) : EventClient :=
  if client.stopped then
    { client with connections := client.connections ++ [{ ofLoop, stage := .settled }] }
  else
    match token with
    | none =>
        let client := client.onError "Unauthenticated" "no session to stream with"
        { client with
          stopped := true
          connections := client.connections ++ [{ ofLoop, stage := .settled }] }
    | some _ =>
        let since := if client.sequence > 0 then some client.sequence else none
        { client with connections := client.connections ++ [{ ofLoop, since, stage := .fetching }] }

def start (client : EventClient) (token : Option String) : EventClient :=
  { client with stopped := false }.connect false token

def stop (client : EventClient) : EventClient :=
  { client with stopped := true, isConnected := false }

/-- The server answers, from where it was asked to or else from where it stands. -/
def accepted (client : EventClient) (place : Nat) (since : Option Int) (standing : Int) :
    EventClient :=
  let begun := if client.sequence > 0 then client
    else { client with base := standing, reached := standing }
  { begun with isConnected := true, attempt := 0, signalled := true }.put place fun connection =>
    { connection with
      stage := .reading
      body := {}
      received := []
      frames := []
      position := since.getD standing }

def refused (client : EventClient) (place status : Nat) : EventClient :=
  if status = 401 ∨ status = 403 then
    ({ client with stopped := true }.onError
      (if status = 401 then "Unauthenticated" else "Forbidden")
      s!"the event stream was refused with {status}; pair again").settle place
  else { client with isConnected := false }.settle place

def failed (client : EventClient) (place : Nat) (message : String) : EventClient :=
  let client := { client with isConnected := false }
  (if client.stopped then client else client.onError "Unavailable" message).settle place

def chunk (client : EventClient) (place : Nat) (connection : Connection) (bytes : Bytes) :
    EventClient :=
  let (body, frames) := connection.body.push bytes
  (frames.foldl handleFrame client).put place fun connection =>
    { connection with
      body
      received := connection.received ++ bytes
      frames := connection.frames ++ frames
      position := frames.foldl (fun position frame => (readFrame frame).after position)
        connection.position }

def ended (client : EventClient) (place : Nat) : EventClient :=
  { client with isConnected := false }.settle place

def backoff (baseRetryMs attempt : Nat) : Nat := min (baseRetryMs * 2 ^ min attempt 4) 15000

def again (client : EventClient) : EventClient :=
  if client.stopped then { client with loop := .idle }
  else
    { client with
      attempt := client.attempt + 1
      loop := .waiting (backoff client.baseRetryMs (client.attempt + 1)) }

def goOn (client : EventClient) (place : Nat) (connection : Connection) : EventClient :=
  let client := client.put place fun connection => { connection with stage := .done }
  if connection.ofLoop then
    (if ¬ client.stopped ∧ client.isConnected then { client with attempt := 0 } else client).again
  else if client.stopped ∨ client.loop ≠ .idle then client
  else client.again

def elapsed (client : EventClient) (token : Option String) : EventClient :=
  match client.loop with
  | .waiting _ =>
      if client.stopped then { client with loop := .idle }
      else { client with loop := .connecting }.connect true token
  | _ => client

def at' (client : EventClient) (place : Nat) (stages : List Stage)
    (act : Connection → EventClient) : EventClient :=
  match client.connections[place]? with
  | some connection => if connection.stage ∈ stages then act connection else client
  | none => client

end EventClient

/-- The calls of the user, what becomes of a request, and the time that passes. -/
inductive ClientInput where
  | start (token : Option String)
  | stop
  | accepted (place : Nat) (standing : Int)
  | refused (place status : Nat)
  | failed (place : Nat) (message : String)
  | chunk (place : Nat) (bytes : Bytes)
  | ended (place : Nat)
  | goOn (place : Nat)
  | elapsed (token : Option String)

def streaming : Machine EventClient ClientInput Unit where
  step client input :=
    (match input with
      | .start token => client.start token
      | .stop => client.stop
      | .accepted place standing => client.at' place [.fetching] fun connection =>
          client.accepted place connection.since standing
      | .refused place status => client.at' place [.fetching] fun _ => client.refused place status
      | .failed place message => client.at' place [.fetching, .reading] fun _ =>
          client.failed place message
      | .chunk place bytes => client.at' place [.reading] fun connection =>
          client.chunk place connection bytes
      | .ended place => client.at' place [.reading] fun _ => client.ended place
      | .goOn place => client.at' place [.settled] fun connection => client.goOn place connection
      | .elapsed token => client.elapsed token, ())

end Refyard.GitClient
