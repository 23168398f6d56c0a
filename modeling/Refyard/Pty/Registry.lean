import Refyard.Core.Bytes
import Refyard.Foundation.InsertionMap
import Refyard.Foundation.Machine

/-! Pty sessions: calls that open, drive and close them, and the reader and the waiter thread
of each. Whatever happens between two looks at something shared is one step. -/
namespace Refyard.Pty

inductive PtyEvent where
  | output (bytes : Bytes)
  | exit (code : Option Int)

/-- How far `open` has come with a session. -/
inductive Opening where
  /-- Its id is drawn. -/
  | drawn
  /-- The shell runs, and the thread that reads it. -/
  | reading
  /-- The waiter runs too. -/
  | started
  /-- The record is in the registry, and `open` has answered. -/
  | returned
  | failed
  deriving DecidableEq

inductive Waiter where
  | waiting
  | reaped (code : Option Int)
  | marked (code : Option Int)
  | telling (code : Option Int)
  | told
  | finished
  deriving DecidableEq

inductive Shell where
  | running
  | ended (code : Int)
  deriving DecidableEq

structure Session where
  opening : Option Opening := none
  shell : Option Shell := none
  reader : Bool := false
  waiter : Option Waiter := none
  closedByHost : Bool := false
  exited : Bool := false

/-- Where `close` is: behind the removal of the record, behind the look whether the session is
dead, behind the mark. -/
inductive Closing where
  | next
  | removed (number : Nat)
  | marking (number : Nat)
  | killing (number : Nat)

/-- A call of `close`, or of `close_all` with the ids it has still to close. -/
structure Closer where
  rest : List Nat
  all : Bool
  closing : Closing := .next

/-- The registry with every session that was ever begun, in order from one. What no step reads
is kept to tell of the run: the events, and the ids that `open` answered. -/
structure PtyRegistry where
  nextId : Nat := 0
  sessions : Nat → Session := fun _ => {}
  /-- Ids and the sessions they stand for. -/
  records : InsertionMap (Prod.fst : Nat × Nat → Nat) := .empty
  closers : Nat → Option Closer := fun _ => none
  /-- The sessions that calls in progress write to or resize. -/
  drivers : Nat → Option Nat := fun _ => none
  begun : Nat := 0
  events : List (Nat × PtyEvent) := []
  opened : List Nat := []

inductive PtyStep where
  | open_
  | spawn (number : Nat) (spawned : Bool)
  | startWaiter (number : Nat) (started : Bool)
  | insert (number : Nat)
  | shellExits (number : Nat) (code : Int)
  | reads (number : Nat) (bytes : Bytes)
  | readerEnds (number : Nat)
  /-- What waiting for the child comes back with: it may also fail. -/
  | waited (number : Nat) (fails : Bool)
  | waiterGoesOn (number : Nat)
  | close (id : Nat)
  /-- The ids come in the order of the map. -/
  | closeAll (ids : List Nat)
  | closerGoesOn (call : Nat)
  | write (id : Nat)
  | resize (id : Nat)
  | driven (call : Nat) (done : Bool)
  | isLive (id : Nat)

inductive PtyAnswer where
  | opened (id : Nat)
  | openFailed
  | closed (ended : Bool)
  | allClosed
  | noSuchSession
  | driven (done : Bool)
  | live (found : Bool)
  deriving DecidableEq

def sessionId (number : Nat) : Nat := number % 2 ^ 32

namespace PtyRegistry

section
variable (registry : PtyRegistry)

def setSession (number : Nat) (session : Session) : PtyRegistry :=
  { registry with sessions := Function.update registry.sessions number session }

def tell (number : Nat) (event : PtyEvent) : PtyRegistry :=
  { registry with events := registry.events ++ [(sessionId number, event)] }

def open_ : PtyRegistry :=
  let number := registry.nextId + 1
  { registry with nextId := number }.setSession number { opening := some .drawn }

def spawn (number : Nat) (spawned : Bool) : PtyRegistry × Option PtyAnswer :=
  let session := registry.sessions number
  if session.opening = some .drawn then
    if spawned then
      (registry.setSession number
        { session with opening := some .reading, shell := some .running, reader := true }, none)
    else (registry.setSession number { session with opening := some .failed }, some .openFailed)
  else (registry, none)

def startWaiter (number : Nat) (started : Bool) : PtyRegistry × Option PtyAnswer :=
  let session := registry.sessions number
  if session.opening = some .reading then
    if started then
      (registry.setSession number
        { session with opening := some .started, waiter := some .waiting }, none)
    else (registry.setSession number { session with opening := some .failed }, some .openFailed)
  else (registry, none)

def insert (number : Nat) : PtyRegistry × Option PtyAnswer :=
  let session := registry.sessions number
  if session.opening = some .started then
    ({ registry with
        records := registry.records.set (sessionId number, number)
        opened := registry.opened ++ [sessionId number] }.setSession number
          { session with opening := some .returned }, some (.opened (sessionId number)))
  else (registry, none)

def shellExits (number : Nat) (code : Int) : PtyRegistry :=
  let session := registry.sessions number
  if session.shell = some .running then
    registry.setSession number { session with shell := some (.ended code) }
  else registry

def reads (number : Nat) (bytes : Bytes) : PtyRegistry :=
  if (registry.sessions number).reader then registry.tell number (.output bytes) else registry

def readerEnds (number : Nat) : PtyRegistry :=
  registry.setSession number { registry.sessions number with reader := false }

def waited (number : Nat) (fails : Bool) : PtyRegistry :=
  let session := registry.sessions number
  if session.waiter = some .waiting then
    if fails then registry.setSession number { session with waiter := some (.reaped none) }
    else
      match session.shell with
      | some (.ended code) =>
          registry.setSession number { session with waiter := some (.reaped (some code)) }
      | _ => registry
  else registry

/-- The waiter marks the session, looks who ended it, tells its exit and removes its record. -/
def waiterGoesOn (number : Nat) : PtyRegistry :=
  let session := registry.sessions number
  match session.waiter with
  | some (.reaped code) =>
      registry.setSession number { session with waiter := some (.marked code), exited := true }
  | some (.marked code) =>
      registry.setSession number
        { session with waiter := some (.telling (if session.closedByHost then none else code)) }
  | some (.telling code) =>
      (registry.tell number (.exit code)).setSession number { session with waiter := some .told }
  | some .told =>
      { registry with records := registry.records.erase (sessionId number) }.setSession number
        { session with waiter := some .finished }
  | _ => registry

def beginClose (closer : Closer) : PtyRegistry :=
  { registry with
    closers := Function.update registry.closers registry.begun (some closer)
    begun := registry.begun + 1 }

def setCloser (call : Nat) (closer : Option Closer) : PtyRegistry :=
  { registry with closers := Function.update registry.closers call closer }

/-- One session is done with: `close` answers, `close_all` goes on with the next. -/
def closedOne (call : Nat) (closer : Closer) (ended : Bool) : PtyRegistry × Option PtyAnswer :=
  if closer.all then (registry.setCloser call (some { closer with closing := .next }), none)
  else (registry.setCloser call none, some (.closed ended))

def closerGoesOn (call : Nat) : PtyRegistry × Option PtyAnswer :=
  match registry.closers call with
  | none => (registry, none)
  | some closer =>
      match closer.closing, closer.rest with
      | .next, [] => (registry.setCloser call none, some .allClosed)
      | .next, id :: rest =>
          match registry.records.get? id with
          | none => registry.closedOne call { closer with rest } false
          | some (_, number) =>
              ({ registry with records := registry.records.erase id }.setCloser call
                (some { closer with rest, closing := .removed number }), none)
      | .removed number, _ =>
          if (registry.sessions number).exited then registry.closedOne call closer false
          else (registry.setCloser call (some { closer with closing := .marking number }), none)
      | .marking number, _ =>
          ((registry.setSession number
            { registry.sessions number with closedByHost := true }).setCloser call
              (some { closer with closing := .killing number }), none)
      | .killing _, _ =>
          -- what the signal does to the shell is a step of the shell
          registry.closedOne call closer true

def drive (id : Nat) : PtyRegistry × Option PtyAnswer :=
  match registry.records.get? id with
  | none => ({ registry with begun := registry.begun + 1 }, some .noSuchSession)
  | some (_, number) =>
      ({ registry with
          drivers := Function.update registry.drivers registry.begun (some number)
          begun := registry.begun + 1 }, none)

def driven (call : Nat) (done : Bool) : PtyRegistry × Option PtyAnswer :=
  match registry.drivers call with
  | none => (registry, none)
  | some _ =>
      ({ registry with drivers := Function.update registry.drivers call none }, some (.driven done))

def isLive (id : Nat) : Bool := (registry.records.get? id).isSome

end

def serving : Machine PtyRegistry PtyStep (Option PtyAnswer) where
  step registry input :=
    match input with
    | .open_ => (registry.open_, none)
    | .spawn number spawned => registry.spawn number spawned
    | .startWaiter number started => registry.startWaiter number started
    | .insert number => registry.insert number
    | .shellExits number code => (registry.shellExits number code, none)
    | .reads number bytes => (registry.reads number bytes, none)
    | .readerEnds number => (registry.readerEnds number, none)
    | .waited number fails => (registry.waited number fails, none)
    | .waiterGoesOn number => (registry.waiterGoesOn number, none)
    | .close id => (registry.beginClose { rest := [id], all := false }, none)
    | .closeAll ids =>
        if ids.Perm (registry.records.values.map Prod.fst) then
          (registry.beginClose { rest := ids, all := true }, none)
        else (registry, none)
    | .closerGoesOn call => registry.closerGoesOn call
    | .write id => registry.drive id
    | .resize id => registry.drive id
    | .driven call done => registry.driven call done
    | .isLive id => (registry, some (.live (registry.isLive id)))

end PtyRegistry

end Refyard.Pty
