import Mathlib.Data.Finset.Insert
import Mathlib.Data.Finset.Erase
import Refyard.Foundation.Table

/-! Bounded work, one writer per write key. The queue is generic over the work it
carries. -/
namespace Refyard

inductive QueueMode where
  | read
  | write
  deriving DecidableEq

structure QueueLimits where
  maxQueuedPerActor : Nat := 32
  maxGlobalGitProcesses : Nat := 4
  maxReadersPerRepository : Nat := 2

structure QueueTicket (J : Type) where
  id : String
  actor : String
  repositoryId : String
  mode : QueueMode
  positionAtEnqueue : Nat
  job : J

inductive EnqueueRefusal where
  | queueFull
  | alreadyQueued

structure Queue (J : Type) where
  limits : QueueLimits
  pending : List (QueueTicket J)
  running : Table (QueueTicket.id (J := J))
  writers : Finset String
  readers : Std.ExtTreeMap String Nat compare

namespace Queue

variable {J : Type}

def new (limits : QueueLimits) : Queue J where
  limits := limits
  pending := []
  running := .empty
  writers := ∅
  readers := ∅

def depthFor (queue : Queue J) (actor : String) : Nat :=
  queue.pending.countP fun ticket => ticket.actor = actor

def runningCount (queue : Queue J) : Nat := queue.running.size

def enqueue (queue : Queue J) (id actor repositoryId : String) (mode : QueueMode) (job : J) :
    Except EnqueueRefusal (QueueTicket J) × Queue J :=
  if queue.limits.maxQueuedPerActor ≤ queue.depthFor actor then (.error .queueFull, queue)
  else if queue.pending.any fun ticket => ticket.id = id then (.error .alreadyQueued, queue)
  else
    let ticket : QueueTicket J :=
      { id, actor, repositoryId, mode, positionAtEnqueue := queue.pending.length, job }
    (.ok ticket, { queue with pending := queue.pending ++ [ticket] })

/-- Removes work that has not started. The answer is false once it is running. -/
def cancel (queue : Queue J) (id : String) : Bool × Queue J :=
  if queue.pending.any fun ticket => ticket.id = id then
    (true, { queue with pending := queue.pending.eraseP fun ticket => ticket.id = id })
  else (false, queue)

def readersOf (queue : Queue J) (key : String) : Nat := (queue.readers[key]?).getD 0

def canStart (queue : Queue J) (ticket : QueueTicket J) : Bool :=
  if queue.limits.maxGlobalGitProcesses ≤ queue.running.size then false
  else
    match ticket.mode with
    | .write => ticket.repositoryId ∉ queue.writers
    | .read =>
        if ticket.repositoryId ∈ queue.writers then false
        else queue.readersOf ticket.repositoryId < queue.limits.maxReadersPerRepository

def occupy (queue : Queue J) (ticket : QueueTicket J) : Queue J :=
  match ticket.mode with
  | .write =>
      { queue with
        writers := insert ticket.repositoryId queue.writers,
        running := queue.running.insert ticket }
  | .read =>
      { queue with
        readers := queue.readers.insert ticket.repositoryId (queue.readersOf ticket.repositoryId + 1),
        running := queue.running.insert ticket }

/-- One pass in queue order: the tickets that start, those that keep waiting, and the
queue in which the former run. -/
def scan (queue : Queue J) : List (QueueTicket J) →
    List (QueueTicket J) × List (QueueTicket J) × Queue J
  | [] => ([], [], queue)
  | ticket :: rest =>
      if queue.canStart ticket then
        let (started, waiting, final) := (queue.occupy ticket).scan rest
        (ticket :: started, waiting, final)
      else
        let (started, waiting, final) := queue.scan rest
        (started, ticket :: waiting, final)

def takeStartable (queue : Queue J) : List (QueueTicket J) × Queue J :=
  let (started, waiting, final) := queue.scan queue.pending
  (started, { final with pending := waiting })

def vacate (queue : Queue J) (ticket : QueueTicket J) : Queue J :=
  match ticket.mode with
  | .write => { queue with writers := queue.writers.erase ticket.repositoryId }
  | .read =>
      { queue with
        readers :=
          if queue.readersOf ticket.repositoryId ≤ 1 then queue.readers.erase ticket.repositoryId
          else
            queue.readers.insert ticket.repositoryId (queue.readersOf ticket.repositoryId - 1) }

def release (queue : Queue J) (id : String) : Queue J :=
  match queue.running.get? id with
  | none => queue
  | some ticket => vacate { queue with running := queue.running.erase id } ticket

end Queue
end Refyard
