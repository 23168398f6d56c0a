import Refyard.Jobs.QueueOrder

/-! The queue of the TypeScript host. It keeps the tables that the Rust host's queue keeps, and
a counter beside them. -/
namespace Refyard.HostNode

inductive EnqueueRefusal where
  | queueFull (depth : Nat)
  | actorBusy

def EnqueueRefusal.message : EnqueueRefusal → String
  | .queueFull depth =>
      s!"this session already has {depth} operations queued; wait for them to finish"
  | .actorBusy => "that operation is already queued"

structure Queue (J : Type) where
  limits : QueueLimits := {}
  pending : List (QueueTicket J) := []
  running : Table (QueueTicket.id (J := J)) := .empty
  globalRunning : Nat := 0
  readersPerRepository : Std.ExtTreeMap String Nat compare := ∅
  writers : Finset String := ∅

namespace Queue

variable {J : Type}

def depthFor (queue : Queue J) (actor : String) : Nat :=
  queue.pending.countP fun ticket => ticket.actor = actor

def readersOf (queue : Queue J) (repositoryId : String) : Nat :=
  (queue.readersPerRepository[repositoryId]?).getD 0

def canStart (queue : Queue J) (ticket : QueueTicket J) : Bool :=
  if queue.limits.maxGlobalGitProcesses ≤ queue.globalRunning then false
  else
    match ticket.mode with
    | .write => ticket.repositoryId ∉ queue.writers
    | .read =>
        if ticket.repositoryId ∈ queue.writers then false
        else queue.readersOf ticket.repositoryId < queue.limits.maxReadersPerRepository

/-- What `start` does before it calls the executor. -/
def start (queue : Queue J) (ticket : QueueTicket J) : Queue J :=
  match ticket.mode with
  | .write =>
      { queue with
        globalRunning := queue.globalRunning + 1
        writers := insert ticket.repositoryId queue.writers
        running := queue.running.insert ticket }
  | .read =>
      { queue with
        globalRunning := queue.globalRunning + 1
        readersPerRepository :=
          queue.readersPerRepository.insert ticket.repositoryId
            (queue.readersOf ticket.repositoryId + 1)
        running := queue.running.insert ticket }

/-- The first call of the function that the executor is given. Later calls do nothing. -/
def release (queue : Queue J) (ticket : QueueTicket J) : Queue J :=
  match ticket.mode with
  | .write =>
      { queue with
        running := queue.running.erase ticket.id
        globalRunning := queue.globalRunning - 1
        writers := queue.writers.erase ticket.repositoryId }
  | .read =>
      { queue with
        running := queue.running.erase ticket.id
        globalRunning := queue.globalRunning - 1
        readersPerRepository :=
          if queue.readersOf ticket.repositoryId ≤ 1 then
            queue.readersPerRepository.erase ticket.repositoryId
          else
            queue.readersPerRepository.insert ticket.repositoryId
              (queue.readersOf ticket.repositoryId - 1) }

/-- An id that waits is refused only where its repository has a writer waiting. -/
def enqueue (queue : Queue J) (id actor repositoryId : String) (mode : QueueMode) (job : J) :
    Except EnqueueRefusal (QueueTicket J) × Queue J :=
  let depth := queue.depthFor actor
  if queue.limits.maxQueuedPerActor ≤ depth then (.error (.queueFull depth), queue)
  else if (queue.pending.any fun ticket =>
        ticket.repositoryId = repositoryId && ticket.mode = mode && mode = .write) &&
      queue.pending.any fun ticket => ticket.id = id then (.error .actorBusy, queue)
  else
    let ticket : QueueTicket J :=
      { id, actor, repositoryId, mode, positionAtEnqueue := queue.pending.length, job }
    (.ok ticket, { queue with pending := queue.pending ++ [ticket] })

def cancel (queue : Queue J) (id : String) : Bool × Queue J :=
  if queue.pending.any fun ticket => ticket.id = id then
    (true, { queue with pending := queue.pending.eraseP fun ticket => ticket.id = id })
  else (false, queue)

/-- One pass in queue order: the tickets that start, those that keep waiting, and the queue
behind them. The executor that does not keep a ticket releases it at once. -/
def pass (keeps : QueueTicket J → Bool) (queue : Queue J) :
    List (QueueTicket J) → List (QueueTicket J) × List (QueueTicket J) × Queue J
  | [] => ([], [], queue)
  | ticket :: rest =>
      if queue.canStart ticket then
        if keeps ticket then
          let (started, waiting, final) := (queue.start ticket).pass keeps rest
          (ticket :: started, waiting, final)
        else ((queue.start ticket).release ticket).pass keeps rest
      else
        let (started, waiting, final) := queue.pass keeps rest
        (started, ticket :: waiting, final)

def run (keeps : QueueTicket J → Bool) (queue : Queue J) : List (QueueTicket J) × Queue J :=
  let (started, waiting, final) := queue.pass keeps queue.pending
  (started, { final with pending := waiting })

def tables (queue : Queue J) : Refyard.Queue J where
  limits := queue.limits
  pending := queue.pending
  running := queue.running
  writers := queue.writers
  readers := queue.readersPerRepository

/-- The tables are those that the running tickets call for, and so is the counter. -/
structure Sound (queue : Queue J) : Prop where
  tables : queue.tables.Sound
  counted : queue.globalRunning = queue.running.size

variable {queue : Queue J} {ticket : QueueTicket J}

theorem tables_start : (queue.start ticket).tables = queue.tables.occupy ticket := by
  unfold start Refyard.Queue.occupy
  cases ticket.mode <;> rfl

theorem canStart_tables (counted : queue.globalRunning = queue.running.size) :
    queue.canStart ticket = queue.tables.canStart ticket := by
  unfold canStart
  rw [counted]
  rfl

theorem tables_release (held : queue.running.get? ticket.id = some ticket) :
    (queue.release ticket).tables = queue.tables.release ticket.id := by
  rw [Refyard.Queue.release_of_running held]
  unfold release Refyard.Queue.vacate
  cases ticket.mode <;> rfl

@[simp] theorem start_globalRunning : (queue.start ticket).globalRunning = queue.globalRunning + 1 := by
  unfold start
  cases ticket.mode <;> rfl

@[simp] theorem release_globalRunning :
    (queue.release ticket).globalRunning = queue.globalRunning - 1 := by
  unfold release
  cases ticket.mode <;> rfl

theorem start_counted (free : queue.running.get? ticket.id = none)
    (counted : queue.globalRunning = queue.running.size) :
    (queue.start ticket).globalRunning = (queue.start ticket).running.size := by
  have same : (queue.start ticket).running = queue.running.insert ticket := by
    unfold start
    cases ticket.mode <;> rfl
  rw [start_globalRunning, same, Table.size_insert free, counted]

theorem sound_new (limits : QueueLimits) : ({ limits } : Queue J).Sound where
  tables := Refyard.Queue.sound_new limits
  counted := rfl

theorem Sound.release (sound : queue.Sound) (held : queue.running.get? ticket.id = some ticket) :
    (queue.release ticket).Sound where
  tables := by
    rw [tables_release held]
    exact sound.tables.release ticket.id
  counted := by
    have erased : (queue.release ticket).running = queue.running.erase ticket.id := by
      unfold Queue.release
      cases ticket.mode <;> rfl
    have size := Table.size_erase held
    have counted := sound.counted
    rw [release_globalRunning, erased]
    omega

theorem pass_tables {keeps : QueueTicket J → Bool} (queue : Queue J)
    (tickets : List (QueueTicket J)) (counted : queue.globalRunning = queue.running.size) (fresh : queue.tables.Fresh tickets)
    (kept : ∀ ticket ∈ tickets, keeps ticket = true) :
    (queue.pass keeps tickets).1 = (queue.tables.scan tickets).1 ∧
      (queue.pass keeps tickets).2.1 = (queue.tables.scan tickets).2.1 ∧
      (queue.pass keeps tickets).2.2.tables = (queue.tables.scan tickets).2.2 ∧
      (queue.pass keeps tickets).2.2.globalRunning = (queue.pass keeps tickets).2.2.running.size := by
  induction tickets generalizing queue with
  | nil => exact ⟨rfl, rfl, rfl, counted⟩
  | cons ticket rest ih =>
    have later : ∀ other ∈ rest, keeps other = true :=
      fun other member => kept other (List.mem_cons_of_mem _ member)
    unfold pass Refyard.Queue.scan
    rw [canStart_tables counted]
    split
    · have free := fresh.idle ticket List.mem_cons_self
      obtain ⟨started, waiting, final, size⟩ := ih (queue.start ticket)
        (start_counted free counted) (tables_start ▸ fresh.occupy) later
      rw [tables_start] at started waiting final
      rw [if_pos (kept ticket List.mem_cons_self)]
      exact ⟨congrArg (List.cons ticket) started, waiting, final, size⟩
    · obtain ⟨started, waiting, final, size⟩ := ih queue counted
        (fresh.sublist (List.sublist_cons_self _ _)) later
      exact ⟨started, congrArg (List.cons ticket) waiting, final, size⟩

theorem run_tables (keeps : QueueTicket J → Bool) (sound : queue.Sound)
    (kept : ∀ ticket ∈ queue.pending, keeps ticket = true) :
    (queue.run keeps).1 = queue.tables.takeStartable.1 ∧
      (queue.run keeps).2.tables = queue.tables.takeStartable.2 ∧ (queue.run keeps).2.Sound := by
  obtain ⟨started, waiting, final, size⟩ :=
    pass_tables queue queue.pending sound.counted sound.tables.fresh kept
  have tables : (queue.run keeps).2.tables = queue.tables.takeStartable.2 := by
    have same : (queue.run keeps).2.tables = { (queue.pass keeps queue.pending).2.2.tables with
          pending := (queue.pass keeps queue.pending).2.1 } := rfl
    rw [same, final, waiting]
    rfl
  refine ⟨started, tables, ?_, size⟩
  rw [tables]
  exact (Refyard.Queue.takeStartable_spec sound.tables).sound

theorem enqueue_cases (queue : Queue J) (id actor repositoryId : String) (mode : QueueMode)
    (job : J) :
    (∃ refusal, queue.enqueue id actor repositoryId mode job = (.error refusal, queue)) ∨
      ∃ ticket : QueueTicket J, ticket.id = id ∧ ticket.actor = actor ∧
        ticket.repositoryId = repositoryId ∧ ticket.mode = mode ∧ ticket.job = job ∧
        queue.enqueue id actor repositoryId mode job =
          (.ok ticket, { queue with pending := queue.pending ++ [ticket] }) := by
  unfold enqueue
  dsimp only
  split
  · exact .inl ⟨_, rfl⟩
  · split
    · exact .inl ⟨_, rfl⟩
    · exact .inr ⟨_, rfl, rfl, rfl, rfl, rfl, rfl⟩

theorem cancel_tables (queue : Queue J) (id : String) : queue.cancel id =
      ((queue.tables.cancel id).1, { queue with pending := (queue.tables.cancel id).2.pending }) := by
  have same : queue.tables.pending = queue.pending := rfl
  unfold cancel Refyard.Queue.cancel
  rw [same]
  split <;> rfl

theorem cancel_cases (queue : Queue J) (id : String) :
    ((∀ ticket ∈ queue.pending, ticket.id ≠ id) ∧ queue.cancel id = (false, queue)) ∨
      ∃ before ticket after, queue.pending = before ++ ticket :: after ∧ ticket.id = id ∧
        queue.cancel id = (true, { queue with pending := before ++ after }) := by
  rw [cancel_tables]
  obtain ⟨absent, same⟩ | ⟨before, ticket, after, parts, named, same⟩ :=
    queue.tables.cancel_cases id
  · exact .inl ⟨absent, by rw [same]; rfl⟩
  · exact .inr ⟨before, ticket, after, parts, named, by rw [same]⟩

end Queue
end Refyard.HostNode
