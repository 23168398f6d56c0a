import Refyard.HostNode.CoordinatorSteps

/-! The coordinator keeps the limits of its queue, runs each operation once and in order, and
leaves nothing behind in the queue that could start. -/
namespace Refyard

variable {J : Type}

theorem writersOf_append (key : String) (front back : List (QueueTicket J)) :
    writersOf key (front ++ back) = writersOf key front ++ writersOf key back :=
  List.filter_append ..

theorem Queue.Valid.canStart_of_idle {queue : Queue J} (valid : queue.Valid)
    (idle : queue.running.values = []) (room : 0 < queue.limits.maxGlobalGitProcesses)
    {ticket : QueueTicket J} (write : ticket.mode = .write) : queue.canStart ticket = true := by
  rw [Queue.canStart_write write]
  rintro (full | writing)
  · have none : queue.running.size = 0 := by
      rw [← Table.length_values, idle, List.length_nil]
    omega
  · rw [valid.writers, idle] at writing
    exact writing rfl

namespace HostNode

def Task.aheadId (task : Task) : Option String :=
  if task.stage = .starting ∨ task.stage = .recorded then some task.id else none

namespace Coordinator

def claims (coordinator : Coordinator) (operationId : String) : Nat :=
  tally Acceptance.id coordinator.acceptances operationId +
    tally QueueTicket.id coordinator.queue.pending operationId +
    tally Task.aheadId coordinator.tasks (some operationId) +
    tally EffectStart.operationId coordinator.history.effects operationId +
    tally (fun cancelled => cancelled) coordinator.history.cancelled operationId

structure Claimed (setting : Setting) (coordinator : Coordinator) : Prop where
  limits : coordinator.queue.limits = {}
  once : ∀ operationId, coordinator.claims operationId ≤ 1
  minted : ∀ operationId, 0 < coordinator.claims operationId →
    ∃ number < coordinator.minted, setting.operationId number = operationId
  inOrder : ∀ key, (writersOf key (coordinator.history.began ++ coordinator.queue.pending)).Sublist
    (writersOf key coordinator.history.enqueued)

/-- Something runs that will pump when it ends, or a pump is scheduled, or nothing waits. -/
def Live (coordinator : Coordinator) : Prop :=
  0 < coordinator.pumps ∨ coordinator.tasks ≠ [] ∨ coordinator.queue.pending = []

structure Quiet (coordinator : Coordinator) : Prop where
  submissions : coordinator.submissions = []
  acceptances : coordinator.acceptances = []
  refusals : coordinator.refusals = []
  tasks : coordinator.tasks = []
  cancellations : coordinator.cancellations = []
  pumps : coordinator.pumps = 0

def runningTickets (coordinator : Coordinator) : List (QueueTicket ParsedMutationRequest) :=
  coordinator.tasks.map Task.ticket

structure QueueKept (coordinator : Coordinator) : Prop where
  oneWriter : ∀ key, writersIn coordinator.runningTickets key ≤ 1
  limited : coordinator.runningTickets.length ≤ coordinator.queue.limits.maxGlobalGitProcesses
  counter : coordinator.queue.globalRunning = coordinator.runningTickets.length
  writers : ∀ key, key ∈ coordinator.queue.writers ↔ writersIn coordinator.runningTickets key ≠ 0
  readers : ∀ key, coordinator.queue.readersOf key = readersIn coordinator.runningTickets key
  executedOnce : (coordinator.history.effects.map EffectStart.operationId).Nodup
  cancelledNever : ∀ operationId ∈ coordinator.history.cancelled,
    operationId ∉ coordinator.history.effects.map EffectStart.operationId
  startOrder : ∀ key, (writersOf key coordinator.history.began).Sublist
    (writersOf key coordinator.history.enqueued)
  drained : coordinator.Quiet → ∀ ticket ∈ coordinator.queue.pending,
    coordinator.queue.canStart ticket = false

/-- A `running` record is rejected only where another task or a scheduled pump is there to
pump again, or nothing waits. -/
def PumpFollows (coordinator : Coordinator) : CoordinatorInput → Prop
  | .recordStart place (.rejected _) =>
      ∀ task ∈ coordinator.tasks[place]?, task.stage = .starting →
        2 ≤ coordinator.tasks.length ∨ 0 < coordinator.pumps ∨ coordinator.queue.pending = []
  | _ => True

variable {setting : Setting} {coordinator changed : Coordinator}

theorem Claimed.of_le (claimed : coordinator.Claimed setting)
    (limits : changed.queue.limits = coordinator.queue.limits)
    (claims : ∀ operationId, changed.claims operationId ≤ coordinator.claims operationId)
    (minted : changed.minted = coordinator.minted)
    (order : ∀ key, (writersOf key (changed.history.began ++ changed.queue.pending)).Sublist
      (writersOf key (coordinator.history.began ++ coordinator.queue.pending)))
    (enqueued : changed.history.enqueued = coordinator.history.enqueued) :
    changed.Claimed setting where
  limits := limits.trans claimed.limits
  once operationId := (claims operationId).trans (claimed.once operationId)
  minted := by
    intro operationId held
    rw [minted]
    exact claimed.minted operationId (held.trans_le (claims operationId))
  inOrder := by
    intro key
    rw [enqueued]
    exact (order key).trans (claimed.inOrder key)

theorem Claimed.frame (claimed : coordinator.Claimed setting)
    (queue : changed.queue = coordinator.queue)
    (acceptances : changed.acceptances = coordinator.acceptances)
    (tasks : changed.tasks = coordinator.tasks) (minted : changed.minted = coordinator.minted)
    (history : changed.history = coordinator.history) : changed.Claimed setting := by
  apply claimed.of_le
  · rw [queue]
  · intro operationId
    unfold claims
    rw [queue, acceptances, tasks, history]
  · exact minted
  · intro key
    rw [queue, history]
  · rw [history]

theorem Claimed.submit (claimed : coordinator.Claimed setting) (actor : String)
    (request : ParsedMutationRequest) :
    (coordinator.submit setting actor request).1.Claimed setting := by
  obtain same | ⟨_, -, -, same⟩ := coordinator.submit_cases setting actor request
  · rw [same]
    exact claimed
  · rw [same]
    exact claimed.frame rfl rfl rfl rfl rfl

theorem Claimed.check (claimed : coordinator.Claimed setting) (place : Nat) (lookups : Lookups)
    (now : Timestamp) : (coordinator.check setting place lookups now).1.Claimed setting := by
  obtain same | ⟨submission, -, same | ⟨-, same⟩⟩ :=
    coordinator.check_cases setting place lookups now
  · rw [same]
    exact claimed
  · rw [same]
    exact claimed.frame rfl rfl rfl rfl rfl
  · rw [same]
    -- the id that is handed out has no claim yet
    have counts : ∀ operationId,
        (coordinator.admitting setting place submission now).claims operationId =
          coordinator.claims operationId +
            if setting.operationId coordinator.minted = operationId then 1 else 0 := by
      intro operationId
      unfold claims admitting
      dsimp only
      rw [tally_concat]
      have named : Acceptance.id ⟨coordinator.acceptedEntry setting submission now,
        submission.request⟩ = setting.operationId coordinator.minted := rfl
      rw [named]
      omega
    have fresh : coordinator.claims (setting.operationId coordinator.minted) = 0 := by
      by_contra held
      obtain ⟨number, below, same⟩ := claimed.minted _ (Nat.pos_of_ne_zero held)
      exact Nat.ne_of_lt below (setting.distinct same)
    refine ⟨claimed.limits, ?_, ?_, claimed.inOrder⟩
    · intro operationId
      rw [counts]
      have once := claimed.once operationId
      split
      · rename_i here
        rw [← here, fresh]
      · exact once
    · intro operationId held
      rw [counts] at held
      split at held
      · rename_i here
        exact ⟨coordinator.minted, Nat.lt_succ_self _, here⟩
      · obtain ⟨number, below, named⟩ := claimed.minted operationId held
        exact ⟨number, Nat.lt_succ_of_lt below, named⟩

variable {place : Nat} {task : Task}
variable {acceptance : Acceptance} (queue : Queue ParsedMutationRequest)

theorem Claimed.answering (claimed : coordinator.Claimed setting)
    (found : coordinator.acceptances[place]? = some acceptance) (appended : Appended) :
    (coordinator.answering place acceptance appended).Claimed setting := by
  refine claimed.of_le rfl ?_ rfl (fun key => List.Sublist.refl _) rfl
  intro operationId
  have erased := tally_eraseIdx Acceptance.id found operationId
  unfold claims Coordinator.answering
  dsimp only
  omega

theorem Claimed.joining (claimed : coordinator.Claimed setting)
    {ticket : QueueTicket ParsedMutationRequest}
    (found : coordinator.acceptances[place]? = some acceptance) (of : TicketOf acceptance ticket) :
    ((coordinator.answering place acceptance .stored).joining acceptance ticket).Claimed setting := by
  have counts : ∀ operationId,
      ((coordinator.answering place acceptance .stored).joining acceptance ticket).claims
        operationId = coordinator.claims operationId := by
    intro operationId
    have erased := tally_eraseIdx Acceptance.id found operationId
    unfold claims Coordinator.joining Coordinator.answering
    dsimp only
    rw [tally_concat, of.named]
    omega
  refine ⟨claimed.limits, ?_, ?_, ?_⟩
  · intro operationId
    rw [counts]
    exact claimed.once operationId
  · intro operationId held
    rw [counts] at held
    exact claimed.minted operationId held
  · intro key
    unfold Coordinator.joining Coordinator.answering
    rw [← List.append_assoc, writersOf_append key _ [ticket], writersOf_append key _ [ticket]]
    exact (claimed.inOrder key).append (List.Sublist.refl _)

theorem Claimed.pump (claimed : coordinator.Claimed setting)
    (tracked : coordinator.Tracked setting) (now : Timestamp) :
    (coordinator.pump now).Claimed setting := by
  obtain ⟨started, tasks, sequence, queue, pumped⟩ := tracked.pumped now
  rw [pumped.same]
  refine claimed.of_le pumped.taken.limits ?_ rfl ?_ rfl
  · intro operationId
    have moved := tally_perm QueueTicket.id pumped.taken.parts operationId
    have ahead : tally Task.aheadId tasks (some operationId) =
        tally QueueTicket.id started operationId := by
      rw [← pumped.tickets, tally_map _]
      apply List.countP_congr
      intro task member
      unfold Task.aheadId
      rw [(pumped.starting task member).stage]
      simp [Task.id]
    have waiting : queue.tables.pending = queue.pending := rfl
    have waited : coordinator.queue.tables.pending = coordinator.queue.pending := rfl
    rw [tally_append, waiting, waited] at moved
    unfold claims
    dsimp only
    rw [tally_append, ahead]
    omega
  · intro key
    rw [List.append_assoc, writersOf_append, writersOf_append, writersOf_append, pumped.inOrder]

theorem Claimed.accept (claimed : coordinator.Claimed setting)
    (tracked : coordinator.Tracked setting) (place : Nat) (appended : Appended) (now : Timestamp) :
    (coordinator.accept place appended now).1.Claimed setting := by
  obtain ⟨same, -⟩ | ⟨acceptance, found, outcome⟩ := coordinator.accept_cases place appended now
  · rw [same]
    exact claimed
  · obtain ⟨-, -, further⟩ := tracked.accepted found appended
    obtain same | ⟨rfl, ⟨refusal, same⟩ | ⟨ticket, of, same⟩⟩ := outcome
    · rw [same]
      exact claimed.answering found appended
    · rw [same]
      exact (claimed.answering found .stored).frame rfl rfl rfl rfl rfl
    · rw [same]
      exact (claimed.joining found of).pump ((further rfl).2 ticket of) now

theorem Claimed.refuse (claimed : coordinator.Claimed setting) (place : Nat)
    (appended : Appended) : (coordinator.refuse place appended).1.Claimed setting := by
  obtain same | ⟨refusal, -, same⟩ := coordinator.refuse_cases place appended
  · rw [same]
    exact claimed
  · rw [same]
    exact claimed.frame rfl rfl rfl rfl rfl

theorem Claimed.cancel (claimed : coordinator.Claimed setting) (actor operationId : String)
    (now : Timestamp) : (coordinator.cancel actor operationId now).1.Claimed setting := by
  obtain same | ⟨entry, before, ticket, after, -, -, -, parts, rfl, same⟩ :=
    coordinator.cancel_cases actor operationId now
  · rw [same]
    exact claimed
  · rw [same]
    refine claimed.of_le rfl ?_ rfl ?_ rfl
    · intro operationId
      unfold claims
      dsimp only
      rw [tally_concat, parts, tally_append, tally_append, tally_cons]
      omega
    · intro key
      rw [parts]
      exact (((List.sublist_cons_self _ _).append_left before).append_left _).filter _

theorem Claimed.recordCancellation (claimed : coordinator.Claimed setting) (place : Nat)
    (appended : Appended) : (coordinator.recordCancellation place appended).Claimed setting := by
  obtain same | ⟨entry, -, same⟩ := coordinator.recordCancellation_cases place appended
  · rw [same]
    exact claimed
  · rw [same]
    exact claimed.frame rfl rfl rfl rfl rfl

theorem Claimed.setTask (claimed : coordinator.Claimed setting)
    (found : coordinator.tasks[place]? = some task) (next : Task)
    (ahead : ∀ operationId, next.aheadId = some operationId → task.aheadId = some operationId)
    (ledger : Ledger) (sequence : Int) : Claimed setting { coordinator with
      ledger, sequence, tasks := coordinator.tasks.set place next } := by
  refine claimed.of_le rfl ?_ rfl (fun key => List.Sublist.refl _) rfl
  intro operationId
  have traded := tally_set Task.aheadId found next (some operationId)
  have less : (if next.aheadId = some operationId then 1 else 0) ≤
      if task.aheadId = some operationId then 1 else 0 := by
    split
    · rename_i claims
      rw [if_pos (ahead operationId claims)]
    · exact Nat.zero_le _
  unfold claims
  dsimp only
  omega

@[simp] theorem release_pending (ticket : QueueTicket ParsedMutationRequest) :
    (queue.release ticket).pending = queue.pending := by
  unfold Queue.release
  cases ticket.mode <;> rfl

@[simp] theorem release_limits (ticket : QueueTicket ParsedMutationRequest) :
    (queue.release ticket).limits = queue.limits := by
  unfold Queue.release
  cases ticket.mode <;> rfl

theorem Claimed.endTask (claimed : coordinator.Claimed setting)
    (found : coordinator.tasks[place]? = some task) (ledger : Ledger)
    (awaitingStart : Table AwaitingStart.operationId) (pumps : Nat) :
    Claimed setting { coordinator with
      ledger
      tasks := coordinator.tasks.eraseIdx place
      awaitingStart
      pumps
      queue := coordinator.queue.release task.ticket } := by
  refine claimed.of_le (release_limits _ _) ?_ rfl ?_ rfl
  · intro operationId
    have erased := tally_eraseIdx Task.aheadId found (some operationId)
    unfold claims
    dsimp only
    rw [release_pending]
    omega
  · intro key
    rw [release_pending]

theorem Claimed.recordStart (claimed : coordinator.Claimed setting) (place : Nat)
    (appended : Appended) : (coordinator.recordStart place appended).Claimed setting := by
  obtain same | ⟨task, found, stage, outcome⟩ := coordinator.recordStart_cases place appended
  · rw [same]
    exact claimed
  · have ahead : task.aheadId = some task.id := by simp [Task.aheadId, stage]
    obtain ⟨landed, -, same⟩ | ⟨-, same⟩ | ⟨-, same⟩ := outcome
    · rw [same]
      exact claimed.endTask found _ _ _
    · rw [same]
      exact claimed.setTask found { task with stage := .recorded }
        (fun _ claims => ahead.trans claims) _ _
    · rw [same]
      exact claimed.setTask found
        { task with entry := unrecorded task.entry, stage := .recorded }
        (fun _ claims => ahead.trans claims) _ _

theorem Claimed.begin (claimed : coordinator.Claimed setting) (place : Nat) (now : Timestamp) :
    (coordinator.begin place now).Claimed setting := by
  obtain same | ⟨task, found, stage, ⟨sequence, same⟩ | same⟩ := coordinator.begin_cases place now
  · rw [same]
    exact claimed
  · rw [same]
    exact claimed.setTask found _ (fun _ claims => by cases claims) _ _
  · rw [same]
    refine claimed.of_le rfl ?_ rfl (fun key => List.Sublist.refl _) rfl
    intro operationId
    have traded := tally_set Task.aheadId found { task with stage := .running }
      (some operationId)
    have ahead : task.aheadId = some task.id := by simp [Task.aheadId, stage]
    have runs : Task.aheadId { task with stage := .running } = none := rfl
    rw [ahead, runs] at traded
    simp only [Option.some_inj, reduceCtorEq, if_false] at traded
    unfold claims
    rw [tally_concat]
    dsimp only
    omega

theorem Claimed.finish (claimed : coordinator.Claimed setting) (place : Nat) (ended : EffectEnd)
    (now : Timestamp) : (coordinator.finish place ended now).Claimed setting := by
  obtain same | ⟨task, sequence, found, -, same⟩ := coordinator.finish_cases place ended now
  · rw [same]
    exact claimed
  · rw [same]
    exact claimed.setTask found _ (fun _ claims => by cases claims) _ _

theorem Claimed.recordOutcome (claimed : coordinator.Claimed setting) (place : Nat)
    (appended : Appended) : (coordinator.recordOutcome place appended).Claimed setting := by
  obtain same | ⟨task, found, -, same⟩ := coordinator.recordOutcome_cases place appended
  · rw [same]
    exact claimed
  · rw [same]
    exact claimed.endTask found _ _ _

theorem Claimed.runPump (claimed : coordinator.Claimed setting)
    (tracked : coordinator.Tracked setting) (now : Timestamp) :
    (coordinator.runPump now).Claimed setting := by
  unfold Coordinator.runPump
  split
  · exact claimed
  · refine Claimed.pump ?_ tracked.pumpFewer now
    exact claimed.frame rfl rfl rfl rfl rfl

theorem Claimed.next (claimed : coordinator.Claimed setting)
    (tracked : coordinator.Tracked setting) (input : CoordinatorInput) :
    ((machine setting).next coordinator input).Claimed setting := by
  cases input with
  | submit actor request => exact claimed.submit actor request
  | check place lookups now => exact claimed.check place lookups now
  | accept place appended now => exact claimed.accept tracked place appended now
  | refuse place appended => exact claimed.refuse place appended
  | cancel actor operationId now => exact claimed.cancel actor operationId now
  | recordCancellation place appended => exact claimed.recordCancellation place appended
  | recordStart place appended => exact claimed.recordStart place appended
  | begin place now => exact claimed.begin place now
  | finish place ended now => exact claimed.finish place ended now
  | recordOutcome place appended => exact claimed.recordOutcome place appended
  | pump now => exact claimed.runPump tracked now
  | compact nowMs | registerEffect kind | resolveBlock repositoryId =>
    exact claimed.frame rfl rfl rfl rfl rfl

theorem Tracked.live_pump (tracked : coordinator.Tracked setting)
    (limits : coordinator.queue.limits = {}) (now : Timestamp) : (coordinator.pump now).Live := by
  have after := tracked.pump now
  obtain ⟨started, tasks, sequence, queue, pumped⟩ := tracked.pumped now
  rw [pumped.same] at after ⊢
  by_cases idle : coordinator.tasks ++ tasks = []
  · refine .inr (.inr ?_)
    refine List.eq_nil_iff_forall_not_mem.mpr fun ticket waits => ?_
    have none : queue.running.values = [] := by
      have running := after.running
      rw [idle] at running
      exact running.eq_nil
    have room : 0 < queue.tables.limits.maxGlobalGitProcesses := by
      rw [pumped.taken.limits]
      have same : coordinator.queue.tables.limits = {} := limits
      rw [same]
      decide
    have starts := pumped.sound.tables.toValid.canStart_of_idle none room
      (after.waiting ticket waits).write
    have stuck := pumped.taken.stuck ticket waits
    rw [stuck] at starts
    cases starts
  · exact .inr (.inl idle)

theorem Live.submit (live : coordinator.Live) (actor : String)
    (request : ParsedMutationRequest) : (coordinator.submit setting actor request).1.Live := by
  obtain same | ⟨_, -, -, same⟩ := coordinator.submit_cases setting actor request
  · rw [same]
    exact live
  · rw [same]
    exact live

theorem Live.check (live : coordinator.Live) (place : Nat) (lookups : Lookups)
    (now : Timestamp) : (coordinator.check setting place lookups now).1.Live := by
  obtain same | ⟨_, -, same | ⟨-, same⟩⟩ :=
    coordinator.check_cases setting place lookups now
  · rw [same]
    exact live
  · rw [same]
    exact live
  · rw [same]
    exact live

theorem Live.accept (live : coordinator.Live) (tracked : coordinator.Tracked setting)
    (limits : coordinator.queue.limits = {}) (place : Nat) (appended : Appended)
    (now : Timestamp) : (coordinator.accept place appended now).1.Live := by
  obtain ⟨same, -⟩ | ⟨acceptance, found, same | ⟨rfl, ⟨_, same⟩ | ⟨ticket, of, same⟩⟩⟩ :=
    coordinator.accept_cases place appended now
  · rw [same]
    exact live
  · rw [same]
    exact live
  · rw [same]
    exact live
  · obtain ⟨-, -, further⟩ := tracked.accepted found .stored
    rw [same]
    exact ((further rfl).2 ticket of).live_pump limits now

theorem Live.refuse (live : coordinator.Live) (place : Nat) (appended : Appended) :
    (coordinator.refuse place appended).1.Live := by
  obtain same | ⟨_, -, same⟩ := coordinator.refuse_cases place appended
  · rw [same]
    exact live
  · rw [same]
    exact live

theorem Live.cancel (live : coordinator.Live) (actor operationId : String) (now : Timestamp) :
    (coordinator.cancel actor operationId now).1.Live := by
  obtain same | ⟨_, before, ticket, after, -, -, -, parts, -, same⟩ :=
    coordinator.cancel_cases actor operationId now
  · rw [same]
    exact live
  · rw [same]
    refine live.imp_right (Or.imp_right fun empty => ?_)
    rw [parts] at empty
    exact absurd empty (by simp)

theorem Live.recordCancellation (live : coordinator.Live) (place : Nat) (appended : Appended) :
    (coordinator.recordCancellation place appended).Live := by
  obtain same | ⟨_, -, same⟩ := coordinator.recordCancellation_cases place appended
  · rw [same]
    exact live
  · rw [same]
    exact live

theorem set_ne_nil (found : coordinator.tasks[place]? = some task) (next : Task) :
    coordinator.tasks.set place next ≠ [] := by
  intro empty
  have within := (List.getElem?_eq_some_iff.mp found).1
  have length := congrArg List.length empty
  rw [List.length_set, List.length_nil] at length
  omega

theorem Live.recordStart (live : coordinator.Live) {appended : Appended}
    (follows : coordinator.PumpFollows (.recordStart place appended)) :
    (coordinator.recordStart place appended).Live := by
  obtain same | ⟨task, found, stage, ⟨landed, rfl, same⟩ | ⟨-, same⟩ | ⟨-, same⟩⟩ :=
    coordinator.recordStart_cases place appended
  · rw [same]
    exact live
  · rw [same]
    unfold Live
    rw [release_pending]
    obtain others | scheduled | empty := follows task found stage
    · refine .inr (.inl fun alone => ?_)
      have within := (List.getElem?_eq_some_iff.mp found).1
      have length := congrArg List.length alone
      rw [List.length_eraseIdx_of_lt within, List.length_nil] at length
      omega
    · exact .inl scheduled
    · exact .inr (.inr empty)
  · rw [same]
    exact .inr (.inl (set_ne_nil found _))
  · rw [same]
    exact .inr (.inl (set_ne_nil found _))

theorem Live.begin (live : coordinator.Live) (place : Nat) (now : Timestamp) :
    (coordinator.begin place now).Live := by
  obtain same | ⟨task, found, -, ⟨_, same⟩ | same⟩ := coordinator.begin_cases place now
  · rw [same]
    exact live
  · rw [same]
    exact .inr (.inl (set_ne_nil found _))
  · rw [same]
    exact .inr (.inl (set_ne_nil found _))

theorem Live.finish (live : coordinator.Live) (place : Nat) (ended : EffectEnd)
    (now : Timestamp) : (coordinator.finish place ended now).Live := by
  obtain same | ⟨task, _, found, -, same⟩ := coordinator.finish_cases place ended now
  · rw [same]
    exact live
  · rw [same]
    exact .inr (.inl (set_ne_nil found _))

theorem Live.recordOutcome (live : coordinator.Live) (place : Nat) (appended : Appended) :
    (coordinator.recordOutcome place appended).Live := by
  obtain same | ⟨task, found, -, same⟩ := coordinator.recordOutcome_cases place appended
  · rw [same]
    exact live
  · rw [same]
    exact .inl (Nat.succ_pos _)

theorem Live.runPump (live : coordinator.Live) (tracked : coordinator.Tracked setting)
    (limits : coordinator.queue.limits = {}) (now : Timestamp) :
    (coordinator.runPump now).Live := by
  unfold Coordinator.runPump
  split
  · exact live
  · exact tracked.pumpFewer.live_pump limits now

theorem Live.next (live : coordinator.Live) (tracked : coordinator.Tracked setting)
    (limits : coordinator.queue.limits = {}) {input : CoordinatorInput}
    (follows : coordinator.PumpFollows input) :
    ((machine setting).next coordinator input).Live := by
  cases input with
  | submit actor request => exact live.submit actor request
  | check place lookups now => exact live.check place lookups now
  | accept place appended now => exact live.accept tracked limits place appended now
  | refuse place appended => exact live.refuse place appended
  | cancel actor operationId now => exact live.cancel actor operationId now
  | recordCancellation place appended => exact live.recordCancellation place appended
  | recordStart place appended => exact live.recordStart follows
  | begin place now => exact live.begin place now
  | finish place ended now => exact live.finish place ended now
  | recordOutcome place appended => exact live.recordOutcome place appended
  | pump now => exact live.runPump tracked limits now
  | compact nowMs | registerEffect kind | resolveBlock repositoryId => exact live

theorem queueKept_of (tracked : coordinator.Tracked setting)
    (claimed : coordinator.Claimed setting) (live : coordinator.Live) : coordinator.QueueKept where
  oneWriter := by
    intro key
    unfold runningTickets
    rw [← writersIn_perm tracked.running]
    exact tracked.queue.tables.oneWriter key
  limited := by
    have few := tracked.queue.tables.fewRunning
    have size : coordinator.queue.tables.running.size = coordinator.runningTickets.length := by
      rw [← Table.length_values]
      exact tracked.running.length_eq
    rw [size] at few
    exact few
  counter := by
    rw [tracked.queue.counted, ← Table.length_values]
    exact tracked.running.length_eq
  writers := by
    intro key
    unfold runningTickets
    rw [← writersIn_perm tracked.running]
    exact tracked.queue.tables.writers key
  readers := by
    intro key
    unfold runningTickets
    rw [← readersIn_perm tracked.running]
    exact tracked.queue.tables.toValid.readersOf_eq key
  executedOnce := by
    rw [← tally_le_one]
    intro operationId
    have once := claimed.once operationId
    unfold claims at once
    omega
  cancelledNever := by
    intro operationId cancelled executed
    obtain ⟨start, member, rfl⟩ := List.mem_map.mp executed
    have counted := tally_pos_of_mem EffectStart.operationId member
    have twice := tally_pos_of_mem (fun cancelled => cancelled) cancelled
    have once := claimed.once start.operationId
    unfold claims at once
    omega
  startOrder := by
    intro key
    have inOrder := claimed.inOrder key
    rw [writersOf_append] at inOrder
    exact (List.sublist_append_left _ _).trans inOrder
  drained := by
    intro quiet ticket waits
    obtain scheduled | running | empty := live
    · exact absurd quiet.pumps (Nat.ne_of_gt scheduled)
    · exact absurd quiet.tasks running
    · rw [empty] at waits
      cases waits

end Coordinator

open Coordinator

theorem Opening.claimed {setting : Setting} (opening : Opening setting) :
    opening.coordinator.Claimed setting where
  limits := rfl
  once _ := Nat.zero_le _
  minted _ held := absurd held (Nat.lt_irrefl 0)
  inOrder _ := List.Sublist.refl _

/-- Where a rejected `running` record is always followed by another pump, every state of every
run keeps the queue, whatever the order of the steps and however appends and effects end. -/
theorem queue_kept {setting : Setting} (opening : Opening setting) (inputs : List CoordinatorInput)
    (follows : (machine setting).Meets PumpFollows opening.coordinator inputs) :
    ((machine setting).after opening.coordinator inputs).QueueKept := by
  have holds := (machine setting).invariant_of_step
    (fun coordinator => coordinator.Tracked setting ∧ coordinator.Claimed setting ∧ coordinator.Live)
    (fun _ input held follows => ⟨held.1.next input, held.2.1.next held.1 input,
      held.2.2.next held.1 held.2.1.limits follows⟩)
    ⟨opening.tracked, opening.claimed, .inr (.inr rfl)⟩ follows
  exact queueKept_of holds.1 holds.2.1 holds.2.2

/-- Two operations of one repository are accepted, and the first one's `running` record is
answered. -/
def twoWrites (appended : Appended) : List CoordinatorInput :=
  [.submit "user" (workspaceRequest "one"), .submit "user" (workspaceRequest "two"),
    .check 0 noLookups epoch, .check 0 noLookups epoch, .accept 0 .stored epoch,
    .accept 0 .stored epoch, .recordStart 0 appended]

theorem queue_kept_two_writes :
    ((machine sampleSetting).after sampleOpening.coordinator (twoWrites .stored)).QueueKept :=
  queue_kept sampleOpening (twoWrites .stored)
    ⟨trivial, trivial, trivial, trivial, trivial, trivial, trivial, trivial⟩

/-- Where that append is rejected the slot is free and the second operation could start, but
nothing is left that would start it. -/
theorem queue_stranded : ¬ ((machine sampleSetting).after sampleOpening.coordinator
      (twoWrites (.rejected false))).QueueKept := by
  intro kept
  have starts : ((machine sampleSetting).after sampleOpening.coordinator
      (twoWrites (.rejected false))).queue.pending.map
        ((machine sampleSetting).after sampleOpening.coordinator
          (twoWrites (.rejected false))).queue.canStart = [true] := by decide
  have quiet : ((machine sampleSetting).after sampleOpening.coordinator
      (twoWrites (.rejected false))).Quiet := by
    constructor <;> first | exact List.length_eq_zero_iff.mp (by decide) | decide
  generalize (machine sampleSetting).after sampleOpening.coordinator
    (twoWrites (.rejected false)) = state at kept starts quiet
  obtain ⟨ticket, single⟩ : ∃ ticket, state.queue.pending = [ticket] :=
    List.length_eq_one_iff.mp (by simpa using congrArg List.length starts)
  have stuck := kept.drained quiet ticket (single ▸ List.mem_singleton_self ticket)
  rw [single, List.map_singleton, List.singleton_inj] at starts
  exact absurd (starts.symm.trans stuck) (by decide)

end HostNode
end Refyard
