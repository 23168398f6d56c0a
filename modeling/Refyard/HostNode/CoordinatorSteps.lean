import Refyard.Foundation.Tally
import Refyard.HostNode.Coordinator
import Refyard.HostNode.JournalFile

/-! What every step of the coordinator keeps: each operation is in one place, the journal knows
every operation that is under way, and the queue's tables are those of the tasks. -/
namespace Refyard.HostNode

namespace Ledger

variable {ledger : Ledger} {entry : JournalEntry} {appended : Appended} {operationId : String}

theorem get_append : (ledger.append entry appended).get operationId =
      if appended = .stored ∧ entry.operationId = operationId then some entry
      else ledger.get operationId := by
  unfold append get
  by_cases stored : appended = .stored
  · simp only [stored, if_true, true_and]
    exact InsertionMap.get?_set _ _ _
  · simp only [stored, if_false, false_and]

theorem get_append_of_ne (other : entry.operationId ≠ operationId) :
    (ledger.append entry appended).get operationId = ledger.get operationId := by
  rw [get_append, if_neg fun same => other same.2]

theorem get_append_stored : (ledger.append entry .stored).get entry.operationId = some entry := by
  rw [get_append, if_pos ⟨rfl, rfl⟩]

theorem lastOf_append_of_ne (other : entry.operationId ≠ operationId) :
    lastOf JournalEntry.operationId (ledger.append entry appended).log operationId =
      lastOf JournalEntry.operationId ledger.log operationId := by
  unfold append
  dsimp only
  split
  · rw [lastOf_concat, if_neg other]
  · rfl

theorem lastOf_append_landed (landed : appended.landed = true) :
    lastOf JournalEntry.operationId (ledger.append entry appended).log entry.operationId =
      some entry := by
  unfold append
  dsimp only
  rw [if_pos landed, lastOf_concat, if_pos rfl]

theorem not_mayPrune_of_unfinished {nowMs : Int} {policy : RetentionPolicy}
    (unfinished : isUnfinished entry.status = true) : mayPruneRecord entry nowMs policy = false := by
  have cases : entry.status = "accepted" ∨ entry.status = "running" := by
    simpa [isUnfinished] using unfinished
  unfold mayPruneRecord
  rcases cases with same | same <;> simp [same, isTerminalStatus]

theorem get_compact (policy : RetentionPolicy) (nowMs : Int) :
    (ledger.compact policy nowMs).get operationId =
      (ledger.get operationId).filter fun entry => !mayPruneRecord entry nowMs policy := by
  unfold compact get
  split
  · dsimp only
    rw [InsertionMap.get?_ofList, lastOf_keptEntries]
  · rename_i none_expired
    cases found : ledger.entries.get? operationId with
    | none => rfl
    | some entry =>
      have member := (InsertionMap.get?_eq_some.mp found).1
      rw [Option.filter_some, if_pos]
      simp only [List.any_eq_true, not_exists, not_and] at none_expired
      simpa using none_expired entry member

theorem log_compact (ledger : Ledger) (policy : RetentionPolicy) (nowMs : Int) :
    (ledger.compact policy nowMs).log = ledger.log := by
  unfold compact
  split <;> rfl

theorem get_compact_unfinished {policy : RetentionPolicy} {nowMs : Int}
    (held : ledger.get operationId = some entry) (unfinished : isUnfinished entry.status = true) :
    (ledger.compact policy nowMs).get operationId = some entry := by
  rw [get_compact, held, Option.filter_some, not_mayPrune_of_unfinished unfinished]
  rfl

end Ledger

namespace Coordinator

def owners (coordinator : Coordinator) (operationId : String) : Nat :=
  tally Acceptance.id coordinator.acceptances operationId +
    tally Refusal.id coordinator.refusals operationId +
    tally QueueTicket.id coordinator.queue.pending operationId +
    tally Task.id coordinator.tasks operationId +
    tally JournalEntry.operationId coordinator.cancellations operationId

/-- The records of operations that have left the state in which they were accepted, or that
their submission has to take back. -/
def underWay (coordinator : Coordinator) : List JournalEntry :=
  coordinator.refusals.map Refusal.entry ++ coordinator.tasks.map Task.entry ++
    coordinator.cancellations

/-- The journal holds the operation of the record, unfinished and for the same request. -/
def Backs (ledger : Ledger) (entry : JournalEntry) : Prop :=
  ∃ held, ledger.get entry.operationId = some held ∧ Ledger.isUnfinished held.status = true ∧
    held.actor = entry.actor ∧ held.clientRequestId = entry.clientRequestId

/-- The operation of a waiting ticket is on record as accepted, and may start. -/
structure Waits (coordinator : Coordinator) (ticket : QueueTicket ParsedMutationRequest) : Prop where
  write : ticket.mode = .write
  awaited : coordinator.awaitingStart.contains ticket.id = true
  accepted : ∃ entry, coordinator.ledger.get ticket.id = some entry ∧ entry.status = "accepted"

structure Tracked (setting : Setting) (coordinator : Coordinator) : Prop where
  single : ∀ operationId, coordinator.owners operationId ≤ 1
  minted : ∀ operationId, 0 < coordinator.owners operationId →
    ∃ number < coordinator.minted, setting.operationId number = operationId
  unminted : ∀ number, coordinator.minted ≤ number →
    coordinator.ledger.get (setting.operationId number) = none
  unrecorded : ∀ acceptance ∈ coordinator.acceptances,
    acceptance.entry.status = "accepted" ∧ coordinator.ledger.get acceptance.id = none
  queue : coordinator.queue.Sound
  running : coordinator.queue.running.values.Perm (coordinator.tasks.map Task.ticket)
  named : ∀ task ∈ coordinator.tasks, task.entry.operationId = task.id
  waiting : ∀ ticket ∈ coordinator.queue.pending, coordinator.Waits ticket
  backed : ∀ entry ∈ coordinator.underWay, Backs coordinator.ledger entry
  starting : ∀ task ∈ coordinator.tasks, task.stage = .starting → task.entry.status = "running"

variable {setting : Setting} {coordinator : Coordinator}
variable {acceptance : Acceptance} {ticket : QueueTicket ParsedMutationRequest} {task : Task}
  {entry : JournalEntry} {place : Nat}

theorem owners_of_acceptance (member : acceptance ∈ coordinator.acceptances) :
    0 < coordinator.owners acceptance.id := by
  have counted := tally_pos_of_mem Acceptance.id member
  unfold owners
  omega

theorem owners_of_pending (member : ticket ∈ coordinator.queue.pending) :
    0 < coordinator.owners ticket.id := by
  have counted := tally_pos_of_mem QueueTicket.id member
  unfold owners
  omega

theorem owners_of_task (member : task ∈ coordinator.tasks) : 0 < coordinator.owners task.id := by
  have counted := tally_pos_of_mem Task.id member
  unfold owners
  omega

theorem Tracked.owners_of_underWay (tracked : coordinator.Tracked setting)
    (member : entry ∈ coordinator.underWay) : 0 < coordinator.owners entry.operationId := by
  unfold underWay at member
  rw [List.mem_append, List.mem_append] at member
  rcases member with (refused | began) | cancelled
  · obtain ⟨refusal, inside, rfl⟩ := List.mem_map.mp refused
    have counted := tally_pos_of_mem Refusal.id inside
    unfold owners
    unfold Refusal.id at counted ⊢
    omega
  · obtain ⟨task, inside, rfl⟩ := List.mem_map.mp began
    rw [tracked.named task inside]
    exact owners_of_task inside
  · have counted := tally_pos_of_mem JournalEntry.operationId cancelled
    unfold owners
    omega

theorem Tracked.owners_next (tracked : coordinator.Tracked setting) :
    coordinator.owners (setting.operationId coordinator.minted) = 0 := by
  by_contra held
  obtain ⟨number, below, same⟩ := tracked.minted _ (Nat.pos_of_ne_zero held)
  exact Nat.ne_of_lt below (setting.distinct same)

/-- An append answers for an operation that is in no place but its own, and leaves it as it
has to be for those that stay. -/
theorem Tracked.append (tracked : coordinator.Tracked setting) (appended : Appended)
    (old : ∃ number < coordinator.minted, setting.operationId number = entry.operationId)
    (recording : ∀ acceptance ∈ coordinator.acceptances, entry.operationId ≠ acceptance.id)
    (started : ∀ ticket ∈ coordinator.queue.pending, entry.operationId ≠ ticket.id)
    (own : ∀ other ∈ coordinator.underWay, entry.operationId = other.operationId →
      Ledger.isUnfinished entry.status = true ∧ entry.actor = other.actor ∧
        entry.clientRequestId = other.clientRequestId) :
    Tracked setting { coordinator with ledger := coordinator.ledger.append entry appended } where
  single := tracked.single
  minted := tracked.minted
  unminted := by
    intro number above
    obtain ⟨earlier, below, same⟩ := old
    have differs : entry.operationId ≠ setting.operationId number := by
      intro also
      have equal := setting.distinct (same.trans also)
      dsimp only at above
      omega
    rw [Ledger.get_append_of_ne differs]
    exact tracked.unminted number above
  unrecorded := by
    intro acceptance member
    obtain ⟨accepted, absent⟩ := tracked.unrecorded acceptance member
    refine ⟨accepted, ?_⟩
    rw [Ledger.get_append_of_ne (recording acceptance member)]
    exact absent
  queue := tracked.queue
  running := tracked.running
  named := tracked.named
  waiting := by
    intro ticket member
    have waits := tracked.waiting ticket member
    refine ⟨waits.write, waits.awaited, ?_⟩
    rw [Ledger.get_append_of_ne (started ticket member)]
    exact waits.accepted
  backed := by
    intro other member
    obtain ⟨held, found, unfinished, actor, request⟩ := tracked.backed other member
    unfold Backs
    rw [Ledger.get_append]
    split
    · rename_i answers
      obtain ⟨stays, sameActor, sameRequest⟩ := own other member answers.2
      exact ⟨entry, rfl, stays, sameActor, sameRequest⟩
    · exact ⟨held, found, unfinished, actor, request⟩
  starting := tracked.starting

theorem Tracked.append_free (tracked : coordinator.Tracked setting) (appended : Appended)
    (old : ∃ number < coordinator.minted, setting.operationId number = entry.operationId)
    (free : coordinator.owners entry.operationId = 0) :
    Tracked setting { coordinator with ledger := coordinator.ledger.append entry appended } := by
  apply tracked.append appended old
  · intro acceptance member same
    have held := owners_of_acceptance member
    rw [← same] at held
    omega
  · intro ticket member same
    have held := owners_of_pending member
    rw [← same] at held
    omega
  · intro other member same
    have held := tracked.owners_of_underWay member
    rw [← same] at held
    omega

theorem Tracked.fewer (tracked : coordinator.Tracked setting) {acceptances : List Acceptance}
    {refusals : List Refusal} {cancellations : List JournalEntry}
    (accepting : acceptances.Sublist coordinator.acceptances)
    (refusing : refusals.Sublist coordinator.refusals)
    (cancelling : cancellations.Sublist coordinator.cancellations) :
    Tracked setting { coordinator with acceptances, refusals, cancellations } := by
  have counts : ∀ operationId, owners { coordinator with acceptances, refusals, cancellations }
      operationId ≤ coordinator.owners operationId := by
    intro operationId
    have first : tally Acceptance.id acceptances operationId ≤
        tally Acceptance.id coordinator.acceptances operationId := accepting.countP_le
    have second : tally Refusal.id refusals operationId ≤
        tally Refusal.id coordinator.refusals operationId := refusing.countP_le
    have third : tally JournalEntry.operationId cancellations operationId ≤
        tally JournalEntry.operationId coordinator.cancellations operationId := cancelling.countP_le
    unfold owners
    dsimp only
    omega
  refine ⟨?_, ?_, tracked.unminted, ?_, tracked.queue, tracked.running, tracked.named, ?_, ?_,
    tracked.starting⟩
  · intro operationId
    exact (counts operationId).trans (tracked.single operationId)
  · intro operationId held
    exact tracked.minted operationId (held.trans_le (counts operationId))
  · intro acceptance member
    exact tracked.unrecorded acceptance (accepting.subset member)
  · exact fun ticket member => { tracked.waiting ticket member with }
  · intro entry member
    apply tracked.backed entry
    unfold underWay at member ⊢
    simp only [List.mem_append] at member ⊢
    rcases member with (refused | began) | cancelled
    · exact .inl (.inl ((refusing.map _).subset refused))
    · exact .inl (.inr began)
    · exact .inr (cancelling.subset cancelled)

theorem Tracked.setTask (tracked : coordinator.Tracked setting)
    (found : coordinator.tasks[place]? = some task) (next : Task)
    (ticket : next.ticket = task.ticket)
    (operation : next.entry.operationId = task.entry.operationId)
    (actor : next.entry.actor = task.entry.actor)
    (request : next.entry.clientRequestId = task.entry.clientRequestId)
    (further : next.stage ≠ .starting) (sequence : Int) (history : History) :
    let changed := { coordinator with tasks := coordinator.tasks.set place next, sequence, history }
    changed.Tracked setting := by
  intro changed
  have running := List.mem_of_getElem? found
  have same : ∀ operationId, changed.owners operationId = coordinator.owners operationId := by
    intro operationId
    have traded := tally_set Task.id found next operationId
    have named : next.id = task.id := by rw [Task.id, ticket, Task.id]
    rw [named] at traded
    unfold owners
    dsimp only [changed]
    omega
  refine ⟨?_, ?_, tracked.unminted, tracked.unrecorded, tracked.queue, ?_, ?_, ?_, ?_, ?_⟩
  · intro operationId
    rw [same]
    exact tracked.single operationId
  · intro operationId held
    rw [same] at held
    exact tracked.minted operationId held
  · have tickets : (coordinator.tasks.set place next).map Task.ticket =
        coordinator.tasks.map Task.ticket := map_set_of_eq found ticket
    rw [tickets]
    exact tracked.running
  · intro other member
    rcases List.mem_or_eq_of_mem_set member with inside | rfl
    · exact tracked.named other inside
    · rw [operation, tracked.named task running, Task.id, Task.id, ticket]
  · exact fun ticket member => { tracked.waiting ticket member with }
  · intro entry member
    unfold underWay at member
    simp only [List.mem_append] at member
    have before : ∀ other ∈ coordinator.underWay, Backs coordinator.ledger other := tracked.backed
    unfold underWay at before
    simp only [List.mem_append] at before
    rcases member with (refused | began) | cancelled
    · exact before entry (.inl (.inl refused))
    · obtain ⟨other, inside, rfl⟩ := List.mem_map.mp began
      rcases List.mem_or_eq_of_mem_set inside with earlier | rfl
      · exact before _ (.inl (.inr (List.mem_map_of_mem earlier)))
      · have backs := before _ (.inl (.inr (List.mem_map_of_mem running)))
        unfold Backs at backs ⊢
        rw [operation, actor, request]
        exact backs
    · exact before entry (.inr cancelled)
  · intro other member stage
    rcases List.mem_or_eq_of_mem_set member with inside | rfl
    · exact tracked.starting other inside stage
    · exact absurd stage further

theorem Tracked.endTask (tracked : coordinator.Tracked setting)
    (found : coordinator.tasks[place]? = some task)
    (awaitingStart : Table AwaitingStart.operationId)
    (awaits : ∀ operationId, operationId ≠ task.id →
      coordinator.awaitingStart.contains operationId = true →
        awaitingStart.contains operationId = true) (pumps : Nat) :
    let ended := { coordinator with
      tasks := coordinator.tasks.eraseIdx place
      awaitingStart
      pumps
      queue := coordinator.queue.release task.ticket }
    ended.Tracked setting ∧ ended.owners task.id = 0 := by
  intro ended
  have member := List.mem_of_getElem? found
  have runs : coordinator.queue.running.get? task.ticket.id = some task.ticket :=
    Table.mem_values.mp (tracked.running.mem_iff.mpr (List.mem_map_of_mem member))
  have pending : (coordinator.queue.release task.ticket).pending = coordinator.queue.pending := by
    unfold Queue.release
    cases task.ticket.mode <;> rfl
  have running : (coordinator.queue.release task.ticket).running =
      coordinator.queue.running.erase task.ticket.id := by
    unfold Queue.release
    cases task.ticket.mode <;> rfl
  have counts : ∀ operationId, coordinator.owners operationId =
      ended.owners operationId + if task.id = operationId then 1 else 0 := by
    intro operationId
    have erased := tally_eraseIdx Task.id found operationId
    unfold owners
    dsimp only [ended]
    rw [pending]
    omega
  have gone : ended.owners task.id = 0 := by
    have before := counts task.id
    have single := tracked.single task.id
    rw [if_pos rfl] at before
    omega
  refine ⟨⟨?_, ?_, tracked.unminted, tracked.unrecorded, tracked.queue.release runs, ?_, ?_, ?_, ?_,
    ?_⟩, gone⟩
  · intro operationId
    have before := counts operationId
    have single := tracked.single operationId
    omega
  · intro operationId held
    have before := counts operationId
    exact tracked.minted operationId (by omega)
  · have parts := (tracked.running.symm.trans (Table.values_erase_perm runs))
    have left : (coordinator.tasks.map Task.ticket).Perm
        (task.ticket :: (coordinator.tasks.eraseIdx place).map Task.ticket) := by
      obtain ⟨within, here⟩ := List.getElem?_eq_some_iff.mp found
      have split := (List.getElem_cons_eraseIdx_perm within).map Task.ticket
      rw [here] at split
      exact split.symm
    rw [running]
    exact (List.perm_cons _).mp (parts.symm.trans left)
  · intro other inside
    exact tracked.named other (List.mem_of_mem_eraseIdx inside)
  · intro ticket inside
    rw [pending] at inside
    have waits := tracked.waiting ticket inside
    refine ⟨waits.write, awaits ticket.id ?_ waits.awaited, waits.accepted⟩
    intro same
    have counted := tally_pos_of_mem QueueTicket.id inside
    have twice := tally_pos_of_mem Task.id member
    have single := tracked.single task.id
    rw [same] at counted
    unfold owners at single
    omega
  · intro entry inside
    apply tracked.backed entry
    unfold underWay at inside ⊢
    simp only [List.mem_append] at inside ⊢
    rcases inside with (refused | began) | cancelled
    · exact .inl (.inl refused)
    · obtain ⟨other, stays, rfl⟩ := List.mem_map.mp began
      exact .inl (.inr (List.mem_map_of_mem (List.mem_of_mem_eraseIdx stays)))
    · exact .inr cancelled
  · intro other inside
    exact tracked.starting other (List.mem_of_mem_eraseIdx inside)

theorem Tracked.join (tracked : coordinator.Tracked setting) (refusals : List Refusal)
    (cancellations : List JournalEntry)
    (once : ∀ operationId, tally Refusal.id refusals operationId +
      tally JournalEntry.operationId cancellations operationId ≤ 1)
    (free : ∀ operationId, 0 < tally Refusal.id refusals operationId +
        tally JournalEntry.operationId cancellations operationId →
      coordinator.owners operationId = 0 ∧
        ∃ number < coordinator.minted, setting.operationId number = operationId)
    (backs : ∀ entry ∈ refusals.map Refusal.entry ++ cancellations,
      Backs coordinator.ledger entry) (sequence : Int) (history : History) :
    let joined := { coordinator with
      refusals := coordinator.refusals ++ refusals
      cancellations := coordinator.cancellations ++ cancellations
      sequence
      history }
    joined.Tracked setting := by
  intro joined
  have counts : ∀ operationId, joined.owners operationId = coordinator.owners operationId +
      (tally Refusal.id refusals operationId +
        tally JournalEntry.operationId cancellations operationId) := by
    intro operationId
    unfold owners
    dsimp only [joined]
    rw [tally_append, tally_append]
    omega
  refine ⟨?_, ?_, tracked.unminted, tracked.unrecorded, tracked.queue, tracked.running,
    tracked.named, ?_, ?_, tracked.starting⟩
  · intro operationId
    rw [counts]
    have single := tracked.single operationId
    have joins := free operationId
    have few := once operationId
    omega
  · intro operationId held
    rw [counts] at held
    by_cases joins : 0 < tally Refusal.id refusals operationId +
        tally JournalEntry.operationId cancellations operationId
    · exact (free operationId joins).2
    · exact tracked.minted operationId (by omega)
  · exact fun ticket member => { tracked.waiting ticket member with }
  · intro entry member
    have before := tracked.backed entry
    unfold underWay at member before
    simp only [joined, List.map_append, List.mem_append] at member before backs
    rcases member with ((refused | joins) | began) | (cancelled | joins)
    · exact before (.inl (.inl refused))
    · exact backs entry (.inl joins)
    · exact before (.inl (.inr began))
    · exact before (.inr cancelled)
    · exact backs entry (.inr joins)

theorem Tracked.enqueue (tracked : coordinator.Tracked setting)
    (free : coordinator.owners ticket.id = 0)
    (old : ∃ number < coordinator.minted, setting.operationId number = ticket.id)
    (write : ticket.mode = .write)
    (accepted : ∃ entry, coordinator.ledger.get ticket.id = some entry ∧ entry.status = "accepted")
    (awaiting : AwaitingStart) (named : awaiting.operationId = ticket.id) (history : History) :
    let queued := { coordinator with
      queue := { coordinator.queue with pending := coordinator.queue.pending ++ [ticket] }
      awaitingStart := coordinator.awaitingStart.insert awaiting
      history }
    queued.Tracked setting := by
  intro queued
  have counts : ∀ operationId, queued.owners operationId =
      coordinator.owners operationId + if ticket.id = operationId then 1 else 0 := by
    intro operationId
    unfold owners
    dsimp only [queued]
    rw [tally_concat]
    omega
  have awaits : ∀ operationId, (coordinator.awaitingStart.insert awaiting).contains operationId =
      (decide (operationId = ticket.id) || coordinator.awaitingStart.contains operationId) := by
    intro operationId
    unfold Table.contains
    rw [Table.get?_insert, named]
    split <;> simp_all
  refine ⟨?_, ?_, tracked.unminted, tracked.unrecorded, ⟨?_, tracked.queue.counted⟩,
    tracked.running, tracked.named, ?_, tracked.backed, tracked.starting⟩
  · intro operationId
    rw [counts]
    have single := tracked.single operationId
    split
    · rename_i same
      rw [← same, free]
    · exact single
  · intro operationId held
    rw [counts] at held
    split at held
    · rename_i same
      rw [← same]
      exact old
    · exact tracked.minted operationId held
  · apply tracked.queue.tables.joined
    · -- a running ticket is that of a task
      refine Option.eq_none_iff_forall_ne_some.mpr fun other runs => ?_
      have same := Table.key_of_get? runs
      have member := tracked.running.mem_iff.mp (Table.mem_values_of_get? runs)
      obtain ⟨task, inside, ran⟩ := List.mem_map.mp member
      have held := owners_of_task inside
      rw [Task.id, ran, same] at held
      omega
    · intro other member same
      have held := owners_of_pending member
      rw [same] at held
      omega
  · intro other member
    rw [List.mem_append, List.mem_singleton] at member
    rcases member with waits | rfl
    · have waits := tracked.waiting other waits
      refine ⟨waits.write, ?_, waits.accepted⟩
      rw [awaits, waits.awaited, Bool.or_true]
    · refine ⟨write, ?_, accepted⟩
      rw [awaits, decide_eq_true rfl, Bool.true_or]

theorem Tracked.unqueue (tracked : coordinator.Tracked setting)
    {before after : List (QueueTicket ParsedMutationRequest)}
    (parts : coordinator.queue.pending = before ++ ticket :: after) :
    let left := { coordinator with
      queue := { coordinator.queue with pending := before ++ after }
      awaitingStart := coordinator.awaitingStart.erase ticket.id }
    left.Tracked setting ∧ left.owners ticket.id = 0 := by
  intro left
  have counts : ∀ operationId, coordinator.owners operationId =
      left.owners operationId + if ticket.id = operationId then 1 else 0 := by
    intro operationId
    unfold owners
    dsimp only [left]
    rw [parts, tally_append, tally_cons, tally_append]
    omega
  have gone : left.owners ticket.id = 0 := by
    have held := counts ticket.id
    have single := tracked.single ticket.id
    rw [if_pos rfl] at held
    omega
  have fewer : (before ++ after).Sublist coordinator.queue.pending := by
    rw [parts]
    exact (List.sublist_cons_self _ _).append_left _
  refine ⟨⟨?_, ?_, tracked.unminted, tracked.unrecorded,
    ⟨tracked.queue.tables.fewer fewer, tracked.queue.counted⟩, tracked.running, tracked.named, ?_,
    tracked.backed, tracked.starting⟩, gone⟩
  · intro operationId
    have held := counts operationId
    have single := tracked.single operationId
    omega
  · intro operationId held
    have before := counts operationId
    exact tracked.minted operationId (by omega)
  · intro other member
    have waits := tracked.waiting other (fewer.subset member)
    have differs : other.id ≠ ticket.id := by
      intro same
      have counted := tally_pos_of_mem QueueTicket.id member
      rw [same] at counted
      unfold owners at gone
      omega
    refine ⟨waits.write, ?_, waits.accepted⟩
    have awaited := waits.awaited
    unfold Table.contains at awaited ⊢
    rw [Table.get?_erase, if_neg differs]
    exact awaited

theorem Tracked.mint (tracked : coordinator.Tracked setting) (acceptance : Acceptance)
    (named : acceptance.id = setting.operationId coordinator.minted)
    (accepted : acceptance.entry.status = "accepted")
    (submissions : List Submission) (sequence : Int) :
    let admitted := { coordinator with
      submissions
      minted := coordinator.minted + 1
      sequence
      acceptances := coordinator.acceptances ++ [acceptance] }
    admitted.Tracked setting := by
  intro admitted
  have counts : ∀ operationId, admitted.owners operationId =
      coordinator.owners operationId + if acceptance.id = operationId then 1 else 0 := by
    intro operationId
    unfold owners
    dsimp only [admitted]
    rw [tally_concat]
    omega
  have free := tracked.owners_next
  refine ⟨?_, ?_, ?_, ?_, tracked.queue, tracked.running, tracked.named, ?_, tracked.backed,
    tracked.starting⟩
  · intro operationId
    rw [counts]
    have single := tracked.single operationId
    split
    · rename_i same
      rw [← same, named, free]
    · exact single
  · intro operationId held
    rw [counts] at held
    split at held
    · rename_i same
      exact ⟨coordinator.minted, Nat.lt_succ_self _, named.symm.trans same⟩
    · obtain ⟨number, below, same⟩ := tracked.minted operationId held
      exact ⟨number, Nat.lt_succ_of_lt below, same⟩
  · intro number above
    exact tracked.unminted number (Nat.le_of_succ_le above)
  · intro other member
    rw [List.mem_append, List.mem_singleton] at member
    rcases member with earlier | rfl
    · exact tracked.unrecorded other earlier
    · refine ⟨accepted, ?_⟩
      rw [named]
      exact tracked.unminted coordinator.minted (Nat.le_refl _)
  · exact fun ticket member => { tracked.waiting ticket member with }

theorem Tracked.compact (tracked : coordinator.Tracked setting) (policy : RetentionPolicy)
    (nowMs : Int) :
    Tracked setting { coordinator with ledger := coordinator.ledger.compact policy nowMs } where
  single := tracked.single
  minted := tracked.minted
  unminted := by
    intro number above
    rw [Ledger.get_compact, tracked.unminted number above]
    rfl
  unrecorded := by
    intro acceptance member
    obtain ⟨accepted, absent⟩ := tracked.unrecorded acceptance member
    refine ⟨accepted, ?_⟩
    rw [Ledger.get_compact, absent]
    rfl
  queue := tracked.queue
  running := tracked.running
  named := tracked.named
  waiting := by
    intro ticket member
    have waits := tracked.waiting ticket member
    obtain ⟨entry, held, accepted⟩ := waits.accepted
    refine ⟨waits.write, waits.awaited, entry, ?_, accepted⟩
    exact Ledger.get_compact_unfinished held (by simp [Ledger.isUnfinished, accepted])
  backed := by
    intro entry member
    obtain ⟨held, found, unfinished, same⟩ := tracked.backed entry member
    exact ⟨held, Ledger.get_compact_unfinished found unfinished, unfinished, same⟩
  starting := tracked.starting

structure Starting (ledger : Ledger) (now : Timestamp) (task : Task) : Prop where
  stage : task.stage = .starting
  entry : ∃ entry sequence, ledger.get task.id = some entry ∧
    task.entry = startTransition.apply entry sequence now

theorem foldl_startTask (now : Timestamp) (started : List (QueueTicket ParsedMutationRequest))
    (coordinator : Coordinator) : ∃ tasks sequence, started.foldl (startTask now) coordinator =
        { coordinator with sequence, tasks := coordinator.tasks ++ tasks } ∧ tasks.map Task.ticket =
        started.filter (fun ticket => (coordinator.ledger.get ticket.id).isSome) ∧
      ∀ task ∈ tasks, Starting coordinator.ledger now task := by
  induction started generalizing coordinator with
  | nil => exact ⟨[], coordinator.sequence, by simp, rfl, by simp⟩
  | cons ticket rest ih =>
    rw [List.foldl_cons]
    obtain ⟨tasks, sequence, same, tickets, starting⟩ := ih (coordinator.startTask now ticket)
    cases held : coordinator.ledger.get ticket.id with
    | none =>
      have skips : coordinator.startTask now ticket = coordinator := by
        unfold startTask
        rw [held]
      rw [skips] at same tickets starting ⊢
      refine ⟨tasks, sequence, same, ?_, starting⟩
      rw [tickets, List.filter_cons_of_neg (by simp [held])]
    | some entry =>
      let first : Task :=
        ⟨ticket, startTransition.apply entry (coordinator.sequence + 1) now, .starting⟩
      have begins : coordinator.startTask now ticket = { coordinator with
            sequence := coordinator.sequence + 1
            tasks := coordinator.tasks ++ [first] } := by
        unfold startTask
        rw [held]
      rw [begins] at same tickets starting ⊢
      refine ⟨first :: tasks, sequence, ?_, ?_, ?_⟩
      · rw [same]
        rw [List.append_assoc, List.singleton_append]
      · rw [List.map_cons, tickets, List.filter_cons_of_pos (by simp [held])]
      · intro task member
        rcases List.mem_cons.mp member with rfl | later
        · exact ⟨rfl, entry, _, held, rfl⟩
        · exact starting task later

theorem pump_frame (coordinator : Coordinator) (now : Timestamp) :
    ∃ tasks sequence queue history, coordinator.pump now =
        { coordinator with sequence, queue, history, tasks := coordinator.tasks ++ tasks } ∧
      ∀ task ∈ tasks, Starting coordinator.ledger now task := by
  obtain ⟨tasks, sequence, same, -, starting⟩ := foldl_startTask now
    (coordinator.queue.run coordinator.keeps).1
    { coordinator with
      queue := (coordinator.queue.run coordinator.keeps).2
      history := { coordinator.history with
        began := coordinator.history.began ++ (coordinator.queue.run coordinator.keeps).1 } }
  exact ⟨tasks, sequence, _, _, same, starting⟩

theorem Starting.status {ledger : Ledger} {now : Timestamp} (starting : Starting ledger now task) :
    task.entry.status = "running" := by
  obtain ⟨entry, sequence, -, same⟩ := starting.entry
  rw [same]
  rfl

/-- What one run of `pump` does: it starts tickets from the front of what waits, until nothing
that still waits may start. -/
structure Pumped (coordinator : Coordinator) (now : Timestamp)
    (started : List (QueueTicket ParsedMutationRequest)) (tasks : List Task) (sequence : Int)
    (queue : Queue ParsedMutationRequest) : Prop where
  same : coordinator.pump now = { coordinator with
      sequence
      queue
      tasks := coordinator.tasks ++ tasks
      history := { coordinator.history with began := coordinator.history.began ++ started } }
  tickets : tasks.map Task.ticket = started
  starting : ∀ task ∈ tasks, Starting coordinator.ledger now task
  taken : Refyard.Queue.Taken coordinator.queue.tables started queue.tables
  sound : queue.Sound
  inOrder : ∀ key, writersOf key started ++ writersOf key queue.pending =
    writersOf key coordinator.queue.pending

theorem Tracked.keeps (tracked : coordinator.Tracked setting)
    (member : ticket ∈ coordinator.queue.pending) : coordinator.keeps ticket = true := by
  have waits := tracked.waiting ticket member
  obtain ⟨entry, held, -⟩ := waits.accepted
  unfold Coordinator.keeps
  rw [held, waits.awaited]
  rfl

theorem Tracked.pumped (tracked : coordinator.Tracked setting) (now : Timestamp) :
    ∃ started tasks sequence queue, coordinator.Pumped now started tasks sequence queue := by
  obtain ⟨starts, tables, sound⟩ := Queue.run_tables coordinator.keeps tracked.queue
    fun ticket member => tracked.keeps member
  have taken := Refyard.Queue.takeStartable_spec tracked.queue.tables
  rw [← starts, ← tables] at taken
  have known : ∀ ticket ∈ (coordinator.queue.run coordinator.keeps).1,
      (coordinator.ledger.get ticket.id).isSome = true := by
    intro ticket member
    have waited : ticket ∈ coordinator.queue.pending :=
      taken.parts.subset (List.mem_append_left _ member)
    obtain ⟨entry, held, -⟩ := (tracked.waiting ticket waited).accepted
    rw [held]
    rfl
  obtain ⟨tasks, sequence, same, tickets, starting⟩ := foldl_startTask now
    (coordinator.queue.run coordinator.keeps).1
    { coordinator with
      queue := (coordinator.queue.run coordinator.keeps).2
      history := { coordinator.history with
        began := coordinator.history.began ++ (coordinator.queue.run coordinator.keeps).1 } }
  rw [List.filter_eq_self.mpr known] at tickets
  refine ⟨_, tasks, sequence, _, same, tickets, starting, taken, sound, ?_⟩
  intro key
  rw [starts]
  have waiting : (coordinator.queue.run coordinator.keeps).2.pending =
      coordinator.queue.tables.takeStartable.2.pending :=
    congrArg Refyard.Queue.pending tables
  rw [waiting]
  exact coordinator.queue.tables.writersOf_scan key coordinator.queue.tables.pending

theorem Tracked.pump (tracked : coordinator.Tracked setting) (now : Timestamp) :
    (coordinator.pump now).Tracked setting := by
  obtain ⟨started, tasks, sequence, queue, pumped⟩ := tracked.pumped now
  have counts : ∀ operationId, (coordinator.pump now).owners operationId =
      coordinator.owners operationId := by
    intro operationId
    rw [pumped.same]
    have parts : (started ++ queue.pending).Perm coordinator.queue.pending := pumped.taken.parts
    have moved := tally_perm QueueTicket.id parts operationId
    have tickets : tally Task.id tasks operationId = tally QueueTicket.id started operationId := by
      rw [← pumped.tickets, tally_map _]
      rfl
    rw [tally_append] at moved
    unfold owners
    dsimp only
    rw [tally_append, tickets]
    omega
  have waited : ∀ ticket ∈ started, coordinator.Waits ticket := fun ticket member =>
    tracked.waiting ticket (pumped.taken.parts.subset (List.mem_append_left _ member))
  rw [pumped.same] at counts ⊢
  refine ⟨?_, ?_, tracked.unminted, tracked.unrecorded, pumped.sound, ?_, ?_, ?_, ?_, ?_⟩
  · intro operationId
    rw [counts]
    exact tracked.single operationId
  · intro operationId held
    rw [counts] at held
    exact tracked.minted operationId held
  · have running : queue.running.values.Perm (started ++ coordinator.queue.running.values) :=
      pumped.taken.running
    rw [List.map_append, pumped.tickets]
    exact running.trans ((tracked.running.append_left _).trans List.perm_append_comm)
  · intro task member
    rcases List.mem_append.mp member with earlier | begins
    · exact tracked.named task earlier
    · obtain ⟨entry, number, held, same⟩ := (pumped.starting task begins).entry
      rw [same]
      exact (InsertionMap.get?_eq_some.mp held).2
  · intro ticket member
    have waits := tracked.waiting ticket (pumped.taken.waits.subset member)
    exact ⟨waits.write, waits.awaited, waits.accepted⟩
  · intro entry member
    have before := tracked.backed entry
    unfold underWay at member before
    simp only [List.map_append, List.mem_append] at member before
    rcases member with (refused | (earlier | begins)) | cancelled
    · exact before (.inl (.inl refused))
    · exact before (.inl (.inr earlier))
    · obtain ⟨task, inside, rfl⟩ := List.mem_map.mp begins
      obtain ⟨held, number, found, same⟩ := (pumped.starting task inside).entry
      have ticket : task.ticket ∈ started := pumped.tickets ▸ List.mem_map_of_mem inside
      obtain ⟨also, recorded, accepted⟩ := (waited task.ticket ticket).accepted
      cases found.symm.trans recorded
      have named : held.operationId = task.id := (InsertionMap.get?_eq_some.mp found).2
      rw [same]
      exact ⟨held, named ▸ found, by simp [Ledger.isUnfinished, accepted], rfl, rfl⟩
    · exact before (.inr cancelled)
  · intro task member stage
    rcases List.mem_append.mp member with earlier | begins
    · exact tracked.starting task earlier stage
    · exact (pumped.starting task begins).status

theorem Tracked.frame (tracked : coordinator.Tracked setting) (submissions : List Submission)
    (blocks : Table WriteBlock.repositoryId) (effects : List MutationKind) (sequence : Int)
    (pumps : Nat) (history : History) : Tracked setting
      { coordinator with submissions, blocks, effects, sequence, pumps, history } where
  single := tracked.single
  minted := tracked.minted
  unminted := tracked.unminted
  unrecorded := tracked.unrecorded
  queue := tracked.queue
  running := tracked.running
  named := tracked.named
  waiting := by
    intro ticket member
    have waits := tracked.waiting ticket member
    exact ⟨waits.write, waits.awaited, waits.accepted⟩
  backed := tracked.backed
  starting := tracked.starting

theorem submit_cases (coordinator : Coordinator) (setting : Setting) (actor : String)
    (request : ParsedMutationRequest) : (coordinator.submit setting actor request).1 = coordinator ∨
      ∃ repositoryId, writeKeyOfTarget request.target = some repositoryId ∧
        (coordinator.ledger.list actor idempotencyMaxEntries).find? (fun entry =>
          entry.clientRequestId = request.clientRequestId) = none ∧
        coordinator.submit setting actor request = ({ coordinator with
            submissions := coordinator.submissions ++
              [{ actor, request, digest := setting.digest request, repositoryId,
                 block := coordinator.blockFor repositoryId }] }, .waiting) := by
  unfold Coordinator.submit
  split
  · exact .inl rfl
  · rename_i unknown
    split
    · exact .inl rfl
    · split
      · exact .inl rfl
      · rename_i repositoryId names
        exact .inr ⟨repositoryId, names, unknown, rfl⟩

theorem Tracked.submit (tracked : coordinator.Tracked setting) (actor : String)
    (request : ParsedMutationRequest) :
    (coordinator.submit setting actor request).1.Tracked setting := by
  obtain same | ⟨repositoryId, -, -, same⟩ :=
    coordinator.submit_cases setting actor request
  · rw [same]
    exact tracked
  · rw [same]
    exact tracked.frame _ _ _ _ _ _

def admitting (coordinator : Coordinator) (setting : Setting) (place : Nat)
    (submission : Submission) (now : Timestamp) : Coordinator :=
  { coordinator with
    submissions := coordinator.submissions.eraseIdx place
    minted := coordinator.minted + 1
    sequence := coordinator.sequence + 1
    acceptances := coordinator.acceptances ++
      [{ entry := coordinator.acceptedEntry setting submission now,
         request := submission.request }] }

theorem check_cases (coordinator : Coordinator) (setting : Setting) (place : Nat)
    (lookups : Lookups) (now : Timestamp) :
    (coordinator.check setting place lookups now).1 = coordinator ∨
      ∃ submission, coordinator.submissions[place]? = some submission ∧
        ((coordinator.check setting place lookups now).1 =
            { coordinator with submissions := coordinator.submissions.eraseIdx place } ∨
          Accepts (preconditionsFor lookups submission.block submission.request) ∧
            (coordinator.check setting place lookups now).1 =
              coordinator.admitting setting place submission now) := by
  unfold Coordinator.check
  split
  · exact .inl rfl
  · rename_i submission found
    refine .inr ⟨submission, found, ?_⟩
    split
    · exact .inl rfl
    · rename_i context gathered
      split
      · exact .inl rfl
      · rename_i passed
        exact .inr ⟨⟨context, gathered, passed⟩, rfl⟩

theorem Tracked.check (tracked : coordinator.Tracked setting) (place : Nat) (lookups : Lookups)
    (now : Timestamp) : (coordinator.check setting place lookups now).1.Tracked setting := by
  obtain same | ⟨submission, found, same | ⟨-, same⟩⟩ :=
    coordinator.check_cases setting place lookups now
  · rw [same]
    exact tracked
  · rw [same]
    exact tracked.frame _ _ _ _ _ _
  · rw [same]
    exact tracked.mint _ rfl rfl _ _

theorem Tracked.leaveAcceptances (tracked : coordinator.Tracked setting)
    (found : coordinator.acceptances[place]? = some acceptance) :
    Tracked setting { coordinator with acceptances := coordinator.acceptances.eraseIdx place } ∧
      owners { coordinator with acceptances := coordinator.acceptances.eraseIdx place }
        acceptance.id = 0 := by
  refine ⟨tracked.fewer (List.eraseIdx_sublist _ _) (List.Sublist.refl _) (List.Sublist.refl _), ?_⟩
  have erased := tally_eraseIdx Acceptance.id found acceptance.id
  have single := tracked.single acceptance.id
  rw [if_pos rfl] at erased
  unfold owners at single ⊢
  dsimp only
  omega

theorem Tracked.leaveRefusals (tracked : coordinator.Tracked setting) {refusal : Refusal}
    (found : coordinator.refusals[place]? = some refusal) :
    Tracked setting { coordinator with refusals := coordinator.refusals.eraseIdx place } ∧
      owners { coordinator with refusals := coordinator.refusals.eraseIdx place } refusal.id = 0 := by
  refine ⟨tracked.fewer (List.Sublist.refl _) (List.eraseIdx_sublist _ _) (List.Sublist.refl _), ?_⟩
  have erased := tally_eraseIdx Refusal.id found refusal.id
  have single := tracked.single refusal.id
  rw [if_pos rfl] at erased
  unfold owners at single ⊢
  dsimp only
  omega

theorem Tracked.leaveCancellations (tracked : coordinator.Tracked setting)
    (found : coordinator.cancellations[place]? = some entry) : Tracked setting
        { coordinator with cancellations := coordinator.cancellations.eraseIdx place } ∧
      owners { coordinator with cancellations := coordinator.cancellations.eraseIdx place }
        entry.operationId = 0 := by
  refine ⟨tracked.fewer (List.Sublist.refl _) (List.Sublist.refl _) (List.eraseIdx_sublist _ _), ?_⟩
  have erased := tally_eraseIdx JournalEntry.operationId found entry.operationId
  have single := tracked.single entry.operationId
  rw [if_pos rfl] at erased
  unfold owners at single ⊢
  dsimp only
  omega

def answering (coordinator : Coordinator) (place : Nat) (acceptance : Acceptance)
    (appended : Appended) : Coordinator :=
  { coordinator with
    acceptances := coordinator.acceptances.eraseIdx place
    ledger := coordinator.ledger.append acceptance.entry appended }

def refusing (coordinator : Coordinator) (acceptance : Acceptance) (refusal : EnqueueRefusal)
    (now : Timestamp) : Coordinator :=
  { coordinator with
    sequence := coordinator.sequence + 1
    refusals := coordinator.refusals ++
      [{ entry := (refusalTransition refusal acceptance.id).apply acceptance.entry
           (coordinator.sequence + 1) now
         refusal }] }

def joining (coordinator : Coordinator) (acceptance : Acceptance)
    (ticket : QueueTicket ParsedMutationRequest) : Coordinator :=
  { coordinator with
    queue := { coordinator.queue with pending := coordinator.queue.pending ++ [ticket] }
    awaitingStart := coordinator.awaitingStart.insert
      ⟨acceptance.id, acceptance.entry.actor, acceptance.entry.payloadDigest⟩
    history := { coordinator.history with
      enqueued := coordinator.history.enqueued ++ [ticket] } }

structure TicketOf (acceptance : Acceptance) (ticket : QueueTicket ParsedMutationRequest) :
    Prop where
  named : ticket.id = acceptance.id
  actor : ticket.actor = acceptance.entry.actor
  repositoryId : ticket.repositoryId = acceptance.entry.repositoryId
  write : ticket.mode = .write
  job : ticket.job = acceptance.request

theorem enqueueAccepted_cases (coordinator : Coordinator) (acceptance : Acceptance)
    (now : Timestamp) : (∃ refusal, (coordinator.enqueueAccepted acceptance now).1 =
      coordinator.refusing acceptance refusal now) ∨ ∃ ticket, TicketOf acceptance ticket ∧
        (coordinator.enqueueAccepted acceptance now).1 =
          (coordinator.joining acceptance ticket).pump now := by
  obtain ⟨refusal, refused⟩ | ⟨ticket, named, actor, repositoryId, write, job, joined⟩ :=
    coordinator.queue.enqueue_cases acceptance.entry.operationId acceptance.entry.actor
      acceptance.entry.repositoryId .write acceptance.request
  · refine .inl ⟨refusal, ?_⟩
    simp only [enqueueAccepted, refused]
    rfl
  · refine .inr ⟨ticket, ⟨named, actor, repositoryId, write, job⟩, ?_⟩
    simp only [enqueueAccepted, joined]
    rfl

theorem cancel_cases (coordinator : Coordinator) (actor operationId : String) (now : Timestamp) :
    (coordinator.cancel actor operationId now).1 = coordinator ∨
      ∃ entry before ticket after, coordinator.ledger.get operationId = some entry ∧
        entry.actor = actor ∧ entry.status = "accepted" ∧
        coordinator.queue.pending = before ++ ticket :: after ∧ ticket.id = operationId ∧
        (coordinator.cancel actor operationId now).1 = { coordinator with
            queue := { coordinator.queue with pending := before ++ after }
            awaitingStart := coordinator.awaitingStart.erase operationId
            sequence := coordinator.sequence + 1
            cancellations := coordinator.cancellations ++
              [cancelledEntry entry (coordinator.sequence + 1) now]
            history := { coordinator.history with
              cancelled := coordinator.history.cancelled ++ [operationId] } } := by
  unfold Coordinator.cancel
  split
  · exact .inl rfl
  · rename_i entry held
    split
    · exact .inl rfl
    · rename_i own
      split
      · exact .inl rfl
      · rename_i accepted
        rw [not_not] at own accepted
        obtain ⟨-, stays⟩ | ⟨before, ticket, after, parts, named, removed⟩ :=
          coordinator.queue.cancel_cases operationId
        · rw [stays]
          exact .inl rfl
        · rw [removed]
          exact .inr ⟨entry, before, ticket, after, held, own, accepted, parts, named, rfl⟩

theorem Tracked.refusing (tracked : coordinator.Tracked setting)
    (free : coordinator.owners acceptance.id = 0)
    (old : ∃ number < coordinator.minted, setting.operationId number = acceptance.id)
    (recorded : coordinator.ledger.get acceptance.id = some acceptance.entry)
    (accepted : acceptance.entry.status = "accepted") (refusal : EnqueueRefusal) (now : Timestamp) :
    (coordinator.refusing acceptance refusal now).Tracked setting := by
  have backs : Backs coordinator.ledger acceptance.entry :=
    ⟨acceptance.entry, recorded, by simp [Ledger.isUnfinished, accepted], rfl, rfl⟩
  have joins := tracked.join
    [⟨(refusalTransition refusal acceptance.id).apply acceptance.entry
      (coordinator.sequence + 1) now, refusal⟩] [] ?_ ?_ ?_ (coordinator.sequence + 1)
      coordinator.history
  · rwa [List.append_nil] at joins
  · intro operationId
    rw [tally_cons, tally_nil, tally_nil]
    split <;> omega
  · intro operationId held
    rw [tally_cons, tally_nil, tally_nil] at held
    split at held
    · rename_i here
      have owner : acceptance.id = operationId := here
      rw [← owner]
      exact ⟨free, old⟩
    · cases held
  · intro entry member
    rw [List.append_nil, List.map_singleton, List.mem_singleton] at member
    rw [member]
    exact backs

theorem Tracked.joining (tracked : coordinator.Tracked setting) (of : TicketOf acceptance ticket)
    (free : coordinator.owners acceptance.id = 0)
    (old : ∃ number < coordinator.minted, setting.operationId number = acceptance.id)
    (recorded : coordinator.ledger.get acceptance.id = some acceptance.entry)
    (accepted : acceptance.entry.status = "accepted") :
    (coordinator.joining acceptance ticket).Tracked setting := by
  refine tracked.enqueue ?_ ?_ of.write ?_ _ of.named.symm _
  · rw [of.named]
    exact free
  · rw [of.named]
    exact old
  · rw [of.named]
    exact ⟨_, recorded, accepted⟩

theorem accept_cases (coordinator : Coordinator) (place : Nat) (appended : Appended)
    (now : Timestamp) : (coordinator.accept place appended now).1 = coordinator ∧
        coordinator.acceptances[place]? = none ∨
      ∃ acceptance, coordinator.acceptances[place]? = some acceptance ∧
        ((coordinator.accept place appended now).1 =
            coordinator.answering place acceptance appended ∨ appended = .stored ∧
            ((∃ refusal, (coordinator.accept place appended now).1 =
                (coordinator.answering place acceptance .stored).refusing acceptance refusal now) ∨
              ∃ ticket, TicketOf acceptance ticket ∧ (coordinator.accept place appended now).1 =
                  ((coordinator.answering place acceptance .stored).joining acceptance
                    ticket).pump now)) := by
  unfold Coordinator.accept
  split
  · rename_i found
    exact .inl ⟨rfl, found⟩
  · rename_i acceptance found
    refine .inr ⟨acceptance, found, ?_⟩
    split
    · exact .inl rfl
    · exact .inl rfl
    · exact .inr ⟨rfl, (coordinator.answering place acceptance .stored).enqueueAccepted_cases
        acceptance now⟩

/-- The append is for an operation that is in no place then, and what follows keeps the
coordinator tracked. -/
theorem Tracked.accepted (tracked : coordinator.Tracked setting)
    (found : coordinator.acceptances[place]? = some acceptance) (appended : Appended) :
    (coordinator.answering place acceptance appended).Tracked setting ∧
      (coordinator.answering place acceptance appended).owners acceptance.id = 0 ∧
      (appended = .stored →
        (∀ refusal now, ((coordinator.answering place acceptance appended).refusing acceptance
          refusal now).Tracked setting) ∧ ∀ ticket, TicketOf acceptance ticket →
          ((coordinator.answering place acceptance appended).joining acceptance
            ticket).Tracked setting) := by
  have member := List.mem_of_getElem? found
  have old := tracked.minted acceptance.id (owners_of_acceptance member)
  have accepted := (tracked.unrecorded acceptance member).1
  obtain ⟨left, free⟩ := tracked.leaveAcceptances found
  have answered := left.append_free appended old free
  refine ⟨answered, free, ?_⟩
  rintro rfl
  exact ⟨fun refusal now =>
      Tracked.refusing answered free old Ledger.get_append_stored accepted refusal now,
    fun ticket of => Tracked.joining answered of free old Ledger.get_append_stored accepted⟩

theorem Tracked.accept (tracked : coordinator.Tracked setting) (place : Nat) (appended : Appended)
    (now : Timestamp) : (coordinator.accept place appended now).1.Tracked setting := by
  obtain ⟨same, -⟩ | ⟨acceptance, found, outcome⟩ := coordinator.accept_cases place appended now
  · rw [same]
    exact tracked
  · obtain ⟨answered, -, further⟩ := tracked.accepted found appended
    obtain same | ⟨rfl, ⟨refusal, same⟩ | ⟨ticket, of, same⟩⟩ := outcome
    · rw [same]
      exact answered
    · rw [same]
      exact (further rfl).1 refusal now
    · rw [same]
      exact ((further rfl).2 ticket of).pump now

theorem refuse_cases (coordinator : Coordinator) (place : Nat) (appended : Appended) :
    (coordinator.refuse place appended).1 = coordinator ∨
      ∃ refusal, coordinator.refusals[place]? = some refusal ∧
        (coordinator.refuse place appended).1 = { coordinator with
            refusals := coordinator.refusals.eraseIdx place
            ledger := coordinator.ledger.append refusal.entry appended } := by
  unfold Coordinator.refuse
  split
  · exact .inl rfl
  · rename_i refusal found
    refine .inr ⟨refusal, found, ?_⟩
    split <;> rfl

theorem Tracked.refuse (tracked : coordinator.Tracked setting) (place : Nat)
    (appended : Appended) : (coordinator.refuse place appended).1.Tracked setting := by
  obtain same | ⟨refusal, found, same⟩ := coordinator.refuse_cases place appended
  · rw [same]
    exact tracked
  · obtain ⟨left, free⟩ := tracked.leaveRefusals found
    have member : refusal.entry ∈ coordinator.underWay :=
      List.mem_append_left _ (List.mem_append_left _
        (List.mem_map_of_mem (List.mem_of_getElem? found)))
    have old := tracked.minted refusal.id (tracked.owners_of_underWay member)
    rw [same]
    exact left.append_free appended old free

theorem Tracked.cancel (tracked : coordinator.Tracked setting) (actor operationId : String)
    (now : Timestamp) : (coordinator.cancel actor operationId now).1.Tracked setting := by
  obtain same | ⟨entry, before, ticket, after, held, -, accepted, parts, rfl, same⟩ :=
    coordinator.cancel_cases actor operationId now
  · rw [same]
    exact tracked
  · rw [same]
    have waits : ticket ∈ coordinator.queue.pending := by simp [parts]
    have named : entry.operationId = ticket.id := (InsertionMap.get?_eq_some.mp held).2
    obtain ⟨left, free⟩ := tracked.unqueue parts
    have old := tracked.minted ticket.id (owners_of_pending waits)
    have joins := left.join [] [cancelledEntry entry (coordinator.sequence + 1) now] ?_ ?_ ?_
      (coordinator.sequence + 1) { coordinator.history with
        cancelled := coordinator.history.cancelled ++ [ticket.id] }
    · rwa [List.append_nil] at joins
    · intro other
      rw [tally_cons, tally_nil, tally_nil]
      split <;> omega
    · intro other counted
      rw [tally_cons, tally_nil, tally_nil] at counted
      split at counted
      · rename_i here
        have owner : entry.operationId = other := here
        rw [← owner, named]
        exact ⟨free, old⟩
      · cases counted
    · intro other member
      rw [List.map_nil, List.nil_append, List.mem_singleton] at member
      rw [member]
      exact ⟨entry, named ▸ held, by simp [Ledger.isUnfinished, accepted], rfl, rfl⟩

theorem recordCancellation_cases (coordinator : Coordinator) (place : Nat) (appended : Appended) :
    coordinator.recordCancellation place appended = coordinator ∨
      ∃ entry, coordinator.cancellations[place]? = some entry ∧
        coordinator.recordCancellation place appended = { coordinator with
            cancellations := coordinator.cancellations.eraseIdx place
            ledger := coordinator.ledger.append entry appended } := by
  unfold Coordinator.recordCancellation
  split
  · exact .inl rfl
  · rename_i entry found
    exact .inr ⟨entry, found, rfl⟩

theorem Tracked.recordCancellation (tracked : coordinator.Tracked setting) (place : Nat)
    (appended : Appended) : (coordinator.recordCancellation place appended).Tracked setting := by
  obtain same | ⟨entry, found, same⟩ := coordinator.recordCancellation_cases place appended
  · rw [same]
    exact tracked
  · obtain ⟨left, free⟩ := tracked.leaveCancellations found
    have member : entry ∈ coordinator.underWay :=
      List.mem_append_right _ (List.mem_of_getElem? found)
    have old := tracked.minted entry.operationId (tracked.owners_of_underWay member)
    rw [same]
    exact left.append_free appended old free

theorem Tracked.eq_entry (tracked : coordinator.Tracked setting) (member : task ∈ coordinator.tasks)
    {other : JournalEntry} (also : other ∈ coordinator.underWay)
    (same : other.operationId = task.id) : other = task.entry := by
  have counted := tally_pos_of_mem Task.id member
  have single := tracked.single task.id
  unfold owners at single
  unfold underWay at also
  rw [List.mem_append, List.mem_append] at also
  rcases also with (refused | began) | cancelled
  · obtain ⟨refusal, inside, rfl⟩ := List.mem_map.mp refused
    have twice := tally_pos_of_mem Refusal.id inside
    have named : refusal.id = task.id := same
    rw [named] at twice
    omega
  · obtain ⟨second, inside, rfl⟩ := List.mem_map.mp began
    rw [tracked.named second inside] at same
    have once : tally Task.id coordinator.tasks task.id ≤ 1 := by omega
    rw [eq_of_tally once inside member same rfl]
  · have twice := tally_pos_of_mem JournalEntry.operationId cancelled
    rw [same] at twice
    omega

theorem Tracked.append_task (tracked : coordinator.Tracked setting)
    (member : task ∈ coordinator.tasks) (unfinished : Ledger.isUnfinished task.entry.status = true)
    (appended : Appended) : Tracked setting
      { coordinator with ledger := coordinator.ledger.append task.entry appended } := by
  have named := tracked.named task member
  have counted := tally_pos_of_mem Task.id member
  have single := tracked.single task.id
  unfold owners at single
  apply tracked.append appended
  · rw [named]
    exact tracked.minted task.id (owners_of_task member)
  · intro acceptance inside same
    have twice := tally_pos_of_mem Acceptance.id inside
    rw [← same, named] at twice
    omega
  · intro ticket inside same
    have twice := tally_pos_of_mem QueueTicket.id inside
    rw [← same, named] at twice
    omega
  · intro other inside same
    rw [tracked.eq_entry member inside (same.symm.trans named)]
    exact ⟨unfinished, rfl, rfl⟩

theorem recordStart_cases (coordinator : Coordinator) (place : Nat) (appended : Appended) :
    coordinator.recordStart place appended = coordinator ∨
      ∃ task, coordinator.tasks[place]? = some task ∧ task.stage = .starting ∧
        ((∃ landed, appended = .rejected landed ∧ coordinator.recordStart place appended =
              { coordinator with
                ledger := coordinator.ledger.append task.entry appended
                tasks := coordinator.tasks.eraseIdx place
                queue := coordinator.queue.release task.ticket }) ∨ (appended = .stored ∧
            coordinator.recordStart place appended = { coordinator with
                ledger := coordinator.ledger.append task.entry .stored
                tasks := coordinator.tasks.set place { task with stage := .recorded } }) ∨
          (appended = .full ∧ coordinator.recordStart place appended = { coordinator with
                tasks := coordinator.tasks.set place
                  { task with entry := unrecorded task.entry, stage := .recorded } })) := by
  unfold Coordinator.recordStart
  split
  · exact .inl rfl
  · rename_i task found
    split
    · exact .inl rfl
    · rename_i stage
      rw [not_not] at stage
      refine .inr ⟨task, found, stage, ?_⟩
      cases appended with
      | stored => exact .inr (.inl ⟨rfl, rfl⟩)
      | full =>
        exact .inr (.inr ⟨rfl, rfl⟩)
      | rejected landed => exact .inl ⟨landed, rfl, rfl⟩

theorem Tracked.recordStart (tracked : coordinator.Tracked setting) (place : Nat)
    (appended : Appended) : (coordinator.recordStart place appended).Tracked setting := by
  obtain same | ⟨task, found, stage, outcome⟩ := coordinator.recordStart_cases place appended
  · rw [same]
    exact tracked
  · have member := List.mem_of_getElem? found
    obtain ⟨landed, -, same⟩ | ⟨-, same⟩ | ⟨-, same⟩ := outcome
    · obtain ⟨ended, free⟩ := tracked.endTask found coordinator.awaitingStart
        (fun _ _ awaited => awaited) coordinator.pumps
      have named := tracked.named task member
      rw [same]
      refine ended.append_free appended ?_ ?_
      · rw [named]
        exact tracked.minted task.id (owners_of_task member)
      · rw [named]
        exact free
    · have unfinished : Ledger.isUnfinished task.entry.status = true := by
        simp [Ledger.isUnfinished, tracked.starting task member stage]
      rw [same]
      exact (tracked.append_task member unfinished .stored).setTask found
        { task with stage := .recorded } rfl rfl rfl rfl TaskStage.noConfusion _ _
    · rw [same]
      exact tracked.setTask found
        { task with entry := HostNode.unrecorded task.entry, stage := .recorded }
        rfl rfl rfl rfl TaskStage.noConfusion _ _

theorem begin_cases (coordinator : Coordinator) (place : Nat) (now : Timestamp) :
    coordinator.begin place now = coordinator ∨
      ∃ task, coordinator.tasks[place]? = some task ∧ task.stage = .recorded ∧
        ((∃ sequence, coordinator.begin place now = { coordinator with
              sequence
              tasks := coordinator.tasks.set place
                { task with
                  entry := (unsupportedTransition task.ticket.job.kind task.entry.operationId).apply
                    task.entry sequence now
                  stage := .finishing } }) ∨ coordinator.begin place now = { coordinator with
              tasks := coordinator.tasks.set place { task with stage := .running }
              history := { coordinator.history with
                effects := coordinator.history.effects ++
                  [{ operationId := task.id
                     recorded := lastOf JournalEntry.operationId coordinator.ledger.log
                       task.id }] } }) := by
  unfold Coordinator.begin
  split
  · exact .inl rfl
  · rename_i task found
    split
    · exact .inl rfl
    · rename_i stage
      rw [not_not] at stage
      refine .inr ⟨task, found, stage, ?_⟩
      split
      · exact .inl ⟨_, rfl⟩
      · exact .inr rfl

theorem Tracked.begin (tracked : coordinator.Tracked setting) (place : Nat) (now : Timestamp) :
    (coordinator.begin place now).Tracked setting := by
  obtain same | ⟨task, found, -, ⟨sequence, same⟩ | same⟩ := coordinator.begin_cases place now
  · rw [same]
    exact tracked
  · rw [same]
    exact tracked.setTask found
      { task with
        entry := (unsupportedTransition task.ticket.job.kind task.entry.operationId).apply
          task.entry sequence now
        stage := .finishing } rfl rfl rfl rfl TaskStage.noConfusion _ _
  · rw [same]
    exact tracked.setTask found { task with stage := .running } rfl rfl rfl rfl
      TaskStage.noConfusion _ _

theorem finish_cases (coordinator : Coordinator) (place : Nat) (ended : EffectEnd)
    (now : Timestamp) : coordinator.finish place ended now = coordinator ∨
      ∃ task sequence, coordinator.tasks[place]? = some task ∧ task.stage = .running ∧
        coordinator.finish place ended now = { coordinator with
            sequence
            tasks := coordinator.tasks.set place
              { task with
                entry := (ended.transition task.entry.operationId).apply task.entry sequence now
                stage := .finishing } } := by
  unfold Coordinator.finish
  split
  · exact .inl rfl
  · rename_i task found
    split
    · exact .inl rfl
    · rename_i stage
      rw [not_not] at stage
      exact .inr ⟨task, _, found, stage, rfl⟩

theorem Tracked.finish (tracked : coordinator.Tracked setting) (place : Nat) (ended : EffectEnd)
    (now : Timestamp) : (coordinator.finish place ended now).Tracked setting := by
  obtain same | ⟨task, sequence, found, -, same⟩ := coordinator.finish_cases place ended now
  · rw [same]
    exact tracked
  · rw [same]
    exact tracked.setTask found
      { task with
        entry := (ended.transition task.entry.operationId).apply task.entry sequence now
        stage := .finishing } rfl rfl rfl rfl TaskStage.noConfusion _ _

theorem recordOutcome_cases (coordinator : Coordinator) (place : Nat) (appended : Appended) :
    coordinator.recordOutcome place appended = coordinator ∨
      ∃ task, coordinator.tasks[place]? = some task ∧ task.stage = .finishing ∧
        coordinator.recordOutcome place appended = { coordinator with
            ledger := coordinator.ledger.append task.entry appended
            tasks := coordinator.tasks.eraseIdx place
            awaitingStart := coordinator.awaitingStart.erase task.id
            pumps := coordinator.pumps + 1
            queue := coordinator.queue.release task.ticket } := by
  unfold Coordinator.recordOutcome
  split
  · exact .inl rfl
  · rename_i task found
    split
    · exact .inl rfl
    · rename_i stage
      rw [not_not] at stage
      exact .inr ⟨task, found, stage, rfl⟩

theorem Tracked.recordOutcome (tracked : coordinator.Tracked setting) (place : Nat)
    (appended : Appended) : (coordinator.recordOutcome place appended).Tracked setting := by
  obtain same | ⟨task, found, -, same⟩ := coordinator.recordOutcome_cases place appended
  · rw [same]
    exact tracked
  · have member := List.mem_of_getElem? found
    have named := tracked.named task member
    have awaits : ∀ operationId, operationId ≠ task.id →
        coordinator.awaitingStart.contains operationId = true →
          (coordinator.awaitingStart.erase task.id).contains operationId = true := by
      intro operationId differs awaited
      unfold Table.contains at awaited ⊢
      rw [Table.get?_erase, if_neg differs]
      exact awaited
    obtain ⟨ended, free⟩ := tracked.endTask found _ awaits (coordinator.pumps + 1)
    rw [same]
    refine ended.append_free appended ?_ ?_
    · rw [named]
      exact tracked.minted task.id (owners_of_task member)
    · rw [named]
      exact free

theorem Tracked.pumpFewer (tracked : coordinator.Tracked setting) :
    Tracked setting { coordinator with pumps := coordinator.pumps - 1 } :=
  tracked.frame coordinator.submissions coordinator.blocks coordinator.effects
    coordinator.sequence (coordinator.pumps - 1) coordinator.history

theorem Tracked.runPump (tracked : coordinator.Tracked setting) (now : Timestamp) :
    (coordinator.runPump now).Tracked setting := by
  unfold Coordinator.runPump
  split
  · exact tracked
  · exact tracked.pumpFewer.pump now

theorem Tracked.next (tracked : coordinator.Tracked setting) (input : CoordinatorInput) :
    ((machine setting).next coordinator input).Tracked setting := by
  cases input with
  | submit actor request => exact tracked.submit actor request
  | check place lookups now => exact tracked.check place lookups now
  | accept place appended now => exact tracked.accept place appended now
  | refuse place appended => exact tracked.refuse place appended
  | cancel actor operationId now => exact tracked.cancel actor operationId now
  | recordCancellation place appended => exact tracked.recordCancellation place appended
  | recordStart place appended => exact tracked.recordStart place appended
  | begin place now => exact tracked.begin place now
  | finish place ended now => exact tracked.finish place ended now
  | recordOutcome place appended => exact tracked.recordOutcome place appended
  | pump now => exact tracked.runPump now
  | compact nowMs => exact tracked.compact setting.retention nowMs
  | registerEffect kind => exact tracked.frame _ _ _ _ _ _
  | resolveBlock repositoryId => exact tracked.frame _ _ _ _ _ _

end Coordinator

open Coordinator

theorem Opening.tracked {setting : Setting} (opening : Opening setting) :
    opening.coordinator.Tracked setting where
  single _ := Nat.zero_le _
  minted _ held := absurd held (Nat.lt_irrefl 0)
  unminted number _ := opening.unused number
  unrecorded _ member := absurd member List.not_mem_nil
  queue := Queue.sound_new {}
  running := List.Perm.refl _
  named _ member := absurd member List.not_mem_nil
  waiting _ member := absurd member List.not_mem_nil
  backed _ member := absurd member List.not_mem_nil
  starting _ member := absurd member List.not_mem_nil

end Refyard.HostNode
