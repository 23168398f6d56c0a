import Refyard.HostNode.CoordinatorSteps

/-! An effect starts behind the record that it runs. -/
namespace Refyard.HostNode

def RunsOnRecord (log : List JournalEntry) (operationId : String) : Prop :=
  ∃ entry, lastOf JournalEntry.operationId log operationId = some entry ∧ entry.status = "running"

/-- At its start the last record of the operation in the file said that it runs. -/
def EffectStart.Recorded (start : EffectStart) : Prop :=
  ∃ entry, start.recorded = some entry ∧ entry.operationId = start.operationId ∧
    entry.status = "running"

namespace Coordinator

/-- No append of a `running` record finds the journal full. -/
def StartFindsRoom (coordinator : Coordinator) : CoordinatorInput → Prop
  | .recordStart place .full => ∀ task ∈ coordinator.tasks[place]?, task.stage ≠ .starting
  | _ => True

structure EffectsRecorded (coordinator : Coordinator) : Prop where
  next : ∀ task ∈ coordinator.tasks, task.stage = .recorded →
    RunsOnRecord coordinator.ledger.log task.id
  effects : ∀ start ∈ coordinator.history.effects, start.Recorded

variable {setting : Setting} {coordinator changed : Coordinator}

theorem EffectsRecorded.frame (holds : coordinator.EffectsRecorded)
    (log : changed.ledger.log = coordinator.ledger.log)
    (effects : changed.history.effects = coordinator.history.effects)
    (tasks : ∀ task ∈ changed.tasks, task ∈ coordinator.tasks ∨ task.stage ≠ .recorded) :
    changed.EffectsRecorded where
  next := by
    intro task member stage
    rw [log]
    rcases tasks task member with earlier | other
    · exact holds.next task earlier stage
    · exact absurd stage other
  effects := by
    rw [effects]
    exact holds.effects

theorem EffectsRecorded.append (holds : coordinator.EffectsRecorded) {entry : JournalEntry}
    (appended : Appended) (others : ∀ task ∈ coordinator.tasks, entry.operationId ≠ task.id) :
    EffectsRecorded { coordinator with ledger := coordinator.ledger.append entry appended } where
  next := by
    intro task member stage
    unfold RunsOnRecord
    rw [Ledger.lastOf_append_of_ne (others task member)]
    exact holds.next task member stage
  effects := holds.effects

theorem task_ne_of_free {operationId : String} (free : coordinator.owners operationId = 0) :
    ∀ task ∈ coordinator.tasks, operationId ≠ task.id := by
  intro task member same
  have held := owners_of_task member
  rw [← same, free] at held
  exact absurd held (Nat.lt_irrefl 0)

variable {place : Nat}

theorem Tracked.task_ne_of_erased (tracked : coordinator.Tracked setting) {task : Task}
    (found : coordinator.tasks[place]? = some task) :
    ∀ other ∈ coordinator.tasks.eraseIdx place, task.entry.operationId ≠ other.id := by
  intro other member same
  have erased := tally_eraseIdx Task.id found task.id
  have counted := tally_pos_of_mem Task.id member
  have single := tracked.single task.id
  rw [← same, tracked.named task (List.mem_of_getElem? found)] at counted
  rw [if_pos rfl] at erased
  unfold owners at single
  omega

theorem EffectsRecorded.pump (holds : coordinator.EffectsRecorded)
    (tracked : coordinator.Tracked setting) (now : Timestamp) :
    (coordinator.pump now).EffectsRecorded := by
  obtain ⟨started, tasks, sequence, queue, pumped⟩ := tracked.pumped now
  rw [pumped.same]
  refine holds.frame rfl rfl ?_
  intro task member
  rcases List.mem_append.mp member with earlier | begins
  · exact .inl earlier
  · rw [(pumped.starting task begins).stage]
    exact .inr TaskStage.noConfusion

theorem EffectsRecorded.accept (holds : coordinator.EffectsRecorded)
    (tracked : coordinator.Tracked setting) (place : Nat) (appended : Appended) (now : Timestamp) :
    (coordinator.accept place appended now).1.EffectsRecorded := by
  obtain ⟨same, -⟩ | ⟨acceptance, found, outcome⟩ := coordinator.accept_cases place appended now
  · rw [same]
    exact holds
  · obtain ⟨-, free, further⟩ := tracked.accepted found appended
    have left : EffectsRecorded
        { coordinator with acceptances := coordinator.acceptances.eraseIdx place } :=
      holds.frame rfl rfl fun _ member => .inl member
    have kept : (coordinator.answering place acceptance appended).EffectsRecorded :=
      left.append appended (task_ne_of_free free)
    obtain same | ⟨rfl, ⟨refusal, same⟩ | ⟨ticket, of, same⟩⟩ := outcome
    · rw [same]
      exact kept
    · rw [same]
      exact kept.frame rfl rfl fun _ member => .inl member
    · rw [same]
      refine EffectsRecorded.pump ?_ ((further rfl).2 ticket of) now
      exact kept.frame rfl rfl fun _ member => .inl member

theorem EffectsRecorded.refuse (holds : coordinator.EffectsRecorded)
    (tracked : coordinator.Tracked setting) (place : Nat) (appended : Appended) :
    (coordinator.refuse place appended).1.EffectsRecorded := by
  obtain same | ⟨refusal, found, same⟩ := coordinator.refuse_cases place appended
  · rw [same]
    exact holds
  · obtain ⟨-, free⟩ := tracked.leaveRefusals found
    have left : EffectsRecorded
        { coordinator with refusals := coordinator.refusals.eraseIdx place } :=
      holds.frame rfl rfl fun _ member => .inl member
    rw [same]
    exact left.append appended (task_ne_of_free free)

theorem EffectsRecorded.cancel (holds : coordinator.EffectsRecorded) (actor operationId : String)
    (now : Timestamp) : (coordinator.cancel actor operationId now).1.EffectsRecorded := by
  obtain same | ⟨entry, before, ticket, after, -, -, -, -, -, same⟩ :=
    coordinator.cancel_cases actor operationId now
  · rw [same]
    exact holds
  · rw [same]
    exact holds.frame rfl rfl fun _ member => .inl member

theorem EffectsRecorded.recordCancellation (holds : coordinator.EffectsRecorded)
    (tracked : coordinator.Tracked setting) (place : Nat) (appended : Appended) :
    (coordinator.recordCancellation place appended).EffectsRecorded := by
  obtain same | ⟨entry, found, same⟩ := coordinator.recordCancellation_cases place appended
  · rw [same]
    exact holds
  · obtain ⟨-, free⟩ := tracked.leaveCancellations found
    have left : EffectsRecorded
        { coordinator with cancellations := coordinator.cancellations.eraseIdx place } :=
      holds.frame rfl rfl fun _ member => .inl member
    rw [same]
    exact left.append appended (task_ne_of_free free)

theorem EffectsRecorded.endTask (holds : coordinator.EffectsRecorded)
    (tracked : coordinator.Tracked setting) {task : Task}
    (found : coordinator.tasks[place]? = some task) (appended : Appended)
    (awaitingStart : Table AwaitingStart.operationId) (pumps : Nat)
    (queue : Queue ParsedMutationRequest) : EffectsRecorded { coordinator with
      ledger := coordinator.ledger.append task.entry appended
      tasks := coordinator.tasks.eraseIdx place
      awaitingStart
      pumps
      queue } := by
  have left : EffectsRecorded { coordinator with
      tasks := coordinator.tasks.eraseIdx place, awaitingStart, pumps, queue } :=
    holds.frame rfl rfl fun _ member => .inl (List.mem_of_mem_eraseIdx member)
  exact left.append appended (tracked.task_ne_of_erased found)

theorem EffectsRecorded.recordStart (holds : coordinator.EffectsRecorded)
    (tracked : coordinator.Tracked setting) {appended : Appended}
    (room : coordinator.StartFindsRoom (.recordStart place appended)) :
    (coordinator.recordStart place appended).EffectsRecorded := by
  obtain same | ⟨task, found, stage, outcome⟩ := coordinator.recordStart_cases place appended
  · rw [same]
    exact holds
  · have member := List.mem_of_getElem? found
    obtain ⟨landed, -, same⟩ | ⟨-, same⟩ | ⟨rfl, -⟩ := outcome
    · rw [same]
      exact holds.endTask tracked found appended _ _ _
    · rw [same]
      refine ⟨?_, holds.effects⟩
      intro other inside waits
      have named := tracked.named task member
      by_cases own : task.entry.operationId = other.id
      · refine ⟨task.entry, ?_, tracked.starting task member stage⟩
        rw [← own]
        exact Ledger.lastOf_append_landed rfl
      · unfold RunsOnRecord
        rw [Ledger.lastOf_append_of_ne own]
        rcases List.mem_or_eq_of_mem_set inside with earlier | rfl
        · exact holds.next other earlier waits
        · exact absurd named own
    · exact absurd stage (room task found)

theorem EffectsRecorded.begin (holds : coordinator.EffectsRecorded) (place : Nat)
    (now : Timestamp) : (coordinator.begin place now).EffectsRecorded := by
  have further : ∀ next : Task, next.stage ≠ .recorded →
      ∀ task ∈ coordinator.tasks.set place next, task ∈ coordinator.tasks ∨ task.stage ≠ .recorded := by
    intro next stage task member
    rcases List.mem_or_eq_of_mem_set member with earlier | rfl
    · exact .inl earlier
    · exact .inr stage
  obtain same | ⟨task, found, stage, ⟨sequence, same⟩ | same⟩ := coordinator.begin_cases place now
  · rw [same]
    exact holds
  · rw [same]
    exact holds.frame rfl rfl (further _ TaskStage.noConfusion)
  · rw [same]
    have runs := holds.next task (List.mem_of_getElem? found) stage
    have moved : EffectsRecorded { coordinator with
        tasks := coordinator.tasks.set place { task with stage := .running } } :=
      holds.frame rfl rfl (further _ TaskStage.noConfusion)
    refine ⟨moved.next, ?_⟩
    intro start member
    rcases List.mem_append.mp member with earlier | last
    · exact holds.effects start earlier
    · obtain ⟨entry, recorded, running⟩ := runs
      rw [List.mem_singleton.mp last]
      exact ⟨entry, recorded, (lastOf_eq_some recorded).2, running⟩

theorem EffectsRecorded.finish (holds : coordinator.EffectsRecorded) (place : Nat)
    (ended : EffectEnd) (now : Timestamp) :
    (coordinator.finish place ended now).EffectsRecorded := by
  obtain same | ⟨task, sequence, found, -, same⟩ := coordinator.finish_cases place ended now
  · rw [same]
    exact holds
  · rw [same]
    refine holds.frame rfl rfl ?_
    intro other member
    rcases List.mem_or_eq_of_mem_set member with earlier | rfl
    · exact .inl earlier
    · exact .inr TaskStage.noConfusion

theorem EffectsRecorded.recordOutcome (holds : coordinator.EffectsRecorded)
    (tracked : coordinator.Tracked setting) (place : Nat) (appended : Appended) :
    (coordinator.recordOutcome place appended).EffectsRecorded := by
  obtain same | ⟨task, found, -, same⟩ := coordinator.recordOutcome_cases place appended
  · rw [same]
    exact holds
  · rw [same]
    exact holds.endTask tracked found appended _ _ _

theorem EffectsRecorded.submit (holds : coordinator.EffectsRecorded) (actor : String)
    (request : ParsedMutationRequest) :
    (coordinator.submit setting actor request).1.EffectsRecorded := by
  obtain same | ⟨_, -, -, same⟩ := coordinator.submit_cases setting actor request
  · rw [same]
    exact holds
  · rw [same]
    exact holds.frame rfl rfl fun _ member => .inl member

theorem EffectsRecorded.check (holds : coordinator.EffectsRecorded) (place : Nat)
    (lookups : Lookups) (now : Timestamp) :
    (coordinator.check setting place lookups now).1.EffectsRecorded := by
  obtain same | ⟨_, -, same | ⟨-, same⟩⟩ :=
    coordinator.check_cases setting place lookups now
  · rw [same]
    exact holds
  · rw [same]
    exact holds.frame rfl rfl fun _ member => .inl member
  · rw [same]
    exact holds.frame rfl rfl fun _ member => .inl member

theorem EffectsRecorded.runPump (holds : coordinator.EffectsRecorded)
    (tracked : coordinator.Tracked setting) (now : Timestamp) :
    (coordinator.runPump now).EffectsRecorded := by
  unfold Coordinator.runPump
  split
  · exact holds
  · refine EffectsRecorded.pump ?_ tracked.pumpFewer now
    exact holds.frame rfl rfl fun _ member => .inl member

theorem EffectsRecorded.next_step (holds : coordinator.EffectsRecorded)
    (tracked : coordinator.Tracked setting) {input : CoordinatorInput}
    (room : coordinator.StartFindsRoom input) :
    ((machine setting).next coordinator input).EffectsRecorded := by
  cases input with
  | submit actor request => exact holds.submit actor request
  | check place lookups now => exact holds.check place lookups now
  | accept place appended now => exact holds.accept tracked place appended now
  | refuse place appended => exact holds.refuse tracked place appended
  | cancel actor operationId now => exact holds.cancel actor operationId now
  | recordCancellation place appended => exact holds.recordCancellation tracked place appended
  | recordStart place appended => exact holds.recordStart tracked room
  | begin place now => exact holds.begin place now
  | finish place ended now => exact holds.finish place ended now
  | recordOutcome place appended => exact holds.recordOutcome tracked place appended
  | pump now => exact holds.runPump tracked now
  | compact nowMs =>
    refine holds.frame ?_ rfl fun _ member => .inl member
    exact coordinator.ledger.log_compact setting.retention nowMs
  | registerEffect kind => exact holds.frame rfl rfl fun _ member => .inl member
  | resolveBlock repositoryId => exact holds.frame rfl rfl fun _ member => .inl member

end Coordinator

open Coordinator

/-- Where the journal always has room for the record that an operation runs, effects start
behind that record, in every order of steps and whichever appends are rejected. -/
theorem effects_start_on_record {setting : Setting} (opening : Opening setting)
    (inputs : List CoordinatorInput)
    (room : (machine setting).Meets StartFindsRoom opening.coordinator inputs) :
    ∀ start ∈ ((machine setting).after opening.coordinator inputs).history.effects,
      start.Recorded := by
  have holds := (machine setting).invariant_of_step
    (fun coordinator => coordinator.Tracked setting ∧ coordinator.EffectsRecorded)
    (fun _ input held room => ⟨held.1.next input, held.2.next_step held.1 room⟩)
    ⟨opening.tracked, fun _ member => absurd member List.not_mem_nil,
      fun _ member => absurd member List.not_mem_nil⟩ room
  exact holds.2.effects

def startedRun (appended : Appended) : List CoordinatorInput :=
  [.submit "user" (workspaceRequest "one"), .check 0 noLookups epoch, .accept 0 .stored epoch,
    .recordStart 0 appended, .begin 0 epoch]

theorem effects_start_on_record_stored :
    let state := (machine sampleSetting).after sampleOpening.coordinator (startedRun .stored)
    state.history.effects.length = 1 ∧ ∀ start ∈ state.history.effects, start.Recorded :=
  ⟨by decide, effects_start_on_record sampleOpening (startedRun .stored) ⟨trivial, trivial, trivial,
    trivial, trivial, trivial⟩⟩

/-- Where the journal is full, the effect starts although the last record in the file says that
the operation was accepted. -/
theorem effect_starts_off_record :
    ∃ start ∈ ((machine sampleSetting).after sampleOpening.coordinator
      (startedRun .full)).history.effects, ¬ start.Recorded := by
  have effects : ((machine sampleSetting).after sampleOpening.coordinator
      (startedRun .full)).history.effects.map (fun start => start.recorded.map JournalEntry.status) =
        [some "accepted"] := by decide
  generalize (machine sampleSetting).after sampleOpening.coordinator (startedRun .full) = state
    at effects
  obtain ⟨start, single⟩ : ∃ start, state.history.effects = [start] :=
    List.length_eq_one_iff.mp (by simpa using congrArg List.length effects)
  rw [single, List.map_singleton] at effects
  refine ⟨start, single ▸ List.mem_singleton_self start, ?_⟩
  rintro ⟨entry, recorded, -, running⟩
  rw [recorded, Option.map_some, running] at effects
  exact absurd effects (by decide)

end Refyard.HostNode
