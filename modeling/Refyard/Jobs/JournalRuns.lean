import Refyard.Foundation.Machine
import Refyard.Jobs.Durability

/-! Runs of journal calls, with writes that fail, directories that are opened again and
processes that die between two publications. -/
namespace Refyard

namespace Journal

def durableRecord (journal : Journal) (id : String) : Option JournalRecord :=
  match openJournal journal.root with
  | .ok loaded => loaded.get id
  | .error _ => none

def durableStatus (journal : Journal) (id : String) : Option OperationStatus :=
  (journal.durableRecord id).map JournalRecord.status

variable {journal : Journal}

theorem durableRecord_of_root (coherent : journal.Coherent) {root : StateRoot}
    (rooted : journal.root = some root) (id : String) :
    journal.durableRecord id = if id ∈ root.named then journal.get id else none := by
  obtain ⟨loaded, opened, reopened⟩ := openJournal_spec coherent rooted
  unfold durableRecord
  rw [rooted, opened]
  exact reopened.get id

theorem durableRecord_of_no_root (h : journal.root = none) (id : String) :
    journal.durableRecord id = none := by
  unfold durableRecord
  rw [h]
  exact Table.get?_empty id

theorem durableRecord_eq_some (coherent : journal.Coherent) {id : String} {record : JournalRecord} :
    journal.durableRecord id = some record ↔
      ∃ root, journal.root = some root ∧ id ∈ root.named ∧ journal.get id = some record := by
  cases rooted : journal.root with
  | none => simp [durableRecord_of_no_root rooted]
  | some root =>
    rw [durableRecord_of_root coherent rooted]
    split <;> simp_all

theorem durableRecord_changes {call : JournalCall} {next : Journal} (coherent : journal.Coherent)
    (changes : Changes call journal next) {id : String} {old : JournalRecord}
    (h : journal.durableRecord id = some old) :
    ∃ new, next.durableRecord id = some new ∧ old.SameRequest new ∧
      (new.status = old.status ∨ call.moves old.status new.status = true) := by
  obtain ⟨root, rooted, named, held⟩ := (durableRecord_eq_some coherent).mp h
  obtain ⟨after, hafter, kept⟩ := changes_named coherent changes rooted
  obtain ⟨new, hnew, same, moved⟩ := keeps_of_changes changes id old held
  exact ⟨new, (durableRecord_eq_some (coherent.changes changes)).mpr
    ⟨after, hafter, kept named, hnew⟩, same, moved⟩

end Journal

/-- A call under the disk it meets, or a new process over the same directory. -/
inductive JournalEvent where
  | call (call : JournalCall) (fault : Option WriteFault)
  | reopen

def JournalEvent.moves : JournalEvent → OperationStatus → OperationStatus → Bool
  | .call asked _ => asked.moves
  | .reopen => fun _ _ => false

theorem JournalCall.run_changes (call : JournalCall) (fault : Option WriteFault)
    (journal : Journal) : Journal.Changes call journal (call.run fault journal).2 := by
  cases call with
  | append record => exact journal.append_changes fault record
  | markStarted id nowMs =>
    refine Journal.transition_changes (fun record status => ⟨?_, ?_⟩)
      (startedRecord_sameRequest nowMs)
    · exact startedRecord_sameRequest nowMs record
    · exact .inl ⟨by rw [status]; rfl, rfl⟩
  | markCancelled id nowMs =>
    refine Journal.transition_changes (fun record status => ⟨?_, ?_⟩)
      (cancelledRecord_sameRequest nowMs)
    · exact cancelledRecord_sameRequest nowMs record
    · exact .inl ⟨by rw [status]; rfl, rfl⟩
  | finish id outcome nowMs =>
    refine Journal.transition_changes (fun record status => ⟨?_, ?_⟩)
      fun record => terminalRecord_sameRequest record outcome nowMs
    · exact terminalRecord_sameRequest record outcome nowMs
    · exact .inl ⟨by simp [status, JournalCall.moves], by simp⟩
  | finishWithoutStart id problem nowMs =>
    refine Journal.transition_changes (fun record status => ⟨?_, ?_⟩)
      (neverStartedRecord_sameRequest problem nowMs)
    · exact neverStartedRecord_sameRequest problem nowMs record
    · exact .inl ⟨by rw [status]; rfl, rfl⟩
  | reconcileUnfinished nowMs message reason => exact journal.reconcileUnfinished_changes fault _ _ _
  | acknowledge id nowMs => exact journal.acknowledge_changes fault id nowMs

def journalMachine : Machine Journal JournalEvent (Except Problem (List JournalRecord)) where
  step journal
    | .call call fault => ((call.run fault journal).2, (call.run fault journal).1)
    | .reopen =>
        match openJournal journal.root with
        | .ok loaded => (loaded, .ok [])
        | .error problem => (journal, .error problem)

namespace Journal

variable {journal : Journal} {id : String}

theorem coherent_reopen {loaded : Journal} (coherent : journal.Coherent)
    (opened : openJournal journal.root = .ok loaded) : loaded.Coherent := by
  cases rooted : journal.root with
  | none =>
    rw [rooted] at opened
    cases opened
    exact coherent_fresh none
  | some root =>
    obtain ⟨found, hfound, reopened⟩ := openJournal_spec coherent rooted
    rw [rooted, hfound] at opened
    cases opened
    exact reopened.coherent coherent rooted

theorem next_reopen {loaded : Journal} (opened : openJournal journal.root = .ok loaded) :
    journalMachine.next journal .reopen = loaded := by
  simp only [Machine.next, journalMachine, opened]

theorem coherent_event (coherent : journal.Coherent) (event : JournalEvent) :
    (journalMachine.next journal event).Coherent := by
  cases event with
  | call call fault => exact coherent.changes (call.run_changes fault journal)
  | reopen =>
    cases opened : openJournal journal.root with
    | ok loaded => exact next_reopen opened ▸ coherent_reopen coherent opened
    | error problem => simpa only [Machine.next, journalMachine, opened] using coherent

theorem coherent_after (path : Option String) (events : List JournalEvent) :
    (journalMachine.after (fresh path) events).Coherent :=
  journalMachine.invariant Coherent (fun _ event held => coherent_event held event)
    (coherent_fresh path) events

theorem durableRecord_event (coherent : journal.Coherent) (event : JournalEvent)
    {old : JournalRecord} (h : journal.durableRecord id = some old) :
    ∃ new, (journalMachine.next journal event).durableRecord id = some new ∧
      (new.status = old.status ∨ event.moves old.status new.status = true) := by
  cases event with
  | call call fault =>
    obtain ⟨new, hnew, -, moved⟩ :=
      durableRecord_changes coherent (call.run_changes fault journal) h
    exact ⟨new, hnew, moved⟩
  | reopen =>
    obtain ⟨root, rooted, named, held⟩ := (durableRecord_eq_some coherent).mp h
    obtain ⟨loaded, opened, reopened⟩ := openJournal_spec coherent rooted
    refine ⟨old, ?_, .inl rfl⟩
    rw [next_reopen (rooted ▸ opened), durableRecord_eq_some (reopened.coherent coherent rooted)]
    exact ⟨root, reopened.rooted, named, by rw [reopened.get, if_pos named, held]⟩

theorem durableStatus_event (coherent : journal.Coherent) (event : JournalEvent)
    {status : OperationStatus} (h : journal.durableStatus id = some status) :
    ∃ moved, (journalMachine.next journal event).durableStatus id = some moved ∧
      (moved = status ∨ event.moves status moved = true) := by
  obtain ⟨old, hold, rfl⟩ := Option.map_eq_some_iff.mp h
  obtain ⟨new, hnew, moved⟩ := durableRecord_event coherent event hold
  exact ⟨new.status, by rw [durableStatus, hnew]; rfl, moved⟩

theorem unfinished_of_event_moves {event : JournalEvent} {first second : OperationStatus}
    (h : event.moves first second = true) : first = .accepted ∨ first = .running := by
  cases event with
  | call call fault => exact JournalCall.unfinished_of_moves h
  | reopen => cases h

theorem durableStatus_terminal (coherent : journal.Coherent) {status : OperationStatus}
    (terminal : status ≠ .accepted ∧ status ≠ .running) (h : journal.durableStatus id = some status)
    (events : List JournalEvent) :
    (journalMachine.after journal events).durableStatus id = some status := by
  induction events generalizing journal with
  | nil => exact h
  | cons event rest ih =>
    refine ih (coherent_event coherent event) ?_
    obtain ⟨moved, hmoved, same | moves⟩ := durableStatus_event coherent event h
    · rw [hmoved, same]
    · rcases unfinished_of_event_moves moves with first | first
      · exact absurd first terminal.1
      · exact absurd first terminal.2

end Journal
end Refyard
