import Refyard.Jobs.JournalRuns

/-! A process that dies between two publications. The disk then holds the publications
its last call had made, and the next process loads them. -/
namespace Refyard

/-- A journal and the operations whose start it confirmed: their effect may have begun. -/
structure JournalRun where
  journal : Journal
  started : List String

inductive CrashEvent where
  | complete (call : JournalCall)
  | crash (call : JournalCall) (published : Nat)

def StateRoot.LastPublished (root : StateRoot) (id : String) (record : JournalRecord) : Prop :=
  ∃ later earlier, root.files = later ++ (.record id, .record record) :: earlier ∧
    ∀ publication ∈ later, publication.1 ≠ .record id

namespace JournalRun

def cutAfter (published : Nat) : WriteFault := ⟨published, .rename, "the process died"⟩

def startedBy (call : JournalCall) (answer : Except Problem (List JournalRecord)) : List String :=
  match call, answer with
  | .markStarted id _, .ok _ => [id]
  | _, _ => []

def perform (run : JournalRun) (call : JournalCall) (fault : Option WriteFault) : JournalRun where
  journal := (call.run fault run.journal).2
  started := run.started ++ startedBy call (call.run fault run.journal).1

def reopen (run : JournalRun) : JournalRun :=
  { run with journal := journalMachine.next run.journal .reopen }

def apply (run : JournalRun) : CrashEvent → JournalRun
  | .complete call => run.perform call none
  | .crash call published => (run.perform call (some (cutAfter published))).reopen

def start (path : String) : JournalRun := ⟨.fresh (some path), []⟩

def after (run : JournalRun) (events : List CrashEvent) : JournalRun := events.foldl apply run

structure Recoverable (run : JournalRun) : Prop where
  coherent : run.journal.Coherent
  rooted : run.journal.root.isSome = true
  started : ∀ id ∈ run.started, ∃ record, run.journal.durableRecord id = some record ∧
    record.status ≠ .accepted

structure Settled (run : JournalRun) : Prop extends run.Recoverable where
  listed : ∀ root, run.journal.root = some root → run.journal.state.order ⊆ root.named

theorem listed_of_complete {journal : Journal} (coherent : journal.Coherent)
    (listed : ∀ root, journal.root = some root → journal.state.order ⊆ root.named)
    (call : JournalCall) : ∀ root, (call.run none journal).2.root = some root →
      (call.run none journal).2.state.order ⊆ root.named := by
  intro root rooted
  have kept (other : ∀ record, call ≠ .append record) :
      (call.run none journal).2.state.order ⊆ root.named := by
    have changes := call.run_changes none journal
    have isSome := Journal.changes_rooted changes
    rw [rooted] at isSome
    obtain ⟨before, hbefore⟩ := Option.isSome_iff_exists.mp isSome.symm
    obtain ⟨after, hafter, grows⟩ := Journal.changes_named coherent changes hbefore
    cases Option.some.inj (hafter.symm.trans rooted)
    rw [Journal.changes_order other changes]
    exact fun _ member => grows (listed before hbefore member)
  cases call with
  | append record =>
    obtain ⟨problem, h, -⟩ | ⟨problem, -, -, -, full⟩ | ⟨h, fresh, takes, -⟩ :=
      journal.append_cases none record
    · simp only [JournalCall.run, h] at rooted ⊢
      exact listed root rooted
    · simp [nextWrite, Journal.takesIndex, diskTakes] at full
    · simp only [JournalCall.run, h] at rooted ⊢
      have enrolled := coherent.enrol fresh (Journal.minted_of_takes takes)
      obtain ⟨before, -, rfl⟩ := Journal.exists_root_of_publish rooted
      rw [StateRoot.named_publish_index, Journal.indexOf_ids enrolled.toOrdered]
      exact List.Subset.refl _
  | _ => exact kept (by simp)

theorem durable_of_started {journal : Journal} (coherent : journal.Coherent)
    (rooted : journal.root.isSome = true)
    (listed : ∀ root, journal.root = some root → journal.state.order ⊆ root.named)
    {call : JournalCall} {fault : Option WriteFault} {id : String}
    (h : id ∈ startedBy call (call.run fault journal).1) :
    ∃ record, (call.run fault journal).2.durableRecord id = some record ∧
      record.status ≠ .accepted := by
  unfold startedBy at h
  split at h
  · rename_i name nowMs answer hanswer
    obtain rfl := List.mem_singleton.mp h
    obtain ⟨new, marked⟩ : ∃ new, (journal.markStarted fault id nowMs).1 = .ok new := by
      cases hmark : (journal.markStarted fault id nowMs).1 with
      | ok new => exact ⟨new, rfl⟩
      | error problem => simp [JournalCall.run, hmark, Except.map] at hanswer
    obtain ⟨record, held, status, rfl, stored⟩ := Journal.markStarted_ok marked
    obtain ⟨root, hroot⟩ := Option.isSome_iff_exists.mp rooted
    have durable : journal.durableRecord id = some record :=
      (Journal.durableRecord_eq_some coherent).mpr ⟨root, hroot,
        listed root hroot ((coherent.mem_order id).mpr ⟨record, held⟩), held⟩
    obtain ⟨new, hnew, -, -⟩ := Journal.durableRecord_changes coherent
      ((JournalCall.markStarted id nowMs).run_changes fault journal) durable
    refine ⟨new, hnew, ?_⟩
    obtain ⟨-, -, -, found⟩ := (Journal.durableRecord_eq_some (coherent.changes
      ((JournalCall.markStarted id nowMs).run_changes fault journal))).mp hnew
    have hid : record.operationId = id := Table.key_of_get? held
    have running : ((JournalCall.markStarted id nowMs).run fault journal).2.get id =
        some (Journal.startedRecord nowMs record) := by
      refine (congrArg (Journal.get · id) stored).trans ?_
      rw [Journal.get_store]
      exact if_pos hid.symm
    rw [running] at found
    cases Option.some.inj found
    simp [Journal.startedRecord]
  · contradiction

variable {run : JournalRun}

theorem Settled.perform (settled : run.Settled) (call : JournalCall) (fault : Option WriteFault) :
    (run.perform call fault).Recoverable := by
  have changes := call.run_changes fault run.journal
  refine ⟨settled.coherent.changes changes, ?_, fun id member => ?_⟩
  · exact (Journal.changes_rooted changes).trans settled.rooted
  · rcases List.mem_append.mp member with before | now
    · obtain ⟨record, durable, begun⟩ := settled.started id before
      obtain ⟨new, hnew, -, status | moved⟩ :=
        Journal.durableRecord_changes settled.coherent changes durable
      · exact ⟨new, hnew, status ▸ begun⟩
      · exact ⟨new, hnew, JournalCall.not_accepted_of_moves moved⟩
    · exact durable_of_started settled.coherent settled.rooted settled.listed now

theorem Recoverable.reopen (recoverable : run.Recoverable) : run.reopen.Settled := by
  obtain ⟨root, rooted⟩ := Option.isSome_iff_exists.mp recoverable.rooted
  obtain ⟨loaded, opened, reopened⟩ := Journal.openJournal_spec recoverable.coherent rooted
  have next : run.reopen.journal = loaded := Journal.next_reopen (rooted ▸ opened)
  refine ⟨⟨?_, ?_, fun id member => ?_⟩, fun other hother => ?_⟩
  · rw [next]
    exact reopened.coherent recoverable.coherent rooted
  · rw [next, reopened.rooted]
    rfl
  · obtain ⟨record, durable, begun⟩ := recoverable.started id member
    obtain ⟨new, hnew, status | moved⟩ :=
      Journal.durableRecord_event recoverable.coherent .reopen durable
    · exact ⟨new, hnew, status ▸ begun⟩
    · contradiction
  · rw [next] at hother ⊢
    rw [reopened.rooted] at hother
    cases Option.some.inj hother
    rw [reopened.order]
    exact List.Subset.refl _

theorem Settled.apply (settled : run.Settled) (event : CrashEvent) : (run.apply event).Settled := by
  cases event with
  | complete call =>
    exact ⟨settled.perform call none, listed_of_complete settled.coherent settled.listed call⟩
  | crash call published => exact (settled.perform call _).reopen

theorem settled_start (path : String) : (start path).Settled := by
  refine ⟨⟨Journal.coherent_fresh _, rfl, by simp [start]⟩, fun root rooted => ?_⟩
  simp [start, Journal.fresh, JournalState.blank]

theorem settled_after (path : String) (events : List CrashEvent) :
    ((start path).after events).Settled := by
  suffices h : ∀ run : JournalRun, run.Settled → (run.after events).Settled from
    h _ (settled_start path)
  induction events with
  | nil => exact fun run settled => settled
  | cons event rest ih => exact fun run settled => ih _ (settled.apply event)

/-- A call cut after any number of publications, in any history of calls and crashes,
leaves a directory that loads: every operation the index names with its last published
record, and every operation that may have begun as running or ended. -/
theorem crash_consistency (path : String) (events : List CrashEvent) (call : JournalCall)
    (published : Nat) :
    let cut := ((start path).after events).perform call (some (cutAfter published))
    ∃ root loaded, cut.journal.root = some root ∧ openJournal (some root) = .ok loaded ∧
      (∀ id ∈ root.named, ∃ record, loaded.get id = some record ∧ root.LastPublished id record) ∧
      ∀ id ∈ cut.started, ∃ record, loaded.get id = some record ∧
        (record.status = .running ∨ record.isTerminal = true) := by
  intro cut
  have recoverable : cut.Recoverable := (settled_after path events).perform call _
  obtain ⟨root, rooted⟩ := Option.isSome_iff_exists.mp recoverable.rooted
  obtain ⟨loaded, opened, reopened⟩ := Journal.openJournal_spec recoverable.coherent rooted
  have mirrored := recoverable.coherent.durable root rooted
  refine ⟨root, loaded, rooted, opened, fun id named => ?_, fun id begun => ?_⟩
  · obtain ⟨record, held⟩ :=
      (recoverable.coherent.mem_order id).mp (mirrored.named.subset named)
    refine ⟨record, by rw [reopened.get, if_pos named, held], ?_⟩
    exact PublishLog.read_eq_some.mp (mirrored.mirrors id record held)
  · obtain ⟨record, durable, status⟩ := recoverable.started id begun
    rw [Journal.durableRecord_of_root recoverable.coherent rooted, ← reopened.get] at durable
    refine ⟨record, durable, ?_⟩
    cases hstatus : record.status <;> simp_all [JournalRecord.isTerminal, JournalRecord.isUnfinished]

end JournalRun
end Refyard
