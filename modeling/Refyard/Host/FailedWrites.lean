import Refyard.Host
import Refyard.Jobs.Uncertainty

/-! What a journal write that fails leaves behind. Two calls change memory before the last
file they write is on the disk, and none of them takes a change back. -/
namespace Refyard

def Host.withJournal (host : Host) (journal : Journal) : Host :=
  { host with engine := { host.engine with journal := journal } }

namespace Journal

/-- The second journal holds the records of the first and answers every later call as the
first would. -/
structure NoTrace (before after : Journal) : Prop where
  records : after.state.records = before.state.records
  nextSequence : after.state.nextSequence = before.state.nextSequence
  findClientRequest : ∀ actor clientRequestId,
    after.findClientRequest actor clientRequestId = before.findClientRequest actor clientRequestId
  listFor : ∀ actor limit, after.listFor actor limit = before.listFor actor limit
  later : ∀ (digest : MutationRequest → String) (host : Host) (inputs : List HostInput),
    (Host.machine digest).outputs (host.withJournal after) inputs =
      (Host.machine digest).outputs (host.withJournal before) inputs

theorem NoTrace.refl (journal : Journal) : journal.NoTrace journal :=
  ⟨rfl, rfl, fun _ _ => rfl, fun _ _ => rfl, fun _ _ _ => rfl⟩

theorem not_noTrace_enrol {journal : Journal} {record : JournalRecord}
    (fresh : journal.state.records.contains record.operationId = false) :
    ¬journal.NoTrace (journal.enrol record) := by
  intro same
  have entered := journal.get_enrol_self record
  rw [get, same.records] at entered
  have free := get_eq_none_of_fresh fresh
  rw [get, entered] at free
  contradiction

/-- A failed append leaves no trace exactly when it is not the index that could not be
written: a record that is on the disk stays in memory and answers for a request that will
never run. -/
theorem failed_append_leaves_no_trace (journal : Journal) (fault : Option WriteFault)
    (record : JournalRecord) : (∀ problem, (journal.append fault record).1 = .error problem →
        journal.NoTrace (journal.append fault record).2) ↔
      (journal.state.records.contains record.operationId = false →
        journal.takesRecord fault record.operationId = true →
          journal.takesIndex (nextWrite fault) = true) := by
  obtain ⟨problem, failed, why⟩ | ⟨problem, failed, fresh, takes, refuses⟩ | ⟨done, -, -, takes⟩ :=
    journal.append_cases fault record
  · rw [failed]
    refine iff_of_true (fun _ _ => .refl journal) fun fresh takes => ?_
    rw [fresh, takes] at why
    simp at why
  · rw [failed]
    refine iff_of_false (fun clean => not_noTrace_enrol fresh (clean problem rfl)) fun index => ?_
    rw [index fresh takes] at refuses
    contradiction
  · rw [done]
    exact iff_of_true (fun problem failed => by cases failed) fun _ _ => takes

/-- The index of a first append is not written, and the record that will never run is
found. -/
theorem failed_index_write_leaves_record :
    ¬∀ (journal : Journal) (fault : Option WriteFault) (record : JournalRecord) (problem : Problem),
      (journal.append fault record).1 = .error problem →
        journal.NoTrace (journal.append fault record).2 := by
  intro clean
  let record := MutationEngine.acceptedRecord
    ⟨"owner", Host.sampleRequest "a" "repo_1", "a", Host.sampleKey, none⟩ "op_1" 1
  obtain ⟨problem, failed⟩ : ∃ problem, ((fresh (some "state")).append
      (some ⟨1, .create, "full"⟩) record).1 = .error problem := by
    obtain ⟨problem, failed, -⟩ | ⟨problem, failed, -⟩ | ⟨-, -, -, index⟩ :=
      (fresh (some "state")).append_cases (some ⟨1, .create, "full"⟩) record
    · exact ⟨problem, by rw [failed]⟩
    · exact ⟨problem, by rw [failed]⟩
    · exact absurd index (by decide)
  exact absurd ((clean _ _ _ problem failed).findClientRequest "owner" "a") (by decide)

end Journal

namespace MutationEngine

/-- An acknowledgement that fails changes nothing exactly when it does not get as far as a
block, or would not fail any more: once the block is lifted, a confirmation that is
refused or not written does not put it back. -/
theorem failed_acknowledgement_changes_nothing (engine : MutationEngine) (registries : Registries)
    (operationId confirmedSnapshotId : String) (fault : Option WriteFault) (nowMs : Int) :
    (∀ problem, (engine.acknowledgeUncertainOperation registries operationId confirmedSnapshotId
          fault nowMs).1 = .error problem →
        (engine.acknowledgeUncertainOperation registries operationId confirmedSnapshotId
            fault nowMs).2.recovery = engine.recovery ∧
          (engine.acknowledgeUncertainOperation registries operationId confirmedSnapshotId
            fault nowMs).2.journal = engine.journal) ↔
      (engine.lifts registries operationId confirmedSnapshotId = true →
        ∀ record, engine.journal.get operationId = some record → record.acknowledgedAtMs = none ∧
            engine.journal.takesRecord fault operationId = true ∧
              engine.journal.takesIndex (nextWrite fault) = true) := by
  obtain ⟨idle, problem, refused⟩ | ⟨lifts, record, confirmed, blocked, done⟩ :=
    engine.acknowledgeUncertainOperation_cases registries operationId confirmedSnapshotId fault nowMs
  · rw [refused]
    refine iff_of_true (fun _ _ => ⟨rfl, rfl⟩) fun lifts => ?_
    rw [idle] at lifts
    contradiction
  obtain ⟨held, unknown, -⟩ := confirmable_ok confirmed
  have changed : (engine.recovery.resolveBlock record.writeKey).2 ≠ engine.recovery := by
    intro same
    have lifted := Recovery.blockFor_resolveBlock engine.recovery record.writeKey record.writeKey
    rw [same, if_pos rfl] at lifted
    rw [lifted] at blocked
    contradiction
  have confirms := Journal.acknowledge_ok_iff held fault nowMs
  rw [JournalRecord.blocksWrites_iff] at confirms
  rw [done]
  cases result : (engine.journal.acknowledge fault operationId nowMs).1 with
  | ok new =>
    refine iff_of_true (fun problem failed => by cases failed) fun _ found hfound => ?_
    cases Option.some.inj (held.symm.trans hfound)
    obtain ⟨⟨-, unconfirmed⟩, takes, index⟩ := confirms.mp ⟨new, result⟩
    exact ⟨unconfirmed, takes, index⟩
  | error problem =>
    refine iff_of_false (fun clean => changed (clean problem rfl).1) fun h => ?_
    obtain ⟨unconfirmed, takes, index⟩ := h lifts record held
    obtain ⟨new, succeeded⟩ := confirms.mpr ⟨⟨.inl unknown, unconfirmed⟩, takes, index⟩
    rw [result] at succeeded
    contradiction

/-- The confirmation cannot be written, and the block is gone. -/
theorem failed_confirmation_lifts_block :
    ¬∀ (inputs : List HostInput) (operationId confirmedSnapshotId : String)
        (registries : Registries) (fault : Option WriteFault) (nowMs : Int) (problem : Problem),
      let engine := ((Host.machine Host.sampleDigest).after Host.sampleHost inputs).engine
      let ended := engine.acknowledgeUncertainOperation registries operationId confirmedSnapshotId
        fault nowMs
      ended.1 = .error problem →
        ended.2.recovery = engine.recovery ∧ ended.2.journal = engine.journal := by
  intro clean
  have same := (clean (Host.accept "a" "repo_1" ++ Host.run "op_1" (.unknown "killed" Host.failure))
    "op_1" "snap_1" Host.sampleRegistries (some ⟨0, .create, "full"⟩) 9 _ rfl).1
  have block := congrArg (fun recovery : Recovery => (recovery.blockFor Host.sampleKey).isSome) same
  exact absurd block (by decide)

end MutationEngine
end Refyard
