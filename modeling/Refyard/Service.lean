import Refyard.Jobs.Engine

/-! The service around the engine: which key a repository is written under, and how a
person lifts the block an uncertain operation left. -/
namespace Refyard

structure RepositoryRecord where
  targetId : String
  canonicalWorktree : String
  canonicalCommonDir : String

structure SnapshotRecord where
  repositoryId : String
  createdAtMs : Nat

structure Registries where
  repositories : String → Option RepositoryRecord
  snapshots : String → Option SnapshotRecord

def repositoryWriteKey (targetId : String) (record : RepositoryRecord) : String :=
  let identity :=
    if record.canonicalCommonDir.isEmpty then record.canonicalWorktree
    else record.canonicalCommonDir
  s!"repo:{targetId}\x00{identity}"

def workspaceWriteKeyPrefix : String := "root:"

namespace Registries

def requireRecord (registries : Registries) (repositoryId : String) :
    Except Problem RepositoryRecord :=
  match registries.repositories repositoryId with
  | some record => .ok record
  | none => .error (.new .notFound s!"unknown repository {repositoryId}")

def writeKeyForRepository (registries : Registries) (repositoryId : String) :
    Except Problem String :=
  match registries.requireRecord repositoryId with
  | .error problem => .error problem
  | .ok record => .ok (repositoryWriteKey record.targetId record)

/-- `ServiceFacts::write_key`. -/
def writeKey (registries : Registries) (request : MutationRequest) : Except Problem String :=
  match request.target with
  | .workspace allowedRootId _ => .ok (workspaceWriteKeyPrefix ++ allowedRootId)
  | .repository repositoryId _ | .worktree repositoryId _ _ =>
      registries.writeKeyForRepository repositoryId

end Registries

namespace MutationEngine

/-- The checks `acknowledge_uncertain_operation` makes before it touches anything. -/
def confirmable (engine : MutationEngine) (registries : Registries)
    (operationId confirmedSnapshotId : String) : Except Problem JournalRecord :=
  match engine.journal.get operationId with
  | none => .error (unknownOperation operationId)
  | some record =>
      if record.status ≠ .unknown then
        .error (.new .conflict
          s!"operation {operationId} is {statusName record.status} and left no write block to lift")
      else
        match registries.snapshots confirmedSnapshotId with
        | none =>
            .error (.new .notFound
              s!"the snapshot {confirmedSnapshotId} was not minted by this service; re-read the repository and confirm against that snapshot")
        | some snapshot =>
            if record.finishedAtMs.any fun finishedAt => (snapshot.createdAtMs : Int) < finishedAt then
              .error (.new .staleSnapshot
                "the snapshot predates the operation it is meant to confirm; re-read the repository and confirm again")
            else
              match registries.writeKeyForRepository snapshot.repositoryId with
              | .error _ =>
                  .error (.new .conflict
                    "the confirming snapshot does not belong to a repository this service holds")
              | .ok recordedKey =>
                  if recordedKey ≠ record.writeKey then
                    .error (.new .conflict
                      "the confirming snapshot is of a different repository than the one the operation touched; confirm the repository the operation changed")
                  else .ok record

/-- Lifts the write block an uncertain operation left behind: the block first, then the
confirmation in the journal. -/
def acknowledgeUncertainOperation (engine : MutationEngine) (registries : Registries)
    (operationId confirmedSnapshotId : String) (fault : Option WriteFault) (nowMs : Int) :
    Except Problem OperationRecord × MutationEngine :=
  match engine.confirmable registries operationId confirmedSnapshotId with
  | .error problem => (.error problem, engine)
  | .ok record =>
      match engine.recovery.resolveBlock record.writeKey with
      | (false, _) =>
          (.error ((Problem.new .conflict
            s!"operation {operationId} left no write block to lift").forOperation operationId), engine)
      | (true, recovery) =>
          let (acknowledged, journal) := engine.journal.acknowledge fault operationId nowMs
          (acknowledged.map JournalRecord.toOperationRecord, { engine with recovery, journal })

def lifts (engine : MutationEngine) (registries : Registries)
    (operationId confirmedSnapshotId : String) : Bool :=
  match engine.confirmable registries operationId confirmedSnapshotId with
  | .error _ => false
  | .ok record => (engine.recovery.blockFor record.writeKey).isSome

variable {engine : MutationEngine} {registries : Registries}
  {operationId confirmedSnapshotId : String} {record : JournalRecord}

theorem confirmable_ok
    (h : engine.confirmable registries operationId confirmedSnapshotId = .ok record) :
    engine.journal.get operationId = some record ∧ record.status = .unknown ∧
      ∃ snapshot, registries.snapshots confirmedSnapshotId = some snapshot ∧
        (∀ finishedAt, record.finishedAtMs = some finishedAt →
          finishedAt ≤ (snapshot.createdAtMs : Int)) ∧
        registries.writeKeyForRepository snapshot.repositoryId = .ok record.writeKey := by
  unfold confirmable at h
  split at h
  · contradiction
  rename_i held hget
  split at h
  · contradiction
  rename_i unknown
  split at h
  · contradiction
  rename_i snapshot hsnapshot
  split at h
  · contradiction
  rename_i current
  split at h
  · contradiction
  rename_i key hkey
  split at h
  · contradiction
  rename_i same
  cases h
  rw [not_not] at unknown same
  refine ⟨hget, unknown, snapshot, hsnapshot, fun finishedAt finished => ?_, same ▸ hkey⟩
  simpa [finished] using current

theorem confirmable_of {snapshot : SnapshotRecord}
    (held : engine.journal.get operationId = some record) (unknown : record.status = .unknown)
    (minted : registries.snapshots confirmedSnapshotId = some snapshot)
    (current : ∀ finishedAt, record.finishedAtMs = some finishedAt →
      finishedAt ≤ (snapshot.createdAtMs : Int))
    (key : registries.writeKeyForRepository snapshot.repositoryId = .ok record.writeKey) :
    engine.confirmable registries operationId confirmedSnapshotId = .ok record := by
  have fresh : (record.finishedAtMs.any fun finishedAt =>
      (snapshot.createdAtMs : Int) < finishedAt) = false := by
    cases finished : record.finishedAtMs with
    | none => rfl
    | some finishedAt => simpa using current finishedAt finished
  simp [confirmable, held, unknown, minted, fresh, key]

/-- The call is refused and changes nothing, or it lifts the block of the record it names
and then asks the journal. -/
theorem acknowledgeUncertainOperation_cases (engine : MutationEngine) (registries : Registries)
    (operationId confirmedSnapshotId : String) (fault : Option WriteFault) (nowMs : Int) :
    (engine.lifts registries operationId confirmedSnapshotId = false ∧
      ∃ problem, engine.acknowledgeUncertainOperation registries operationId confirmedSnapshotId
        fault nowMs = (.error problem, engine)) ∨
    (engine.lifts registries operationId confirmedSnapshotId = true ∧
      ∃ record, engine.confirmable registries operationId confirmedSnapshotId = .ok record ∧
        (engine.recovery.blockFor record.writeKey).isSome = true ∧
        engine.acknowledgeUncertainOperation registries operationId confirmedSnapshotId
          fault nowMs = ((engine.journal.acknowledge fault operationId nowMs).1.map
              JournalRecord.toOperationRecord, { engine with
              recovery := (engine.recovery.resolveBlock record.writeKey).2,
              journal := (engine.journal.acknowledge fault operationId nowMs).2 })) := by
  unfold acknowledgeUncertainOperation lifts
  cases confirmed : engine.confirmable registries operationId confirmedSnapshotId with
  | error problem => exact .inl ⟨rfl, problem, rfl⟩
  | ok record =>
    cases resolved : engine.recovery.resolveBlock record.writeKey with
    | mk removed recovery =>
      have found : (engine.recovery.blockFor record.writeKey).isSome = removed := by
        rw [← Recovery.resolveBlock_found, resolved]
      cases removed with
      | true => exact .inr ⟨found, record, rfl, found, by simp only [resolved]⟩
      | false => exact .inl ⟨found, _, by simp only [resolved]; rfl⟩

theorem acknowledgeUncertainOperation_of
    (confirmed : engine.confirmable registries operationId confirmedSnapshotId = .ok record)
    (blocked : (engine.recovery.blockFor record.writeKey).isSome = true) (fault : Option WriteFault)
    (nowMs : Int) :
    engine.acknowledgeUncertainOperation registries operationId confirmedSnapshotId fault nowMs =
      ((engine.journal.acknowledge fault operationId nowMs).1.map JournalRecord.toOperationRecord,
        { engine with
          recovery := (engine.recovery.resolveBlock record.writeKey).2,
          journal := (engine.journal.acknowledge fault operationId nowMs).2 }) := by
  obtain ⟨idle, -⟩ | ⟨-, other, same, -, done⟩ :=
    engine.acknowledgeUncertainOperation_cases registries operationId confirmedSnapshotId fault nowMs
  · simp only [lifts, confirmed, blocked] at idle
    contradiction
  · cases confirmed.symm.trans same
    exact done

end MutationEngine
end Refyard
