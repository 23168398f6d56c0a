import Refyard.Jobs.JournalChanges

/-! Restart recovery: which write keys this process refuses to write under. -/
namespace Refyard

def restartUnknownMessage : String :=
  "this service restarted while this operation was in flight; Git may have changed something, so the result is unknown and the operation will not be retried"

def restartUnknownReason : String := "process restarted with the operation in flight"

structure WriteBlock where
  writeKey : String
  operationIds : List String
  reason : String
  sinceMs : Int

/-- In memory on purpose: the journal holds the uncertainty a block is derived from. -/
structure Recovery where
  blocks : Table WriteBlock.writeKey

namespace Recovery

def new : Recovery := ⟨.empty⟩

def blockFor (recovery : Recovery) (writeKey : String) : Option WriteBlock :=
  recovery.blocks.get? writeKey

def entryFor (recovery : Recovery) (record : JournalRecord) (nowMs : Int) : WriteBlock :=
  (recovery.blockFor record.writeKey).getD
    { writeKey := record.writeKey
      operationIds := []
      reason := record.unknownReason.getD restartUnknownReason
      sinceMs := record.finishedAtMs.getD nowMs }

def block (recovery : Recovery) (record : JournalRecord) (nowMs : Int) : Recovery :=
  let held := recovery.entryFor record nowMs
  let joined :=
    if record.operationId ∈ held.operationIds then held
    else { held with operationIds := held.operationIds ++ [record.operationId] }
  ⟨recovery.blocks.insert joined⟩

/-- Clears a block after a person resolved it. The answer is false when there was none. -/
def resolveBlock (recovery : Recovery) (writeKey : String) : Bool × Recovery :=
  (recovery.blocks.contains writeKey, ⟨recovery.blocks.erase writeKey⟩)

/-- Blocks the repositories of the records just rewritten, and of every record an earlier
start already made uncertain. -/
def reconcile (recovery : Recovery) (journal : Journal) (fault : Option WriteFault) (nowMs : Int) :
    Except Problem (List JournalRecord) × Journal × Recovery :=
  match journal.reconcileUnfinished fault nowMs restartUnknownMessage restartUnknownReason with
  | (.error problem, journal) => (.error problem, journal, recovery)
  | (.ok reconciled, journal) =>
      (.ok reconciled, journal, (reconciled ++ journal.unacknowledged).foldl (fun recovery record =>
          recovery.block record nowMs) recovery)

@[simp] theorem blockFor_new (key : String) : new.blockFor key = none := Table.get?_empty key

variable (recovery : Recovery)

@[simp] theorem entryFor_writeKey (record : JournalRecord) (nowMs : Int) :
    (recovery.entryFor record nowMs).writeKey = record.writeKey := by
  unfold entryFor
  cases held : recovery.blockFor record.writeKey with
  | none => rfl
  | some block => exact Table.key_of_get? held

theorem isSome_blockFor_block (record : JournalRecord) (nowMs : Int) (key : String) :
    ((recovery.block record nowMs).blockFor key).isSome = true ↔
      key = record.writeKey ∨ (recovery.blockFor key).isSome = true := by
  have joined : (if record.operationId ∈ (recovery.entryFor record nowMs).operationIds then
      recovery.entryFor record nowMs
    else { recovery.entryFor record nowMs with
      operationIds :=
        (recovery.entryFor record nowMs).operationIds ++ [record.operationId] }).writeKey =
      record.writeKey := by
    split <;> exact entryFor_writeKey _ _ _
  unfold block blockFor
  rw [Table.get?_insert, joined]
  split
  · rename_i same
    simp [same]
  · rename_i differ
    simp [differ]

theorem isSome_blockFor_foldl (records : List JournalRecord) (recovery : Recovery) (nowMs : Int)
    (key : String) :
    ((records.foldl (fun recovery record => recovery.block record nowMs) recovery).blockFor
        key).isSome = true ↔
      (∃ record ∈ records, record.writeKey = key) ∨ (recovery.blockFor key).isSome = true := by
  induction records generalizing recovery with
  | nil => simp
  | cons record rest ih =>
    rw [List.foldl_cons, ih, isSome_blockFor_block]
    simp only [List.mem_cons, exists_eq_or_imp]
    rw [← or_assoc, or_comm (a := ∃ other ∈ rest, other.writeKey = key), eq_comm]

theorem blockFor_resolveBlock (writeKey key : String) :
    (recovery.resolveBlock writeKey).2.blockFor key =
      if key = writeKey then none else recovery.blockFor key :=
  Table.get?_erase _ _ _

theorem resolveBlock_found (writeKey : String) :
    (recovery.resolveBlock writeKey).1 = (recovery.blockFor writeKey).isSome := rfl

end Recovery
end Refyard
