import Refyard.Jobs.Journal

/-! What each journal call can do, said once. Later modules read these case lemmas and
do not unfold the calls. -/
namespace Refyard

def diskTakes (fault : Option WriteFault) : Bool :=
  match fault with
  | some ⟨0, _, _⟩ => false
  | _ => true

structure JournalRecord.SameRequest (old new : JournalRecord) : Prop where
  operationId : new.operationId = old.operationId
  clientRequestId : new.clientRequestId = old.clientRequestId
  actor : new.actor = old.actor
  kind : new.kind = old.kind
  target : new.target = old.target
  payloadDigest : new.payloadDigest = old.payloadDigest
  writeKey : new.writeKey = old.writeKey

namespace JournalRecord

@[refl] theorem SameRequest.refl (record : JournalRecord) : record.SameRequest record :=
  ⟨rfl, rfl, rfl, rfl, rfl, rfl, rfl⟩

variable {record : JournalRecord}

theorem blocksWrites_iff :
    record.blocksWrites = true ↔ (record.status = .unknown ∨ record.status = .needsAttention) ∧
        record.acknowledgedAtMs = none := by
  simp [blocksWrites]

theorem isUnfinished_iff :
    record.isUnfinished = true ↔ record.status = .accepted ∨ record.status = .running := by
  simp [isUnfinished]

theorem not_blocksWrites_of_unfinished (h : record.isUnfinished = true) :
    record.blocksWrites = false := by
  rw [isUnfinished_iff] at h
  rcases h with h | h <;> simp [blocksWrites, h]

end JournalRecord

def EffectOutcome.status : EffectOutcome → OperationStatus
  | .succeeded _ => .succeeded
  | .failed _ => .failed
  | .needsAttention _ => .needsAttention
  | .unknown .. => .unknown

variable (record : JournalRecord)
variable (outcome : EffectOutcome)

@[simp] theorem terminalRecord_status (nowMs : Int) :
    (terminalRecord record outcome nowMs).status = outcome.status := by
  cases outcome <;> rfl

@[simp] theorem terminalRecord_acknowledgedAtMs (nowMs : Int) :
    (terminalRecord record outcome nowMs).acknowledgedAtMs = record.acknowledgedAtMs := by
  cases outcome <;> rfl

theorem terminalRecord_sameRequest (nowMs : Int) :
    record.SameRequest (terminalRecord record outcome nowMs) := by
  cases outcome <;> exact ⟨rfl, rfl, rfl, rfl, rfl, rfl, rfl⟩

theorem startedRecord_sameRequest (nowMs : Int) (record : JournalRecord) :
    record.SameRequest (Journal.startedRecord nowMs record) :=
  ⟨rfl, rfl, rfl, rfl, rfl, rfl, rfl⟩

theorem cancelledRecord_sameRequest (nowMs : Int) (record : JournalRecord) :
    record.SameRequest (Journal.cancelledRecord nowMs record) :=
  ⟨rfl, rfl, rfl, rfl, rfl, rfl, rfl⟩

theorem neverStartedRecord_sameRequest (problem : Problem) (nowMs : Int) (record : JournalRecord) :
    record.SameRequest (Journal.neverStartedRecord problem nowMs record) :=
  ⟨rfl, rfl, rfl, rfl, rfl, rfl, rfl⟩

theorem reconciledRecord_sameRequest (nowMs : Int) (message reason : String) (sequence : Nat)
    (record : JournalRecord) :
    record.SameRequest (Journal.reconciledRecord nowMs message reason sequence record) :=
  ⟨rfl, rfl, rfl, rfl, rfl, rfl, rfl⟩

namespace Journal

def publish (journal : Journal) (name : FileName) (text : FileText) : Journal :=
  { journal with root := journal.root.map (·.publish name text) }

def takesRecord (journal : Journal) (fault : Option WriteFault) (operationId : String) : Bool :=
  journal.root.isNone || (isOperationId operationId && diskTakes fault)

def takesIndex (journal : Journal) (fault : Option WriteFault) : Bool :=
  journal.root.isNone || diskTakes fault

def store (journal : Journal) (record : JournalRecord) : Journal :=
  (journal.publish (.record record.operationId) (.record record)).putRecord record

def publishIndex (journal : Journal) : Journal :=
  journal.publish .index (.index (indexOf journal.state))

def enrol (journal : Journal) (record : JournalRecord) : Journal :=
  (journal.publish (.record record.operationId) (.record (journal.numbered record))).enter
    (journal.numbered record)

variable {fault : Option WriteFault} (journal : Journal) {operationId : String}
variable (root : StateRoot) {new : JournalRecord}

theorem writeAtomic_of_takes (name : FileName) (text : FileText) (h : diskTakes fault = true) :
    root.writeAtomic fault name text = .ok (root.publish name text) := by
  match fault with
  | none => rfl
  | some ⟨0, _, _⟩ => contradiction
  | some ⟨_ + 1, _, _⟩ => rfl

theorem writeAtomic_of_refuses (name : FileName) (text : FileText) (h : diskTakes fault = false) :
    ∃ problem, root.writeAtomic fault name text = .error problem := by
  unfold diskTakes at h
  split at h
  · exact ⟨_, rfl⟩
  · contradiction

theorem writeRecord_of_takes (record : JournalRecord)
    (h : journal.takesRecord fault record.operationId = true) : journal.writeRecord fault record =
      .ok (journal.publish (.record record.operationId) (.record record)) := by
  unfold writeRecord publish
  cases hroot : journal.root with
  | none =>
    cases journal
    simp_all
  | some root =>
    obtain ⟨minted, takes⟩ : isOperationId record.operationId = true ∧ diskTakes fault = true := by
      simpa [takesRecord, hroot] using h
    simp [minted, writeAtomic_of_takes _ _ _ takes]

theorem writeRecord_of_refuses (record : JournalRecord)
    (h : journal.takesRecord fault record.operationId = false) :
    ∃ problem, journal.writeRecord fault record = .error problem := by
  unfold writeRecord
  cases hroot : journal.root with
  | none => simp [takesRecord, hroot] at h
  | some root =>
    by_cases minted : isOperationId record.operationId = true
    · have refuses : diskTakes fault = false := by simpa [takesRecord, hroot, minted] using h
      obtain ⟨problem, hwrite⟩ := writeAtomic_of_refuses root
        (.record record.operationId) (.record record) refuses
      exact ⟨problem, by simp [minted, hwrite]⟩
    · exact ⟨_, by simp only [minted]; rfl⟩

theorem writeIndex_of_takes {journal : Journal} (h : journal.takesIndex fault = true) :
    journal.writeIndex fault = .ok journal.publishIndex := by
  unfold writeIndex publishIndex publish
  cases hroot : journal.root with
  | none =>
    cases journal
    simp_all
  | some root =>
    have takes : diskTakes fault = true := by simpa [takesIndex, hroot] using h
    simp [writeAtomic_of_takes _ _ _ takes]

theorem writeIndex_of_refuses {journal : Journal} (h : journal.takesIndex fault = false) :
    ∃ problem, journal.writeIndex fault = .error problem := by
  unfold writeIndex
  cases hroot : journal.root with
  | none => simp [takesIndex, hroot] at h
  | some root =>
    have refuses : diskTakes fault = false := by simpa [takesIndex, hroot] using h
    obtain ⟨problem, hwrite⟩ := writeAtomic_of_refuses root .index
      (.index (indexOf journal.state)) refuses
    exact ⟨problem, by simp [hwrite]⟩

theorem takesIndex_of_root {journal other : Journal} (fault : Option WriteFault)
    (h : other.root.isNone = journal.root.isNone) :
    other.takesIndex fault = journal.takesIndex fault := by
  simp [takesIndex, h]

@[simp] theorem publish_root_isNone (name : FileName) (text : FileText) :
    (journal.publish name text).root.isNone = journal.root.isNone := by
  simp [publish]

theorem append_cases (fault : Option WriteFault) (record : JournalRecord) :
    (∃ problem, journal.append fault record = (.error problem, journal) ∧
      (journal.state.records.contains record.operationId = true ∨
        journal.takesRecord fault record.operationId = false)) ∨
    (∃ problem, journal.append fault record = (.error problem, journal.enrol record) ∧
      journal.state.records.contains record.operationId = false ∧
      journal.takesRecord fault record.operationId = true ∧
      journal.takesIndex (nextWrite fault) = false) ∨
    (journal.append fault record = (.ok (), (journal.enrol record).publishIndex) ∧
      journal.state.records.contains record.operationId = false ∧
      journal.takesRecord fault record.operationId = true ∧
      journal.takesIndex (nextWrite fault) = true) := by
  unfold append
  by_cases held : journal.state.records.contains record.operationId = true
  · exact .inl ⟨_, by rw [if_pos held], .inl held⟩
  rw [if_neg held]
  have fresh := Bool.eq_false_iff.mpr held
  by_cases takes : journal.takesRecord fault record.operationId = true
  · have hwrite := writeRecord_of_takes journal (journal.numbered record) takes
    have same : (journal.enrol record).takesIndex (nextWrite fault) =
        journal.takesIndex (nextWrite fault) :=
      takesIndex_of_root _ (publish_root_isNone journal _ _)
    by_cases index : journal.takesIndex (nextWrite fault) = true
    · have hindex := writeIndex_of_takes (same.trans index)
      exact .inr (.inr ⟨by simp only [hwrite]; exact hindex ▸ rfl, fresh, takes, index⟩)
    · have full := Bool.eq_false_iff.mpr index
      obtain ⟨problem, hindex⟩ := writeIndex_of_refuses (same.trans full)
      exact .inr (.inl ⟨problem, by simp only [hwrite]; exact hindex ▸ rfl, fresh, takes, full⟩)
  · have refuses := Bool.eq_false_iff.mpr takes
    obtain ⟨problem, hwrite⟩ := writeRecord_of_refuses journal (journal.numbered record) refuses
    exact .inl ⟨problem, by simp only [hwrite], .inr refuses⟩

theorem transition_cases (fault : Option WriteFault) (operationId : String)
    (expected : OperationStatus) (refusal : String) (update : JournalRecord → JournalRecord)
    (keeps : ∀ record : JournalRecord, record.SameRequest (update record)) :
    (∃ problem, journal.transition fault operationId expected refusal update =
        (.error problem, journal) ∧
      ∀ record, journal.get operationId = some record → record.status = expected →
        journal.takesRecord fault operationId = false) ∨
    (∃ record, journal.get operationId = some record ∧ record.status = expected ∧
      journal.takesRecord fault operationId = true ∧
      journal.transition fault operationId expected refusal update =
        (.ok (update record), journal.store (update record))) := by
  unfold transition
  cases held : journal.get operationId with
  | none => exact .inl ⟨_, rfl, by simp⟩
  | some record =>
    have hid : (update record).operationId = operationId :=
      (keeps record).operationId.trans (Table.key_of_get? held)
    by_cases status : record.status = expected
    · by_cases takes : journal.takesRecord fault operationId = true
      · have hwrite := writeRecord_of_takes journal (update record) (hid ▸ takes)
        exact .inr ⟨record, rfl, status, takes, by
          simp only [status, ne_eq, not_true_eq_false, ↓reduceIte, hwrite]
          rfl⟩
      · have refuses := Bool.eq_false_iff.mpr takes
        obtain ⟨problem, hwrite⟩ := writeRecord_of_refuses journal (update record) (hid ▸ refuses)
        exact .inl ⟨problem, by
          simp only [status, ne_eq, not_true_eq_false, ↓reduceIte, hwrite], fun _ _ _ => refuses⟩
    · refine .inl ⟨_, by simp only [ne_eq, status, not_false_eq_true, ↓reduceIte]; rfl, ?_⟩
      intro other same expects
      cases Option.some.inj same
      exact absurd expects status

theorem transition_ok {journal : Journal} {expected : OperationStatus} {refusal : String}
    {update : JournalRecord → JournalRecord}
    (keeps : ∀ record : JournalRecord, record.SameRequest (update record))
    (h : (journal.transition fault operationId expected refusal update).1 = .ok new) :
    ∃ record, journal.get operationId = some record ∧ record.status = expected ∧
      new = update record ∧
      (journal.transition fault operationId expected refusal update).2 = journal.store new := by
  obtain ⟨problem, refused, -⟩ | ⟨record, held, status, -, stored⟩ :=
    journal.transition_cases fault operationId expected refusal update keeps
  · rw [refused] at h
    cases h
  · rw [stored] at h ⊢
    cases h
    exact ⟨record, held, status, rfl, rfl⟩

theorem markStarted_ok {journal : Journal} {nowMs : Int}
    (h : (journal.markStarted fault operationId nowMs).1 = .ok new) :
    ∃ record, journal.get operationId = some record ∧ record.status = .accepted ∧
      new = startedRecord nowMs record ∧
      (journal.markStarted fault operationId nowMs).2 = journal.store new :=
  transition_ok (startedRecord_sameRequest nowMs) h

def confirm (journal : Journal) (nowMs : Int) (record : JournalRecord) : Journal :=
  (journal.number (journal.acknowledgedRecord nowMs record).sequence).store
    (journal.acknowledgedRecord nowMs record)

theorem acknowledge_cases (fault : Option WriteFault) (operationId : String) (nowMs : Int) :
    (∃ problem, journal.acknowledge fault operationId nowMs = (.error problem, journal) ∧
      ∀ record, journal.get operationId = some record → record.blocksWrites = false) ∨
    (∃ record, journal.get operationId = some record ∧ record.blocksWrites = true ∧
      ((∃ problem, journal.acknowledge fault operationId nowMs =
          (.error problem, journal.number (journal.acknowledgedRecord nowMs record).sequence) ∧
          journal.takesRecord fault operationId = false) ∨
        (∃ problem, journal.acknowledge fault operationId nowMs =
          (.error problem, journal.confirm nowMs record) ∧
          journal.takesRecord fault operationId = true ∧
          journal.takesIndex (nextWrite fault) = false) ∨
        (journal.acknowledge fault operationId nowMs =
          (.ok (journal.acknowledgedRecord nowMs record),
            (journal.confirm nowMs record).publishIndex) ∧
          journal.takesRecord fault operationId = true ∧
          journal.takesIndex (nextWrite fault) = true))) := by
  unfold acknowledge
  cases held : journal.get operationId with
  | none => exact .inl ⟨_, rfl, by simp⟩
  | some record =>
    obtain rfl : record.operationId = operationId := Table.key_of_get? held
    by_cases blocks : record.blocksWrites = true
    · refine .inr ⟨record, rfl, blocks, ?_⟩
      simp only [blocks, Bool.not_true, Bool.false_eq_true, ↓reduceIte]
      let raised := journal.number (journal.acknowledgedRecord nowMs record).sequence
      by_cases takes : journal.takesRecord fault record.operationId = true
      · have hwrite := writeRecord_of_takes raised
          (journal.acknowledgedRecord nowMs record) takes
        have same : (journal.confirm nowMs record).takesIndex (nextWrite fault) =
            journal.takesIndex (nextWrite fault) :=
          takesIndex_of_root _ (publish_root_isNone raised _ _)
        by_cases index : journal.takesIndex (nextWrite fault) = true
        · have hindex := writeIndex_of_takes (same.trans index)
          unfold confirm store at hindex
          exact .inr (.inr ⟨by simp only [raised] at hwrite; simp only [hwrite, hindex]; rfl,
            takes, index⟩)
        · have full := Bool.eq_false_iff.mpr index
          obtain ⟨problem, hindex⟩ := writeIndex_of_refuses (same.trans full)
          unfold confirm store at hindex
          exact .inr (.inl ⟨problem, by
            simp only [raised] at hwrite; simp only [hwrite, hindex]; rfl, takes, full⟩)
      · have refuses := Bool.eq_false_iff.mpr takes
        obtain ⟨problem, hwrite⟩ := writeRecord_of_refuses raised
          (journal.acknowledgedRecord nowMs record) refuses
        exact .inl ⟨problem, by simp only [raised] at hwrite; simp only [hwrite], refuses⟩
    · exact .inl ⟨_, by simp only [blocks]; rfl, by simpa using blocks⟩

/-- A held record is confirmed exactly when it still asks for a person and the disk takes
both writes. -/
theorem acknowledge_ok_iff {journal : Journal} {record : JournalRecord}
    (held : journal.get operationId = some record) (fault : Option WriteFault) (nowMs : Int) :
    (∃ confirmed, (journal.acknowledge fault operationId nowMs).1 = .ok confirmed) ↔
      record.blocksWrites = true ∧ journal.takesRecord fault operationId = true ∧
        journal.takesIndex (nextWrite fault) = true := by
  obtain ⟨problem, refused, quiet⟩ | ⟨other, same, blocks, ends⟩ :=
    journal.acknowledge_cases fault operationId nowMs
  · simp [refused, quiet record held]
  cases Option.some.inj (held.symm.trans same)
  obtain ⟨problem, failed, refuses⟩ | ⟨problem, failed, -, refuses⟩ | ⟨confirmed, takes, index⟩ :=
    ends
  · simp [failed, refuses]
  · simp [failed, refuses]
  · simp [confirmed, blocks, takes, index]

end Journal
end Refyard
