import Refyard.Jobs.JournalChanges

/-! The records a write key has in the journal that still ask for a person, and how each
journal call changes them. -/
namespace Refyard

namespace JournalRecord

def isUncertain (record : JournalRecord) : Bool :=
  record.status = .unknown && record.acknowledgedAtMs.isNone

theorem isUncertain_iff {record : JournalRecord} :
    record.isUncertain = true ↔ record.status = .unknown ∧ record.acknowledgedAtMs = none := by
  simp [isUncertain]

theorem blocksWrites_of_isUncertain {record : JournalRecord} (h : record.isUncertain = true) :
    record.blocksWrites = true := by
  obtain ⟨unknown, unconfirmed⟩ := isUncertain_iff.mp h
  exact blocksWrites_iff.mpr ⟨.inl unknown, unconfirmed⟩

end JournalRecord

namespace Journal

def Has (journal : Journal) (mark : JournalRecord → Bool) (key : String) : Prop :=
  ∃ id record, journal.get id = some record ∧ record.writeKey = key ∧ mark record = true

section
variable {mark : JournalRecord → Bool} {journal : Journal} {key : String}

theorem has_iff_mem : journal.Has mark key ↔
      ∃ record ∈ journal.state.records.values, record.writeKey = key ∧ mark record = true := by
  constructor
  · rintro ⟨id, record, held, hkey, marked⟩
    exact ⟨record, Table.mem_values_of_get? held, hkey, marked⟩
  · rintro ⟨record, member, hkey, marked⟩
    exact ⟨record.operationId, record, Table.mem_values.mp member, hkey, marked⟩

instance : Decidable (journal.Has mark key) := decidable_of_iff' _ has_iff_mem

theorem has_store {old new : JournalRecord} (held : journal.get old.operationId = some old)
    (same : new.operationId = old.operationId) (quiet : mark old = false) :
    (journal.store new).Has mark key ↔
      (new.writeKey = key ∧ mark new = true) ∨ journal.Has mark key := by
  constructor
  · rintro ⟨id, record, found, hkey, marked⟩
    rw [get_store] at found
    split at found
    · cases Option.some.inj found
      exact .inl ⟨hkey, marked⟩
    · exact .inr ⟨id, record, found, hkey, marked⟩
  · rintro (⟨hkey, marked⟩ | ⟨id, record, found, hkey, marked⟩)
    · exact ⟨_, new, get_store_self _ _, hkey, marked⟩
    · refine ⟨id, record, ?_, hkey, marked⟩
      rw [get_store_of_ne, found]
      intro hid
      rw [hid, same, held] at found
      cases Option.some.inj found
      rw [quiet] at marked
      contradiction

theorem has_enrol {record : JournalRecord} (free : journal.get record.operationId = none)
    (quiet : mark (journal.numbered record) = false) :
    (journal.enrol record).Has mark key ↔ journal.Has mark key := by
  constructor
  · rintro ⟨id, other, found, hkey, marked⟩
    rw [get_enrol] at found
    split at found
    · cases Option.some.inj found
      rw [quiet] at marked
      contradiction
    · exact ⟨id, other, found, hkey, marked⟩
  · rintro ⟨id, other, found, hkey, marked⟩
    refine ⟨id, other, ?_, hkey, marked⟩
    rw [get_enrol, if_neg, found]
    intro hid
    rw [hid, free] at found
    contradiction

theorem has_append (fault : Option WriteFault) {record : JournalRecord}
    (quiet : mark (journal.numbered record) = false) :
    (journal.append fault record).2.Has mark key ↔ journal.Has mark key := by
  obtain ⟨problem, h, -⟩ | ⟨problem, h, fresh, -⟩ | ⟨h, fresh, -⟩ :=
    journal.append_cases fault record
  · rw [h]
  · rw [h]
    exact has_enrol (get_eq_none_of_fresh fresh) quiet
  · rw [h]
    exact has_enrol (get_eq_none_of_fresh fresh) quiet

theorem has_transition (fault : Option WriteFault) (id : String) {expected : OperationStatus}
    {refusal : String} {update : JournalRecord → JournalRecord}
    (keeps : ∀ record : JournalRecord, record.SameRequest (update record))
    (before : ∀ record, record.status = expected → mark record = false)
    (after : ∀ record, record.status = expected → mark (update record) = false) :
    (journal.transition fault id expected refusal update).2.Has mark key ↔
      journal.Has mark key := by
  obtain ⟨problem, h, -⟩ | ⟨record, held, status, -, h⟩ :=
    journal.transition_cases fault id expected refusal update keeps
  · rw [h]
  · obtain rfl : record.operationId = id := Table.key_of_get? held
    rw [h, has_store held (keeps record).operationId (before record status), after record status]
    simp

end

variable {mark : JournalRecord → Bool} {record : JournalRecord}

theorem unmarked_of_unfinished
    (blocking : ∀ record, mark record = true → record.blocksWrites = true)
    (h : record.status = .accepted ∨ record.status = .running) : mark record = false := by
  refine Bool.eq_false_iff.mpr fun marked => ?_
  have quiet := JournalRecord.not_blocksWrites_of_unfinished (JournalRecord.isUnfinished_iff.mpr h)
  rw [blocking record marked] at quiet
  contradiction

theorem unmarked_of_settled (blocking : ∀ record, mark record = true → record.blocksWrites = true)
    (h : record.status ≠ .unknown ∧ record.status ≠ .needsAttention) : mark record = false := by
  refine Bool.eq_false_iff.mpr fun marked => ?_
  obtain ⟨unknown | attention, -⟩ := JournalRecord.blocksWrites_iff.mp (blocking record marked)
  · exact h.1 unknown
  · exact h.2 attention

theorem unmarked_of_acknowledged
    (blocking : ∀ record, mark record = true → record.blocksWrites = true)
    (h : record.acknowledgedAtMs ≠ none) : mark record = false :=
  Bool.eq_false_iff.mpr fun marked =>
    h (JournalRecord.blocksWrites_iff.mp (blocking record marked)).2

theorem get_confirm (journal : Journal) (nowMs : Int) (record : JournalRecord) (id : String) :
    (journal.confirm nowMs record).get id =
      if id = record.operationId then some (journal.acknowledgedRecord nowMs record)
      else journal.get id :=
  get_store _ _ _

theorem has_confirm (blocking : ∀ record, mark record = true → record.blocksWrites = true)
    (journal : Journal) (nowMs : Int) (record : JournalRecord) (key : String) :
    (journal.confirm nowMs record).Has mark key ↔
      ∃ id other, journal.get id = some other ∧ other.writeKey = key ∧ mark other = true ∧
        id ≠ record.operationId := by
  constructor
  · rintro ⟨id, other, held, hkey, marked⟩
    rw [get_confirm] at held
    split at held
    · cases Option.some.inj held
      rw [unmarked_of_acknowledged blocking (by simp [acknowledgedRecord])] at marked
      contradiction
    · rename_i differ
      exact ⟨id, other, held, hkey, marked, differ⟩
  · rintro ⟨id, other, held, hkey, marked, differ⟩
    exact ⟨id, other, by rw [get_confirm, if_neg differ, held], hkey, marked⟩

theorem has_acknowledge (blocking : ∀ record, mark record = true → record.blocksWrites = true)
    (journal : Journal) (fault : Option WriteFault) (id : String) (nowMs : Int) (key : String) :
    (journal.acknowledge fault id nowMs).2.Has mark key ↔
      ∃ other record, journal.get other = some record ∧ record.writeKey = key ∧
        mark record = true ∧ ¬(other = id ∧ journal.takesRecord fault id = true) := by
  have untouched (exempt : ∀ record, journal.get id = some record → mark record = true →
      journal.takesRecord fault id = false) :
      journal.Has mark key ↔
        ∃ other record, journal.get other = some record ∧ record.writeKey = key ∧
          mark record = true ∧ ¬(other = id ∧ journal.takesRecord fault id = true) := by
    constructor
    · rintro ⟨other, record, held, hkey, marked⟩
      refine ⟨other, record, held, hkey, marked, ?_⟩
      rintro ⟨rfl, takes⟩
      rw [exempt record held marked] at takes
      contradiction
    · rintro ⟨other, record, held, hkey, marked, -⟩
      exact ⟨other, record, held, hkey, marked⟩
  obtain ⟨problem, h, quiet⟩ | ⟨record, held, blocks, ends⟩ :=
    journal.acknowledge_cases fault id nowMs
  · rw [h]
    refine untouched fun record held marked => ?_
    have blocks := blocking record marked
    rw [quiet record held] at blocks
    contradiction
  obtain rfl : record.operationId = id := Table.key_of_get? held
  obtain ⟨problem, h, refuses⟩ | ⟨problem, h, takes, -⟩ | ⟨h, takes, -⟩ := ends
  · rw [h]
    exact untouched fun _ _ _ => refuses
  · rw [h, has_confirm blocking]
    simp [takes]
  · rw [h]
    refine (has_confirm blocking journal nowMs record key).trans ?_
    simp [takes]

end Journal
end Refyard
