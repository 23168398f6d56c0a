import Refyard.Host
import Refyard.Jobs.JournalRuns
import Refyard.Jobs.Uncertainty

/-! A process that starts over the directory another one left, possibly after starts that
failed half-way. -/
namespace Refyard

namespace JournalRecord

structure Aged (old new : JournalRecord) : Prop where
  same : old.SameRequest new
  status : new.status = old.status ∨ (old.isUnfinished = true ∧ new.status = .unknown)

theorem Aged.refl (record : JournalRecord) : record.Aged record := ⟨.refl _, .inl rfl⟩

theorem not_unfinished_of_unknown {record : JournalRecord} (h : record.status = .unknown) :
    record.isUnfinished = false := by
  simp [isUnfinished, h]

theorem Aged.trans {first second third : JournalRecord} (left : first.Aged second)
    (right : second.Aged third) : first.Aged third := by
  refine ⟨left.same.trans right.same, ?_⟩
  obtain same | ⟨unfinished, unknown⟩ := left.status
  · obtain again | ⟨unfinished, unknown⟩ := right.status
    · exact .inl (again.trans same)
    · refine .inr ⟨?_, unknown⟩
      rwa [isUnfinished, ← same]
  · obtain again | ⟨moved, -⟩ := right.status
    · exact .inr ⟨unfinished, again.trans unknown⟩
    · rw [not_unfinished_of_unknown unknown] at moved
      contradiction

end JournalRecord

namespace Journal

/-- A coherent journal in which nobody confirmed an operation that has not ended. -/
structure Trusted (journal : Journal) : Prop extends journal.Coherent where
  unconfirmed : ∀ id record, journal.get id = some record → record.isUnfinished = true →
    record.acknowledgedAtMs = none

theorem trusted_fresh (path : Option String) : (fresh path).Trusted :=
  ⟨coherent_fresh path, by simp⟩

variable {journal : Journal}
variable {call : JournalCall} {next : Journal} {nowMs : Int} {message reason : String}
  {record : JournalRecord}

theorem Trusted.change (trusted : journal.Trusted)
    (asked : ∀ record, call = .append record → record.acknowledgedAtMs = none)
    (change : Change call journal next) : next.Trusted := by
  refine ⟨trusted.toCoherent.change change, fun id record held unfinished => ?_⟩
  cases change with
  | number => exact trusted.unconfirmed id record held unfinished
  | @store old new stored updates minted =>
    rw [get_store] at held
    split at held
    · cases Option.some.inj held
      obtain ⟨moved, same⟩ | ⟨blocks, status, -⟩ := updates.change
      · rw [same]
        refine trusted.unconfirmed _ old stored ?_
        exact JournalRecord.isUnfinished_iff.mpr (JournalCall.unfinished_of_moves moved)
      · rw [JournalRecord.isUnfinished, status] at unfinished
        have quiet : old.blocksWrites = false :=
          JournalRecord.not_blocksWrites_of_unfinished unfinished
        rw [blocks] at quiet
        contradiction
    · exact trusted.unconfirmed id record held unfinished
  | enrol hcall fresh minted =>
    rw [get_enrol] at held
    split at held
    · cases Option.some.inj held
      have quiet := asked _ hcall
      exact quiet
    · exact trusted.unconfirmed id record held unfinished
  | publishIndex => exact trusted.unconfirmed id record held unfinished

theorem Trusted.changes (trusted : journal.Trusted)
    (asked : ∀ record, call = .append record → record.acknowledgedAtMs = none)
    (changes : Changes call journal next) : next.Trusted := by
  induction changes with
  | refl => exact trusted
  | tail _ change ih => exact ih.change asked change

/-- What a later process finds of the records of an earlier one: nothing it did not have,
and everything its directory named. -/
structure Inherits (before after : Journal) : Prop where
  back : ∀ id new, after.get id = some new → ∃ old, before.get id = some old ∧ old.Aged new
  forth : ∀ id old, before.durableRecord id = some old →
    ∃ new, after.durableRecord id = some new ∧ old.Aged new
  root : after.root.isSome = before.root.isSome

theorem Inherits.refl (journal : Journal) : journal.Inherits journal :=
  ⟨fun _ record held => ⟨record, held, .refl _⟩, fun _ record durable => ⟨record, durable, .refl _⟩,
    rfl⟩

theorem Inherits.trans {first second third : Journal} (left : first.Inherits second)
    (right : second.Inherits third) : first.Inherits third := by
  refine ⟨fun id new held => ?_, fun id old durable => ?_, right.root.trans left.root⟩
  · obtain ⟨middle, hmiddle, late⟩ := right.back id new held
    obtain ⟨old, hold, early⟩ := left.back id middle hmiddle
    exact ⟨old, hold, early.trans late⟩
  · obtain ⟨middle, hmiddle, early⟩ := left.forth id old durable
    obtain ⟨new, hnew, late⟩ := right.forth id middle hmiddle
    exact ⟨new, hnew, early.trans late⟩

theorem open_of_trusted (trusted : journal.Trusted) :
    ∃ loaded, openJournal journal.root = .ok loaded ∧ loaded.Trusted ∧ journal.Inherits loaded := by
  cases rooted : journal.root with
  | none =>
    refine ⟨fresh none, rfl, trusted_fresh none, ⟨by simp, fun id old durable => ?_, ?_⟩⟩
    · rw [durableRecord_of_no_root rooted] at durable
      contradiction
    · rw [rooted]
      rfl
  | some root =>
    obtain ⟨loaded, opened, reopened⟩ := openJournal_spec trusted.toCoherent rooted
    have coherent := reopened.coherent trusted.toCoherent rooted
    have back {id : String} {record : JournalRecord} (held : loaded.get id = some record) :
        journal.get id = some record := by
      rw [reopened.get] at held
      split at held
      · exact held
      · contradiction
    refine ⟨loaded, opened, ⟨coherent, fun id record held =>
      trusted.unconfirmed id record (back held)⟩, ⟨fun id new held => ⟨new, back held, .refl _⟩,
      fun id old durable => ⟨old, ?_, .refl _⟩, by rw [reopened.rooted, rooted]⟩⟩
    rw [durableRecord_of_root trusted.toCoherent rooted] at durable
    rw [durableRecord_of_root coherent reopened.rooted, reopened.get]
    split at durable
    · rename_i named
      rw [if_pos named, if_pos named, durable]
    · contradiction

theorem reconcile_moves {old new : JournalRecord} (h : new.status = old.status ∨
      (JournalCall.reconcileUnfinished nowMs message reason).moves old.status new.status = true) :
    new.status = old.status ∨ (old.isUnfinished = true ∧ new.status = .unknown) := by
  rcases h with h | h
  · exact .inl h
  · refine .inr ⟨JournalRecord.isUnfinished_iff.mpr (JournalCall.unfinished_of_moves h), ?_⟩
    cases hold : old.status <;> cases hnew : new.status <;>
      simp_all [JournalCall.moves]

theorem inherits_reconcile (trusted : journal.Trusted) (fault : Option WriteFault) (nowMs : Int)
    (message reason : String) :
    journal.Inherits (journal.reconcileUnfinished fault nowMs message reason).2 := by
  have changes := journal.reconcileUnfinished_changes fault nowMs message reason
  have order := changes_order (by simp) changes
  have coherent := trusted.toCoherent.changes changes
  refine ⟨fun id new held => ?_, fun id old durable => ?_, changes_rooted changes⟩
  · have member := (coherent.mem_order id).mpr ⟨new, held⟩
    rw [order] at member
    obtain ⟨old, hold⟩ := (trusted.mem_order id).mp member
    obtain ⟨found, hfound, same, moved⟩ := keeps_of_changes changes id old hold
    cases Option.some.inj (held.symm.trans hfound)
    exact ⟨old, hold, same, reconcile_moves moved⟩
  · obtain ⟨new, hnew, same, moved⟩ := durableRecord_changes trusted.toCoherent changes durable
    exact ⟨new, hnew, same, reconcile_moves moved⟩

theorem trusted_reconcile (trusted : journal.Trusted) (fault : Option WriteFault) (nowMs : Int)
    (message reason : String) :
    (journal.reconcileUnfinished fault nowMs message reason).2.Trusted :=
  trusted.changes (by simp) (journal.reconcileUnfinished_changes fault _ _ _)

theorem takesRecord_none (trusted : journal.Trusted) {id : String}
    (held : journal.get id = some record) : journal.takesRecord none id = true := by
  unfold takesRecord
  cases rooted : journal.root with
  | none => rfl
  | some root => simp [(trusted.durable root rooted).minted id record held, diskTakes]

theorem reconcileLoop_succeeds {reconciled todo : List JournalRecord} (awaits : journal.Awaits todo)
    (minted : ∀ record ∈ todo, journal.takesRecord none record.operationId = true) :
    ∃ answer final, reconcileLoop nowMs message reason journal none reconciled todo =
      (.ok answer, final) := by
  induction todo generalizing journal reconciled with
  | nil =>
    obtain ⟨-, ends⟩ | ⟨problem, full, -⟩ | ends :=
      reconcileLoop_nil nowMs message reason journal none reconciled
    · exact ⟨_, _, ends⟩
    · simp [takesIndex, diskTakes] at full
    · exact ⟨_, _, ends⟩
  | cons record rest ih =>
    obtain ⟨problem, refuses, -⟩ | ⟨-, continues⟩ :=
      reconcileLoop_cons nowMs message reason journal none reconciled record rest
    · rw [minted record List.mem_cons_self] at refuses
      contradiction
    · rw [continues]
      refine ih (awaits.rest _ rfl) fun other member => ?_
      have takes := minted other (List.mem_cons_of_mem _ member)
      unfold takesRecord at takes ⊢
      simpa [store, putRecord, number, publish] using takes

theorem reconcileUnfinished_succeeds (trusted : journal.Trusted) (nowMs : Int)
    (message reason : String) :
    ∃ answer final, journal.reconcileUnfinished none nowMs message reason = (.ok answer, final) :=
  reconcileLoop_succeeds journal.awaits_unfinished fun record member =>
    takesRecord_none trusted (journal.awaits_unfinished.held record member)

theorem mem_unacknowledged : record ∈ journal.unacknowledged ↔
      journal.get record.operationId = some record ∧ record.blocksWrites = true := by
  unfold unacknowledged
  rw [List.mem_filter, Table.mem_values]
  rfl

end Journal

/-- The blocks of a new process are exactly those its journal calls for. -/
theorem Recovery.reconcile_spec {journal final : Journal} {recovery : Recovery}
    {fault : Option WriteFault} {nowMs : Int} {answer : List JournalRecord}
    (trusted : journal.Trusted)
    (h : Recovery.new.reconcile journal fault nowMs = (.ok answer, final, recovery)) :
    (∀ id record, final.get id = some record → record.isUnfinished = false) ∧
      ∀ key, (recovery.blockFor key).isSome = true ↔ final.Has JournalRecord.blocksWrites key := by
  unfold reconcile at h
  cases result : journal.reconcileUnfinished fault nowMs restartUnknownMessage
      restartUnknownReason with
  | mk outcome after =>
    rw [result] at h
    cases outcome with
    | error problem => cases h
    | ok reconciled =>
      cases h
      have settled := Journal.reconcileUnfinished_ok result
      refine ⟨fun id record held => ?_, fun key => ?_⟩
      · cases before : journal.get id with
        | none =>
          rw [settled.absent id before] at held
          contradiction
        | some old =>
          cases unfinished : old.isUnfinished with
          | true =>
            obtain ⟨sequence, stored, -⟩ := settled.rewritten id old before unfinished
            rw [stored] at held
            cases Option.some.inj held
            rfl
          | false =>
            rw [settled.finished id old before unfinished] at held
            cases Option.some.inj held
            exact unfinished
      · rw [isSome_blockFor_foldl]
        simp only [blockFor_new, Option.isSome_none, Bool.false_eq_true, or_false, List.mem_append]
        constructor
        · rintro ⟨record, now | earlier, rfl⟩
          · obtain ⟨old, sequence, held, unfinished, rfl, stored⟩ := settled.answered record now
            refine ⟨_, _, stored, rfl, JournalRecord.blocksWrites_iff.mpr ⟨.inl rfl, ?_⟩⟩
            exact trusted.unconfirmed _ old held unfinished
          · obtain ⟨held, blocks⟩ := Journal.mem_unacknowledged.mp earlier
            exact ⟨_, record, held, rfl, blocks⟩
        · rintro ⟨id, record, held, rfl, blocks⟩
          obtain rfl : record.operationId = id := Table.key_of_get? held
          exact ⟨record, .inr (Journal.mem_unacknowledged.mpr ⟨held, blocks⟩), rfl⟩

namespace Host

variable {journal : Journal}

theorem trusted_rootAfterStart (trusted : journal.Trusted) (start : Option WriteFault × Int) :
    ∃ next : Journal, next.Trusted ∧ journal.Inherits next ∧
      rootAfterStart journal.root start = next.root := by
  obtain ⟨loaded, opened, trustedLoaded, inherits⟩ := Journal.open_of_trusted trusted
  refine ⟨_, Journal.trusted_reconcile trustedLoaded start.1 start.2 restartUnknownMessage
    restartUnknownReason, inherits.trans (Journal.inherits_reconcile trustedLoaded _ _ _ _), ?_⟩
  simp only [rootAfterStart, opened, Recovery.reconcile]
  split <;> simp_all

theorem trusted_rootAfterStarts (trusted : journal.Trusted)
    (starts : List (Option WriteFault × Int)) :
    ∃ next : Journal, next.Trusted ∧ journal.Inherits next ∧
      starts.foldl rootAfterStart journal.root = next.root := by
  induction starts generalizing journal with
  | nil => exact ⟨journal, trusted, .refl _, rfl⟩
  | cons start rest ih =>
    obtain ⟨middle, trustedMiddle, early, hroot⟩ := trusted_rootAfterStart trusted start
    obtain ⟨next, trustedNext, late, hrest⟩ := ih trustedMiddle
    exact ⟨next, trustedNext, early.trans late, by rw [List.foldl_cons, hroot, hrest]⟩

/-- A restart over the directory of a trusted journal always ends with a running host. -/
theorem boot_spec (trusted : journal.Trusted) (starts : List (Option WriteFault × Int))
    (effects : List MutationKind) (nowMs : Int) :
    ∃ final recovery, boot (starts.foldl rootAfterStart journal.root) effects none nowMs =
        .ok { engine := .build final recovery effects, submissions := [], tasks := .empty } ∧
      final.Trusted ∧ journal.Inherits final ∧
      (∀ id record, final.get id = some record → record.isUnfinished = false) ∧
      ∀ key, (recovery.blockFor key).isSome = true ↔ final.Has JournalRecord.blocksWrites key := by
  obtain ⟨next, trustedNext, early, hroot⟩ := trusted_rootAfterStarts trusted starts
  obtain ⟨loaded, opened, trustedLoaded, late⟩ := Journal.open_of_trusted trustedNext
  obtain ⟨answer, final, settled⟩ := Journal.reconcileUnfinished_succeeds trustedLoaded nowMs
    restartUnknownMessage restartUnknownReason
  obtain ⟨recovery, reconciled⟩ : ∃ recovery,
      Recovery.new.reconcile loaded none nowMs = (.ok answer, final, recovery) :=
    ⟨_, by simp only [Recovery.reconcile, settled]; rfl⟩
  obtain ⟨finished, blocks⟩ := Recovery.reconcile_spec trustedLoaded reconciled
  have finalEq : final = (loaded.reconcileUnfinished none nowMs restartUnknownMessage
      restartUnknownReason).2 := by rw [settled]
  refine ⟨final, recovery, ?_, ?_, ?_, finished, blocks⟩
  · simp only [boot, hroot, opened, reconciled]
  · exact finalEq ▸ Journal.trusted_reconcile trustedLoaded _ _ _ _
  · exact early.trans (late.trans (finalEq ▸ Journal.inherits_reconcile trustedLoaded _ _ _ _))

end Host
end Refyard
