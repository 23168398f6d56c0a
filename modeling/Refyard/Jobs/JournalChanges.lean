import Refyard.Jobs.JournalSteps

/-! Every journal call is a chain of four kinds of change. An invariant of the journal is
proved for each kind once and then holds across every call. -/
namespace Refyard

inductive JournalCall where
  | append (record : JournalRecord)
  | markStarted (operationId : String) (startedAtMs : Int)
  | markCancelled (operationId : String) (finishedAtMs : Int)
  | finish (operationId : String) (outcome : EffectOutcome) (finishedAtMs : Int)
  | finishWithoutStart (operationId : String) (problem : Problem) (finishedAtMs : Int)
  | reconcileUnfinished (nowMs : Int) (message reason : String)
  | acknowledge (operationId : String) (nowMs : Int)

namespace JournalCall

def run (call : JournalCall) (fault : Option WriteFault) (journal : Journal) :
    Except Problem (List JournalRecord) × Journal :=
  match call with
  | .append record => ((journal.append fault record).1.map fun _ => [],
      (journal.append fault record).2)
  | .markStarted id nowMs => ((journal.markStarted fault id nowMs).1.map fun record => [record],
      (journal.markStarted fault id nowMs).2)
  | .markCancelled id nowMs =>
      ((journal.markCancelled fault id nowMs).1.map fun record => [record],
        (journal.markCancelled fault id nowMs).2)
  | .finish id outcome nowMs =>
      ((journal.finish fault id outcome nowMs).1.map fun record => [record],
        (journal.finish fault id outcome nowMs).2)
  | .finishWithoutStart id problem nowMs =>
      ((journal.finishWithoutStart fault id problem nowMs).1.map fun record => [record],
        (journal.finishWithoutStart fault id problem nowMs).2)
  | .reconcileUnfinished nowMs message reason =>
      journal.reconcileUnfinished fault nowMs message reason
  | .acknowledge id nowMs => ((journal.acknowledge fault id nowMs).1.map fun record => [record],
      (journal.acknowledge fault id nowMs).2)

def moves : JournalCall → OperationStatus → OperationStatus → Bool
  | .markStarted .., .accepted, .running => true
  | .markCancelled .., .accepted, .cancelled => true
  | .finishWithoutStart .., .accepted, .failed => true
  | .finish _ outcome _, .running, ended => ended = outcome.status
  | .reconcileUnfinished .., .accepted, .unknown => true
  | .reconcileUnfinished .., .running, .unknown => true
  | _, _, _ => false

theorem outcome_status_ne_running (outcome : EffectOutcome) : outcome.status ≠ .running := by
  cases outcome <;> simp [EffectOutcome.status]

variable {call : JournalCall} {first second : OperationStatus}

theorem moves_once (h : call.moves first second = true) (third : OperationStatus) :
    call.moves second third = false := by
  cases call with
  | finish id outcome nowMs =>
    have := outcome_status_ne_running outcome
    cases first <;> cases second <;> simp_all [moves]
  | _ => cases first <;> cases second <;> simp_all [moves]

theorem unfinished_of_moves (h : call.moves first second = true) :
    first = .accepted ∨ first = .running := by
  cases call <;> cases first <;> simp_all [moves]

theorem not_accepted_of_moves (h : call.moves first second = true) : second ≠ .accepted := by
  rintro rfl
  cases call with
  | finish id outcome nowMs =>
    cases outcome <;> cases first <;> simp_all [moves, EffectOutcome.status]
  | _ => cases first <;> simp_all [moves]

structure Updates (call : JournalCall) (old new : JournalRecord) : Prop where
  same : old.SameRequest new
  change : (call.moves old.status new.status = true ∧ new.acknowledgedAtMs = old.acknowledgedAtMs) ∨
    (old.blocksWrites = true ∧ new.status = old.status ∧ new.acknowledgedAtMs ≠ none ∧
      ∃ nowMs, call = .acknowledge old.operationId nowMs)

end JournalCall

namespace Journal

inductive Change (call : JournalCall) : Journal → Journal → Prop
  | number (journal : Journal) (sequence : Nat) : Change call journal (journal.number sequence)
  | store {journal : Journal} (old : JournalRecord) {new : JournalRecord}
      (held : journal.get old.operationId = some old) (updates : call.Updates old new)
      (minted : journal.root.isSome = true → isOperationId old.operationId = true) :
      Change call journal (journal.store new)
  | enrol {journal : Journal} {record : JournalRecord} (asked : call = .append record)
      (fresh : journal.state.records.contains record.operationId = false)
      (minted : journal.root.isSome = true → isOperationId record.operationId = true) :
      Change call journal (journal.enrol record)
  | publishIndex (journal : Journal) : Change call journal journal.publishIndex

abbrev Changes (call : JournalCall) : Journal → Journal → Prop :=
  Relation.ReflTransGen (Change call)

variable {fault : Option WriteFault} {operationId id : String} (journal : Journal)

theorem minted_of_takes {journal : Journal} (h : journal.takesRecord fault operationId = true) :
    journal.root.isSome = true → isOperationId operationId = true := by
  intro rooted
  rw [takesRecord, Bool.or_eq_true, Bool.and_eq_true] at h
  rcases h with unrooted | ⟨minted, -⟩
  · rw [Option.isNone_iff_eq_none] at unrooted
    simp [unrooted] at rooted
  · exact minted

theorem append_changes (fault : Option WriteFault) (record : JournalRecord) :
    Changes (.append record) journal (journal.append fault record).2 := by
  obtain ⟨problem, h, -⟩ | ⟨problem, h, fresh, takes, -⟩ | ⟨h, fresh, takes, -⟩ :=
    journal.append_cases fault record
  · rw [h]
  · rw [h]
    exact .single (.enrol rfl fresh (minted_of_takes takes))
  · rw [h]
    exact .tail (.single (.enrol rfl fresh (minted_of_takes takes))) (.publishIndex _)

variable {expected : OperationStatus} {refusal : String} {update : JournalRecord → JournalRecord}
  {nowMs : Int} (record : JournalRecord)

theorem transition_changes {call : JournalCall} {journal : Journal}
    (updates : ∀ record : JournalRecord, record.status = expected → call.Updates record (update record))
    (keeps : ∀ record : JournalRecord, record.SameRequest (update record)) :
    Changes call journal (journal.transition fault operationId expected refusal update).2 := by
  obtain ⟨problem, h, -⟩ | ⟨record, held, status, takes, h⟩ :=
    journal.transition_cases fault operationId expected refusal update keeps
  · rw [h]
  · rw [h]
    obtain rfl : record.operationId = operationId := Table.key_of_get? held
    exact .single (.store record held (updates record status) (minted_of_takes takes))

theorem acknowledgedRecord_updates {record : JournalRecord} (blocks : record.blocksWrites = true) :
    JournalCall.Updates (.acknowledge record.operationId nowMs) record
      (journal.acknowledgedRecord nowMs record) :=
  ⟨⟨rfl, rfl, rfl, rfl, rfl, rfl, rfl⟩,
    .inr ⟨blocks, rfl, by simp [acknowledgedRecord], nowMs, rfl⟩⟩

theorem acknowledge_changes (fault : Option WriteFault) (operationId : String) (nowMs : Int) :
    Changes (.acknowledge operationId nowMs) journal
      (journal.acknowledge fault operationId nowMs).2 := by
  obtain ⟨problem, h, -⟩ | ⟨record, held, blocks, ends⟩ :=
    journal.acknowledge_cases fault operationId nowMs
  · rw [h]
  obtain rfl : record.operationId = operationId := Table.key_of_get? held
  have numbered : Change (.acknowledge record.operationId nowMs) journal _ :=
    .number journal (journal.acknowledgedRecord nowMs record).sequence
  have confirmed (takes : journal.takesRecord fault record.operationId = true) :
      Changes (.acknowledge record.operationId nowMs) journal (journal.confirm nowMs record) :=
    .tail (.single numbered) (.store record held
      (journal.acknowledgedRecord_updates blocks) (minted_of_takes takes))
  obtain ⟨problem, h, -⟩ | ⟨problem, h, takes, -⟩ | ⟨h, takes, -⟩ := ends
  · rw [h]
    exact .single numbered
  · rw [h]
    exact confirmed takes
  · rw [h]
    exact .tail (confirmed takes) (.publishIndex _)

@[simp] theorem get_number (sequence : Nat) (id : String) :
    (journal.number sequence).get id = journal.get id := rfl

@[simp] theorem get_publishIndex (id : String) : journal.publishIndex.get id = journal.get id := rfl

theorem get_store (id : String) :
    (journal.store record).get id = if id = record.operationId then some record else journal.get id :=
  Table.get?_insert _ _ _

theorem get_enrol (id : String) : (journal.enrol record).get id =
      if id = record.operationId then some (journal.numbered record) else journal.get id :=
  Table.get?_insert _ _ _

@[simp] theorem get_enrol_self :
    (journal.enrol record).get record.operationId = some (journal.numbered record) := by
  rw [get_enrol, if_pos rfl]

@[simp] theorem get_store_self : (journal.store record).get record.operationId = some record := by
  rw [get_store, if_pos rfl]

theorem get_store_of_ne {journal : Journal} {record : JournalRecord} (h : id ≠ record.operationId) :
    (journal.store record).get id = journal.get id := by
  rw [get_store, if_neg h]

theorem get_transition_of_ne {journal : Journal}
    (keeps : ∀ record : JournalRecord, record.SameRequest (update record)) (h : id ≠ operationId) :
    (journal.transition fault operationId expected refusal update).2.get id = journal.get id := by
  obtain ⟨problem, refused, -⟩ | ⟨record, held, -, -, stored⟩ :=
    journal.transition_cases fault operationId expected refusal update keeps
  · rw [refused]
  · obtain rfl : record.operationId = operationId := Table.key_of_get? held
    rw [stored]
    exact get_store_of_ne ((keeps record).operationId ▸ h)

theorem get_eq_none_of_fresh {journal : Journal} (fresh : journal.state.records.contains id = false) :
    journal.get id = none :=
  Table.contains_eq_false.mp fresh

section
variable {nowMs : Int} {message reason : String}

theorem reconcileLoop_cons (nowMs : Int) (message reason : String) (journal : Journal)
    (fault : Option WriteFault) (reconciled : List JournalRecord) (record : JournalRecord)
    (rest : List JournalRecord) :
    let sequence := max journal.state.nextSequence (record.sequence + 1)
    let updated := reconciledRecord nowMs message reason sequence record
    (∃ problem, journal.takesRecord fault record.operationId = false ∧
      reconcileLoop nowMs message reason journal fault reconciled (record :: rest) =
        (.error problem, journal.number sequence)) ∨
    (journal.takesRecord fault record.operationId = true ∧
      reconcileLoop nowMs message reason journal fault reconciled (record :: rest) =
        reconcileLoop nowMs message reason ((journal.number sequence).store updated)
          (nextWrite fault) (reconciled ++ [updated]) rest) := by
  intro sequence updated
  by_cases takes : journal.takesRecord fault record.operationId = true
  · have hwrite := writeRecord_of_takes (journal.number sequence) updated takes
    simp only [sequence, updated] at hwrite
    refine .inr ⟨takes, ?_⟩
    rw [reconcileLoop]
    simp only [hwrite]
    rfl
  · have refuses := Bool.eq_false_iff.mpr takes
    obtain ⟨problem, hwrite⟩ := writeRecord_of_refuses (journal.number sequence) updated refuses
    simp only [sequence, updated] at hwrite
    refine .inl ⟨problem, refuses, ?_⟩
    rw [reconcileLoop]
    simp only [hwrite]
    rfl

theorem reconcileLoop_nil (nowMs : Int) (message reason : String) (journal : Journal)
    (fault : Option WriteFault) (reconciled : List JournalRecord) :
    (reconciled = [] ∧ reconcileLoop nowMs message reason journal fault reconciled [] =
      (.ok reconciled, journal)) ∨ (∃ problem, journal.takesIndex fault = false ∧
      reconcileLoop nowMs message reason journal fault reconciled [] = (.error problem, journal)) ∨
    (reconcileLoop nowMs message reason journal fault reconciled [] =
      (.ok reconciled, journal.publishIndex)) := by
  unfold reconcileLoop
  by_cases idle : reconciled = []
  · exact .inl ⟨idle, by simp [idle]⟩
  · rw [if_neg (by simpa using idle)]
    by_cases takes : journal.takesIndex fault = true
    · exact .inr (.inr (by simp only [writeIndex_of_takes takes]))
    · have refuses := Bool.eq_false_iff.mpr takes
      obtain ⟨problem, hwrite⟩ := writeIndex_of_refuses refuses
      exact .inr (.inl ⟨problem, refuses, by simp only [hwrite]⟩)

/-- The records the loop still has to rewrite are the journal's own, unfinished and distinct. -/
structure Awaits (journal : Journal) (todo : List JournalRecord) : Prop where
  held : ∀ record ∈ todo, journal.get record.operationId = some record
  unfinished : ∀ record ∈ todo, record.isUnfinished = true
  distinct : (todo.map JournalRecord.operationId).Nodup

theorem awaits_unfinished (journal : Journal) :
    journal.Awaits (journal.state.records.values.filter JournalRecord.isUnfinished) where
  held _ member := Table.mem_values.mp (List.mem_of_mem_filter member)
  unfinished _ member := (List.mem_filter.mp member).2
  distinct := (List.filter_sublist.map _).nodup (Table.keys_nodup _)

variable {journal : Journal}
variable {record : JournalRecord} {reconciled todo : List JournalRecord}

theorem Awaits.rest {rest : List JournalRecord} (awaits : journal.Awaits (record :: rest))
    (sequence : Nat) {updated : JournalRecord} (same : updated.operationId = record.operationId) :
    ((journal.number sequence).store updated).Awaits rest := by
  obtain ⟨absent, distinct⟩ := List.nodup_cons.mp awaits.distinct
  refine ⟨fun other member => ?_, fun other member =>
    awaits.unfinished other (List.mem_cons_of_mem _ member), distinct⟩
  have differ : other.operationId ≠ updated.operationId := fun equal =>
    absent (same ▸ equal ▸ List.mem_map_of_mem member)
  rw [get_store_of_ne differ, get_number]
  exact awaits.held other (List.mem_cons_of_mem _ member)

theorem reconciledRecord_updates (unfinished : record.isUnfinished = true) (sequence : Nat) :
    JournalCall.Updates (.reconcileUnfinished nowMs message reason) record
      (reconciledRecord nowMs message reason sequence record) := by
  refine ⟨reconciledRecord_sameRequest _ _ _ _ _, .inl ⟨?_, rfl⟩⟩
  rcases JournalRecord.isUnfinished_iff.mp unfinished with h | h <;>
    simp [h, reconciledRecord, JournalCall.moves]

theorem reconcileLoop_changes (awaits : journal.Awaits todo) :
    Changes (.reconcileUnfinished nowMs message reason) journal
      (reconcileLoop nowMs message reason journal fault reconciled todo).2 := by
  induction todo generalizing journal fault reconciled with
  | nil =>
    obtain ⟨-, h⟩ | ⟨problem, -, h⟩ | h :=
      reconcileLoop_nil nowMs message reason journal fault
        reconciled
    · rw [h]
    · rw [h]
    · rw [h]
      exact .single (.publishIndex _)
  | cons record rest ih =>
    have held := awaits.held record List.mem_cons_self
    have unfinished := awaits.unfinished record List.mem_cons_self
    obtain ⟨problem, -, h⟩ | ⟨takes, h⟩ :=
      reconcileLoop_cons nowMs message reason journal fault
        reconciled record rest
    · rw [h]
      exact .single (.number _ _)
    · rw [h]
      refine .head (.number journal (max journal.state.nextSequence (record.sequence + 1))) ?_
      refine .head ?_ (ih (awaits.rest _ rfl))
      exact .store record held (reconciledRecord_updates unfinished _)
        (minted_of_takes takes)

theorem reconcileUnfinished_changes (journal : Journal) (fault : Option WriteFault) (nowMs : Int)
    (message reason : String) : Changes (.reconcileUnfinished nowMs message reason) journal
      (journal.reconcileUnfinished fault nowMs message reason).2 :=
  reconcileLoop_changes journal.awaits_unfinished

theorem reconcileLoop_ok {final : Journal} {answer : List JournalRecord}
    (awaits : journal.Awaits todo)
    (h : reconcileLoop nowMs message reason journal fault reconciled todo = (.ok answer, final)) :
    (∀ id, (∀ record ∈ todo, record.operationId ≠ id) → final.get id = journal.get id) ∧
      reconciled ⊆ answer ∧ (∀ record ∈ todo, ∃ sequence,
        final.get record.operationId = some (reconciledRecord nowMs message reason sequence record) ∧
          reconciledRecord nowMs message reason sequence record ∈ answer) ∧
      ∀ new ∈ answer, new ∈ reconciled ∨ ∃ record ∈ todo, ∃ sequence,
        new = reconciledRecord nowMs message reason sequence record ∧
          final.get record.operationId = some new := by
  induction todo generalizing journal fault reconciled with
  | nil =>
    obtain ⟨-, ends⟩ | ⟨problem, -, ends⟩ | ends :=
      reconcileLoop_nil nowMs message reason journal fault
        reconciled
    · rw [ends] at h
      cases h
      exact ⟨fun _ _ => rfl, List.Subset.refl _, by simp, fun _ member => .inl member⟩
    · rw [ends] at h
      cases h
    · rw [ends] at h
      cases h
      exact ⟨fun _ _ => rfl, List.Subset.refl _, by simp, fun _ member => .inl member⟩
  | cons record rest ih =>
    obtain ⟨problem, -, ends⟩ | ⟨takes, ends⟩ :=
      reconcileLoop_cons nowMs message reason journal fault
        reconciled record rest
    · rw [ends] at h
      cases h
    let sequence := max journal.state.nextSequence (record.sequence + 1)
    let updated := reconciledRecord nowMs message reason sequence record
    have awaitsRest : ((journal.number sequence).store updated).Awaits rest := awaits.rest _ rfl
    obtain ⟨others, kept, rewritten, listed⟩ := ih awaitsRest (ends.symm.trans h)
    have absent := (List.nodup_cons.mp awaits.distinct).1
    have stored : final.get record.operationId = some updated := by
      rw [others record.operationId fun other member same =>
        absent (same ▸ List.mem_map_of_mem member)]
      exact get_store_self _ updated
    refine ⟨fun id apart => ?_, fun old member => kept (List.mem_append_left _ member), ?_, ?_⟩
    · have differ : id ≠ updated.operationId := (apart record List.mem_cons_self).symm
      rw [others id fun other member => apart other (List.mem_cons_of_mem _ member),
        get_store_of_ne differ, get_number]
    · intro old member
      rcases List.mem_cons.mp member with rfl | member
      · exact ⟨sequence, stored, kept (List.mem_append_right _ (List.mem_singleton_self _))⟩
      · exact rewritten old member
    · intro new member
      obtain before | ⟨old, later, found⟩ := listed new member
      · rcases List.mem_append.mp before with before | now
        · exact .inl before
        · rw [List.mem_singleton.mp now]
          exact .inr ⟨record, List.mem_cons_self, sequence, rfl, stored⟩
      · exact .inr ⟨old, List.mem_cons_of_mem _ later, found⟩

end

structure Settled (nowMs : Int) (message reason : String) (journal final : Journal)
    (answer : List JournalRecord) : Prop where
  finished : ∀ id record, journal.get id = some record → record.isUnfinished = false →
    final.get id = some record
  rewritten : ∀ id record, journal.get id = some record → record.isUnfinished = true →
    ∃ sequence, final.get id = some (reconciledRecord nowMs message reason sequence record) ∧
      reconciledRecord nowMs message reason sequence record ∈ answer
  absent : ∀ id, journal.get id = none → final.get id = none
  answered : ∀ record ∈ answer, ∃ old sequence, journal.get old.operationId = some old ∧
    old.isUnfinished = true ∧ record = reconciledRecord nowMs message reason sequence old ∧
    final.get record.operationId = some record

theorem reconcileUnfinished_ok {journal final : Journal} {message reason : String}
    {answer : List JournalRecord}
    (h : journal.reconcileUnfinished fault nowMs message reason = (.ok answer, final)) :
    Settled nowMs message reason journal final answer := by
  obtain ⟨others, -, rewritten, listed⟩ := reconcileLoop_ok journal.awaits_unfinished h
  have todo {record : JournalRecord} :
      record ∈ journal.state.records.values.filter JournalRecord.isUnfinished ↔
        journal.get record.operationId = some record ∧ record.isUnfinished = true := by
    rw [List.mem_filter, Table.mem_values]
    rfl
  refine ⟨fun id record held finished => ?_, fun id record held unfinished => ?_,
    fun id free => ?_, fun record member => ?_⟩
  · rw [← held]
    refine others id fun other member same => ?_
    obtain ⟨stored, unfinished⟩ := todo.mp member
    rw [same, held] at stored
    cases Option.some.inj stored
    simp [unfinished] at finished
  · obtain rfl : record.operationId = id := Table.key_of_get? held
    exact rewritten record (todo.mpr ⟨held, unfinished⟩)
  · rw [← free]
    refine others id fun other member same => ?_
    have stored := (todo.mp member).1
    rw [same, free] at stored
    contradiction
  · obtain none | ⟨old, member, sequence, same, stored⟩ := listed record member
    · contradiction
    · obtain ⟨held, unfinished⟩ := todo.mp member
      subst same
      exact ⟨old, sequence, held, unfinished, rfl, stored⟩

end Journal
end Refyard
