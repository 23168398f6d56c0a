import Refyard.Foundation.Fallible
import Refyard.Host.Lineage
import Refyard.Jobs.CrashConsistency

/-! Sequences and operation ids are given out once, as long as the index is published that names a
record before the directory is opened again. The journal numbers its records; the engine counts on
from the ids that a reopened journal names. -/
namespace Refyard

/-- There is a record of this operation on the disk, named by the index or not. -/
def OnDisk (root : Option StateRoot) (id : String) : Prop :=
  (root.bind fun directory => directory.read (.record id)).isSome = true

/-- The index names every record on the disk. -/
def Indexed (root : Option StateRoot) : Prop :=
  ∀ directory, root = some directory → ∀ id, OnDisk root id → id ∈ directory.named

namespace Journal

/-- Every record has a sequence of its own, below the one that is given out next. -/
structure Numbered (journal : Journal) : Prop where
  below : ∀ id record, journal.get id = some record → record.sequence < journal.state.nextSequence
  apart : ∀ id other record held, journal.get id = some record →
    journal.get other = some held → record.sequence = held.sequence → id = other

variable {journal next : Journal} {id : String} {record : JournalRecord}
  {fault : Option WriteFault}

theorem Numbered.rewrite (numbered : journal.Numbered) {old : JournalRecord}
    (held : journal.get record.operationId = some old) (same : record.sequence = old.sequence) :
    (journal.store record).Numbered := by
  have before : ∀ id found, (journal.store record).get id = some found →
      ∃ earlier, journal.get id = some earlier ∧ earlier.sequence = found.sequence := by
    intro id found stored
    rw [get_store] at stored
    split at stored
    · rename_i here
      cases stored
      exact ⟨old, here ▸ held, same.symm⟩
    · exact ⟨found, stored, rfl⟩
  constructor
  · intro id found stored
    obtain ⟨earlier, first, sequence⟩ := before id found stored
    rw [← sequence]
    exact numbered.below id earlier first
  · intro id other found another stored again equal
    obtain ⟨earlier, first, sequence⟩ := before id found stored
    obtain ⟨sooner, second, also⟩ := before other another again
    exact numbered.apart id other earlier sooner first second
      (sequence.trans (equal.trans also.symm))

theorem Numbered.take (numbered : journal.Numbered)
    (gets : ∀ id, next.get id = if id = record.operationId then some record else journal.get id)
    (counts : next.state.nextSequence = record.sequence + 1)
    (unused : journal.state.nextSequence ≤ record.sequence) : next.Numbered := by
  have below : ∀ {id found}, journal.get id = some found → found.sequence < record.sequence :=
    fun {id found} held => Nat.lt_of_lt_of_le (numbered.below id found held) unused
  constructor
  · intro id found held
    rw [gets] at held
    rw [counts]
    split at held
    · cases held
      exact Nat.lt_succ_self _
    · exact Nat.lt_succ_of_lt (below held)
  · intro id other found another held again equal
    rw [gets] at held again
    split at held <;> split at again
    · next here there => exact here.trans there.symm
    · cases held
      exact absurd equal.symm (Nat.ne_of_lt (below again))
    · cases again
      exact absurd equal (Nat.ne_of_lt (below held))
    · exact numbered.apart id other found another held again equal

theorem Numbered.number (numbered : journal.Numbered) {sequence : Nat}
    (unused : journal.state.nextSequence ≤ sequence) : (journal.number sequence).Numbered where
  below id found held :=
    Nat.lt_of_lt_of_le (numbered.below id found held) (Nat.le_succ_of_le unused)
  apart := numbered.apart

theorem Numbered.renew (numbered : journal.Numbered)
    (unused : journal.state.nextSequence ≤ record.sequence) :
    ((journal.number record.sequence).store record).Numbered :=
  numbered.take (fun id => get_store _ record id) rfl unused

theorem Numbered.enrol (numbered : journal.Numbered) (record : JournalRecord) :
    (journal.enrol record).Numbered :=
  numbered.take (fun id => get_enrol journal record id) rfl (Nat.le_max_left _ _)

theorem Numbered.publishIndex (numbered : journal.Numbered) : journal.publishIndex.Numbered where
  below := numbered.below
  apart := numbered.apart

theorem Numbered.transition (numbered : journal.Numbered) {operationId refusal : String}
    {expected : OperationStatus} {update : JournalRecord → JournalRecord}
    (keeps : ∀ record : JournalRecord, record.SameRequest (update record))
    (sequences : ∀ record : JournalRecord, (update record).sequence = record.sequence) :
    (journal.transition fault operationId expected refusal update).2.Numbered := by
  obtain ⟨problem, refused, -⟩ | ⟨record, held, -, -, stored⟩ :=
    journal.transition_cases fault operationId expected refusal update keeps
  · rw [refused]
    exact numbered
  · obtain rfl : record.operationId = operationId := Table.key_of_get? held
    rw [stored]
    refine numbered.rewrite ?_ (sequences record)
    rw [(keeps record).operationId]
    exact held

theorem Numbered.reconcileLoop {nowMs : Int} {message reason : String}
    {reconciled todo : List JournalRecord} (numbered : journal.Numbered) :
    (reconcileLoop nowMs message reason journal fault reconciled todo).2.Numbered := by
  induction todo generalizing journal fault reconciled with
  | nil =>
    obtain ⟨-, ends⟩ | ⟨problem, -, ends⟩ | ends :=
      reconcileLoop_nil nowMs message reason journal fault reconciled
    · rw [ends]
      exact numbered
    · rw [ends]
      exact numbered
    · rw [ends]
      exact numbered.publishIndex
  | cons record rest ih =>
    obtain ⟨problem, -, ends⟩ | ⟨-, goesOn⟩ :=
      reconcileLoop_cons nowMs message reason journal fault reconciled record rest
    · rw [ends]
      exact numbered.number (Nat.le_max_left _ _)
    · rw [goesOn]
      apply ih
      exact numbered.renew (Nat.le_max_left _ _)

theorem Numbered.acknowledge (numbered : journal.Numbered) (operationId : String) (nowMs : Int) :
    (journal.acknowledge fault operationId nowMs).2.Numbered := by
  obtain ⟨problem, refused, -⟩ | ⟨record, -, -, ends⟩ :=
    journal.acknowledge_cases fault operationId nowMs
  · rw [refused]
    exact numbered
  · have unused : journal.state.nextSequence ≤
        (journal.acknowledgedRecord nowMs record).sequence := Nat.le_max_left _ _
    obtain ⟨problem, ended, -⟩ | ⟨problem, ended, -⟩ | ⟨ended, -⟩ := ends
    · rw [ended]
      exact numbered.number unused
    · rw [ended]
      exact numbered.renew unused
    · rw [ended]
      exact (numbered.renew unused).publishIndex

theorem Numbered.append (numbered : journal.Numbered) (record : JournalRecord) :
    (journal.append fault record).2.Numbered := by
  obtain ⟨problem, ended, -⟩ | ⟨problem, ended, -⟩ | ⟨ended, -⟩ :=
    journal.append_cases fault record
  · rw [ended]
    exact numbered
  · rw [ended]
    exact numbered.enrol record
  · rw [ended]
    exact (numbered.enrol record).publishIndex

theorem Numbered.run (numbered : journal.Numbered) (call : JournalCall)
    (fault : Option WriteFault) : (call.run fault journal).2.Numbered := by
  cases call with
  | append record => exact numbered.append record
  | markStarted id nowMs =>
    exact numbered.transition (startedRecord_sameRequest nowMs) fun _ => rfl
  | markCancelled id nowMs =>
    exact numbered.transition (cancelledRecord_sameRequest nowMs) fun _ => rfl
  | finish id outcome nowMs =>
    refine numbered.transition (fun record => terminalRecord_sameRequest record outcome nowMs) ?_
    intro record
    cases outcome <;> rfl
  | finishWithoutStart id problem nowMs =>
    exact numbered.transition (neverStartedRecord_sameRequest problem nowMs) fun _ => rfl
  | reconcileUnfinished nowMs message reason => exact numbered.reconcileLoop
  | acknowledge id nowMs => exact numbered.acknowledge id nowMs

theorem below_of_load {root : StateRoot} {state : JournalState} (loaded : load root = .ok state) :
    ∀ record ∈ state.records.values, record.sequence < state.nextSequence := by
  unfold load at loaded
  dsimp only at loaded
  split at loaded
  · cases loaded
  · split at loaded
    · cases loaded
    · rename_i _ entries _
      cases loaded
      intro record member
      dsimp only at member ⊢
      have counted : record.sequence + 1 ∈
          entries.records.values.map fun record => record.sequence + 1 :=
        List.mem_map_of_mem member
      obtain ⟨above, largest⟩ := Option.isSome_iff_exists.mp (List.isSome_max?_of_mem counted)
      rw [largest, Option.getD_some]
      have most := (List.max?_eq_some_iff.mp largest).2 _ counted
      omega

theorem Numbered.reopen {loaded : Journal} (numbered : journal.Numbered)
    (coherent : journal.Coherent) (opened : openJournal journal.root = .ok loaded) :
    loaded.Numbered := by
  cases rooted : journal.root with
  | none =>
    rw [rooted] at opened
    cases opened
    have empty : ∀ id, (Journal.mk .blank none).get id = none := Table.get?_empty
    constructor
    · intro id found held
      cases held
    · intro id other found another held
      cases held
  | some root =>
    obtain ⟨other, same, reopened⟩ := openJournal_spec coherent rooted
    rw [rooted] at opened
    rw [opened] at same
    cases same
    have earlier : ∀ {id found}, loaded.get id = some found → journal.get id = some found := by
      intro id found held
      rw [reopened.get] at held
      split at held
      · exact held
      · cases held
    constructor
    · intro id found held
      unfold openJournal at opened
      dsimp only at opened
      split at opened
      · cases opened
      · rename_i state read
        cases opened
        exact below_of_load read found (Table.mem_values_of_get? held)
    · intro id other found another held again equal
      exact numbered.apart id other found another (earlier held) (earlier again) equal

theorem numbered_fresh (path : Option String) : (fresh path).Numbered where
  below id found held := by
    cases held
  apart id other found another held := by
    cases held

theorem Numbered.distinct (numbered : journal.Numbered) (coherent : journal.Coherent) :
    (journal.records.map JournalRecord.sequence).Nodup := by
  have once : journal.records.Nodup := by
    refine coherent.once.filterMap fun id other record held again => ?_
    exact (Table.key_of_get? held).symm.trans (Table.key_of_get? again)
  refine once.map_on fun record member other another equal => ?_
  obtain ⟨id, -, held⟩ := List.mem_filterMap.mp member
  obtain ⟨also, -, again⟩ := List.mem_filterMap.mp another
  have same := numbered.apart id also record other held again equal
  rw [same, again] at held
  exact (Option.some.inj held).symm

/-- Every record on the disk is in memory. -/
def Filed (journal : Journal) : Prop :=
  ∀ id, OnDisk journal.root id → ∃ record, journal.get id = some record

variable {call : JournalCall}

theorem recorded_change (change : Change call journal next) (id : String) :
    (OnDisk journal.root id → OnDisk next.root id) ∧
      (OnDisk next.root id → OnDisk journal.root id ∨ ∃ record, next.get id = some record) := by
  have published : ∀ (name : FileName) (text : FileText),
      OnDisk (journal.publish name text).root id ↔
        journal.root.isSome = true ∧ name = .record id ∨ OnDisk journal.root id := by
    intro name text
    unfold OnDisk
    cases rooted : journal.root with
    | none => simp [publish, rooted]
    | some directory =>
      simp only [publish_root rooted, Option.bind_some, StateRoot.read_publish]
      by_cases same : name = .record id <;> simp [same]
  cases change with
  | number => exact ⟨fun recorded => recorded, .inl⟩
  | @store old new held updates minted =>
    refine ⟨fun before => (published _ _).mpr (.inr before), fun after => ?_⟩
    obtain ⟨-, named⟩ | before := (published _ _).mp after
    · exact .inr ⟨new, by rw [← FileName.record.inj named]; exact get_store_self _ _⟩
    · exact .inl before
  | @enrol record asked fresh minted =>
    refine ⟨fun before => (published _ _).mpr (.inr before), fun after => ?_⟩
    obtain ⟨-, named⟩ | before := (published _ _).mp after
    · exact .inr ⟨_, by rw [← FileName.record.inj named]; exact get_enrol_self _ _⟩
    · exact .inl before
  | publishIndex =>
    refine ⟨fun before => (published _ _).mpr (.inr before), fun after => ?_⟩
    exact .inl (((published _ _).mp after).resolve_left (by simp))

theorem recorded_changes (changes : Changes call journal next) {id : String}
    (recorded : OnDisk journal.root id) : OnDisk next.root id := by
  induction changes with
  | refl => exact recorded
  | tail _ change ih => exact (recorded_change change id).1 ih

theorem Filed.changes (filed : journal.Filed) (changes : Changes call journal next) :
    next.Filed := by
  induction changes with
  | refl => exact filed
  | tail _ change ih =>
    intro id recorded
    obtain before | held := (recorded_change change id).2 recorded
    · obtain ⟨old, held⟩ := ih id before
      obtain ⟨new, kept, -⟩ := keeps_of_change change id old held
      exact ⟨new, kept⟩
    · exact held

/-- What is on the disk is in memory, and in the index. -/
structure Complete (journal : Journal) : Prop extends journal.Coherent where
  filed : journal.Filed
  listed : ∀ root, journal.root = some root → journal.state.order ⊆ root.named

theorem Complete.indexed (complete : journal.Complete) : Indexed journal.root := by
  intro directory rooted id recorded
  obtain ⟨record, held⟩ := complete.filed id recorded
  exact complete.listed directory rooted ((complete.mem_order id).mpr ⟨record, held⟩)

theorem complete_fresh (path : Option String) : (fresh path).Complete where
  toCoherent := coherent_fresh path
  filed id recorded := by
    cases path <;> cases recorded
  listed root rooted := List.nil_subset _

theorem Complete.changes (complete : journal.Complete) (other : ∀ record, call ≠ .append record)
    (changes : Changes call journal next) : next.Complete where
  toCoherent := complete.toCoherent.changes changes
  filed := complete.filed.changes changes
  listed root rooted := by
    have isSome := changes_rooted changes
    rw [rooted] at isSome
    obtain ⟨before, held⟩ := Option.isSome_iff_exists.mp isSome.symm
    obtain ⟨after, also, grows⟩ := changes_named complete.toCoherent changes held
    cases also.symm.trans rooted
    rw [changes_order other changes]
    exact fun _ member => grows (complete.listed before held member)

theorem Filed.reopen {loaded : Journal} (filed : journal.Filed) (coherent : journal.Coherent)
    (indexed : Indexed journal.root) (opened : openJournal journal.root = .ok loaded) :
    loaded.Complete := by
  cases rooted : journal.root with
  | none =>
    rw [rooted] at opened
    cases opened
    exact complete_fresh none
  | some root =>
    obtain ⟨other, same, reopened⟩ := openJournal_spec coherent rooted
    rw [rooted] at opened
    cases opened.symm.trans same
    refine ⟨reopened.coherent coherent rooted, fun id recorded => ?_, fun other also => ?_⟩
    · rw [reopened.rooted, ← rooted] at recorded
      obtain ⟨record, held⟩ := filed id recorded
      exact ⟨record, by rw [reopened.get, if_pos (indexed root rooted id recorded), held]⟩
    · cases also.symm.trans reopened.rooted
      rw [reopened.order]
      exact List.Subset.refl _

/-- A directory is opened again only when its index names every record. -/
def Orderly (journal : Journal) : JournalEvent → Prop
  | .call _ _ => True
  | .reopen => Indexed journal.root

theorem Complete.faultless (complete : journal.Complete) (call : JournalCall) :
    (call.run none journal).2.Complete where
  toCoherent := complete.toCoherent.changes (call.run_changes none journal)
  filed := complete.filed.changes (call.run_changes none journal)
  listed := JournalRun.listed_of_complete complete.toCoherent complete.listed call

theorem Complete.reopened (complete : journal.Complete) :
    (journalMachine.next journal .reopen).Complete := by
  cases opened : openJournal journal.root with
  | ok loaded =>
    exact next_reopen opened ▸ complete.filed.reopen complete.toCoherent complete.indexed opened
  | error problem => simpa only [Machine.next, journalMachine, opened] using complete

/-- Whatever is called, refused by the disk, cut short and opened again. -/
theorem numbered_after (path : Option String) (events : List JournalEvent) :
    (journalMachine.after (fresh path) events).Numbered := by
  have both := journalMachine.invariant (fun journal => journal.Coherent ∧ journal.Numbered)
    (fun journal event held => ?_) ⟨coherent_fresh path, numbered_fresh path⟩ events
  · exact both.2
  · refine ⟨coherent_event held.1 event, ?_⟩
    cases event with
    | call call fault => exact held.2.run call fault
    | reopen =>
      cases opened : openJournal journal.root with
      | ok loaded => exact next_reopen opened ▸ held.2.reopen held.1 opened
      | error problem => simpa only [Machine.next, journalMachine, opened] using held.2

theorem filed_after (path : Option String) {events : List JournalEvent}
    (orderly : journalMachine.Meets Orderly (fresh path) events) :
    (journalMachine.after (fresh path) events).Filed := by
  refine (journalMachine.invariant_of_step (fun journal => journal.Coherent ∧ journal.Filed)
    (fun journal event held condition => ⟨coherent_event held.1 event, ?_⟩)
    ⟨coherent_fresh path, (complete_fresh path).filed⟩ orderly).2
  cases event with
  | call call fault => exact held.2.changes (call.run_changes fault journal)
  | reopen =>
    cases opened : openJournal journal.root with
    | ok loaded => exact next_reopen opened ▸ (held.2.reopen held.1 condition opened).filed
    | error problem => simpa only [Machine.next, journalMachine, opened] using held.2

end Journal

namespace MutationEngine

/-- What is known to be on the disk still is, and every number above the counter is unused. -/
structure Unspent (known : String → Prop) (engine : MutationEngine) : Prop where
  coherent : engine.journal.Coherent
  filed : engine.journal.Filed
  known : ∀ id, known id → OnDisk engine.journal.root id
  free : ∀ number, engine.nextOperation < number → number < 2 ^ 64 →
    engine.journal.get ("op_" ++ base36 number) = none

variable {known : String → Prop} {engine next : MutationEngine} {fault : Option WriteFault}

theorem unspent_build {journal : Journal} (complete : journal.Complete) (recovery : Recovery)
    (effects : List MutationKind) :
    Unspent (OnDisk journal.root) (build journal recovery effects) where
  coherent := complete.toCoherent
  filed := complete.filed
  known id recorded := recorded
  free number above fits := by
    refine Option.eq_none_iff_forall_ne_some.mpr fun record held => ?_
    have named : "op_" ++ base36 number ∈ journal.records.map JournalRecord.operationId :=
      List.mem_map.mpr ⟨record, List.mem_filterMap.mpr ⟨_, (complete.mem_order _).mpr ⟨record, held⟩,
        held⟩, Table.key_of_get? held⟩
    exact absurd (le_nextOperationSeed fits named) (Nat.not_le_of_lt above)

theorem Unspent.same (unspent : Unspent known engine) (journal : next.journal = engine.journal)
    (counts : next.nextOperation = engine.nextOperation) : Unspent known next := by
  constructor
  · rw [journal]
    exact unspent.coherent
  · rw [journal]
    exact unspent.filed
  · rw [journal]
    exact unspent.known
  · rw [journal, counts]
    exact unspent.free

theorem Unspent.called (unspent : Unspent known engine) (call : JournalCall) (fault : Option WriteFault)
    (other : ∀ record, call ≠ .append record)
    (same : next.journal = (call.run fault engine.journal).2 ∧
      next.nextOperation = engine.nextOperation) : Unspent known next := by
  have changes := call.run_changes fault engine.journal
  rw [← same.1] at changes
  refine ⟨unspent.coherent.changes changes, unspent.filed.changes changes,
    fun id listed => Journal.recorded_changes changes (unspent.known id listed),
    fun number above fits => ?_⟩
  rw [same.2] at above
  refine Option.eq_none_iff_forall_ne_some.mpr fun record held => ?_
  obtain ⟨old, earlier, -⟩ | ⟨-, record, append, -⟩ := Journal.origin_of_changes changes held
  · rw [unspent.free number above fits] at earlier
    cases earlier
  · exact other record append

theorem Unspent.appended (unspent : Unspent known engine) (submission : Submission) (nowMs : Int) :
    Unspent known (engine.appended submission fault nowMs) where
  coherent := unspent.coherent.changes (engine.journal.append_changes fault _)
  filed := unspent.filed.changes (engine.journal.append_changes fault _)
  known id listed :=
    Journal.recorded_changes (engine.journal.append_changes fault _) (unspent.known id listed)
  free number above fits := by
    refine Option.eq_none_iff_forall_ne_some.mpr fun record held => ?_
    obtain ⟨old, earlier, -⟩ | ⟨-, record, same, named, -⟩ :=
      Journal.origin_of_changes (engine.journal.append_changes fault _) held
    · rw [unspent.free number (Nat.lt_of_succ_lt above) fits] at earlier
      cases earlier
    · cases same
      have digits : base36 (engine.nextOperation + 1) = base36 number :=
        (String.append_right_inj _).mp named
      exact absurd (base36_injective digits) (Nat.ne_of_lt above)

theorem Unspent.resumeSubmit (unspent : Unspent known engine) (submission : Submission)
    (facts : Except Problem PreconditionContext) (nowMs laterMs : Int) :
    Unspent known (engine.resumeSubmit submission facts fault nowMs laterMs).2.2 := by
  have appended : Unspent known (engine.appended submission fault nowMs) :=
    unspent.appended submission nowMs
  obtain ⟨-, problem, same⟩ | ⟨-, -, problem, same⟩ |
    ⟨-, -, ⟨refusal, problem, -, same⟩ | ⟨ticket, -, -, -, -, -, -, answer, same, -⟩⟩ :=
    engine.resumeSubmit_cases submission facts fault nowMs laterMs
  · rw [same]
    exact unspent
  · rw [same]
    exact appended
  · rw [same]
    exact appended.called (.finishWithoutStart _ _ laterMs) _ (by simp) ⟨rfl, rfl⟩
  · rw [same]
    exact appended.same rfl rfl

theorem Unspent.startTicket (unspent : Unspent known engine) (ticket : QueueTicket MutationRequest)
    (nowMs : Int) : Unspent known (engine.startTicket ticket fault nowMs).2 := by
  apply unspent.called (.markStarted ticket.id nowMs) fault (by simp)
  unfold MutationEngine.startTicket JournalCall.run
  dsimp only
  cases engine.journal.markStarted fault ticket.id nowMs with
  | mk answer journal =>
    cases answer with
    | error problem => exact ⟨rfl, rfl⟩
    | ok record =>
      dsimp only
      split <;> exact ⟨rfl, rfl⟩

theorem Unspent.finishTicket (unspent : Unspent known engine) (ticket : QueueTicket MutationRequest)
    (outcome : EffectOutcome) (nowMs laterMs : Int) :
    Unspent known (engine.finishTicket ticket outcome fault nowMs laterMs) := by
  apply unspent.called (.finish ticket.id outcome nowMs) fault (by simp)
  unfold MutationEngine.finishTicket JournalCall.run
  dsimp only
  cases engine.journal.finish fault ticket.id outcome nowMs with
  | mk answer journal =>
    cases answer with
    | error problem => exact ⟨rfl, rfl⟩
    | ok record =>
      dsimp only
      split <;> exact ⟨rfl, rfl⟩

theorem Unspent.cancel (unspent : Unspent known engine) (actor operationId : String) (nowMs : Int) :
    Unspent known (engine.cancel actor operationId fault nowMs).2 := by
  obtain ⟨problem, same⟩ | ⟨before, ticket, after, -, -, same⟩ :=
    engine.cancel_cases actor operationId fault nowMs
  · rw [same]
    exact unspent
  · rw [same]
    exact unspent.called (.markCancelled operationId nowMs) fault (by simp) ⟨rfl, rfl⟩

theorem Unspent.acknowledge (unspent : Unspent known engine) (registries : Registries)
    (operationId confirmedSnapshotId : String) (nowMs : Int) :
    Unspent known (engine.acknowledgeUncertainOperation registries operationId confirmedSnapshotId
      fault nowMs).2 := by
  unfold acknowledgeUncertainOperation
  split
  · exact unspent
  · split
    · exact unspent
    · exact unspent.called (.acknowledge operationId nowMs) fault (by simp) ⟨rfl, rfl⟩

end MutationEngine

namespace Host

variable {host : Host} {root : Option StateRoot} {effects : List MutationKind}
  {fault : Option WriteFault} {nowMs : Int}

/-- Whatever opens this directory has all of it in memory. -/
def Whole (root : Option StateRoot) : Prop :=
  ∀ loaded, openJournal root = .ok loaded → loaded.Complete

theorem whole_of_filed {journal : Journal} (coherent : journal.Coherent) (filed : journal.Filed)
    (indexed : Indexed journal.root) : Whole journal.root :=
  fun _ => filed.reopen coherent indexed

theorem root_of_open {journal : Journal} (opened : openJournal root = .ok journal) :
    journal.root = root := by
  unfold openJournal at opened
  cases root with
  | none =>
    cases opened
    rfl
  | some root =>
    dsimp only at opened
    split at opened
    · cases opened
    · cases opened
      rfl

theorem complete_reconcile {journal : Journal} (complete : journal.Complete) (recovery : Recovery) :
    (recovery.reconcile journal fault nowMs).2.1.Complete ∧
      ∀ id, OnDisk journal.root id →
        OnDisk (recovery.reconcile journal fault nowMs).2.1.root id := by
  have changes := journal.reconcileUnfinished_changes fault nowMs restartUnknownMessage
    restartUnknownReason
  have same : (recovery.reconcile journal fault nowMs).2.1 = (journal.reconcileUnfinished fault nowMs
      restartUnknownMessage restartUnknownReason).2 := by
    unfold Recovery.reconcile
    split <;> simp_all
  rw [same]
  exact ⟨complete.changes (by simp) changes, fun id => Journal.recorded_changes changes⟩

theorem whole_rootAfterStart (whole : Whole root) (start : Option WriteFault × Int) :
    Whole (rootAfterStart root start) ∧
      ∀ id, OnDisk root id → OnDisk (rootAfterStart root start) id := by
  unfold rootAfterStart
  cases opened : openJournal root with
  | error problem => exact ⟨whole, fun id recorded => recorded⟩
  | ok journal =>
    obtain ⟨complete, records⟩ := @complete_reconcile start.1 start.2 journal (whole journal opened) .new
    rw [root_of_open opened] at records
    exact ⟨whole_of_filed complete.toCoherent complete.filed complete.indexed, records⟩

theorem unspent_boot (whole : Whole root) (booted : boot root effects fault nowMs = .ok host) :
    host.engine.journal.Complete ∧ MutationEngine.Unspent (OnDisk root) host.engine := by
  unfold boot at booted
  split at booted
  · cases booted
  · rename_i journal opened
    have both := @complete_reconcile fault nowMs journal (whole journal opened) .new
    split at booted
    · cases booted
    · rename_i later recovery reconciled
      cases booted
      rw [reconciled, root_of_open opened] at both
      exact ⟨both.1, { MutationEngine.unspent_build both.1 recovery effects with known := both.2 }⟩

/-- A process starts over a directory only when its index names every record. -/
def Orderly (host : Host) : HostInput → Prop
  | .restart _ _ => Indexed host.engine.journal.root
  | _ => True

theorem whole_rootAfterStarts (whole : Whole root) (starts : List (Option WriteFault × Int)) :
    Whole (starts.foldl rootAfterStart root) ∧
      ∀ id, OnDisk root id → OnDisk (starts.foldl rootAfterStart root) id := by
  induction starts generalizing root with
  | nil => exact ⟨whole, fun id recorded => recorded⟩
  | cons start rest ih =>
    obtain ⟨first, records⟩ := whole_rootAfterStart whole start
    exact ⟨(ih first).1, fun id recorded => (ih first).2 id (records id recorded)⟩

theorem unspent_step (digest : MutationRequest → String) {known : String → Prop} {input : HostInput}
    (unspent : MutationEngine.Unspent known host.engine) (orderly : host.Orderly input) :
    MutationEngine.Unspent known (step digest host input).1.engine := by
  cases input with
  | submit actor request registries =>
    unfold step
    dsimp only
    split <;> exact unspent
  | resume position facts fault nowMs laterMs =>
    unfold step
    dsimp only
    split
    · exact unspent
    · exact unspent.resumeSubmit _ facts nowMs laterMs
  | drop position => exact unspent
  | start operationId fault nowMs =>
    unfold step
    dsimp only
    split
    · rename_i ticket task
      have started : MutationEngine.Unspent known (host.engine.startTicket ticket fault nowMs).2 :=
        unspent.startTicket ticket nowMs
      split
      · rename_i engine same
        rwa [same] at started
      · rename_i engine same
        rwa [same] at started
    · exact unspent
  | finish operationId outcome fault nowMs laterMs =>
    unfold step
    dsimp only
    split
    · exact unspent.finishTicket _ outcome nowMs laterMs
    · exact unspent
  | abandon operationId =>
    unfold step
    dsimp only
    split
    · exact unspent.same rfl rfl
    · exact unspent
  | cancel actor operationId fault nowMs => exact unspent.cancel actor operationId nowMs
  | acknowledge operationId confirmedSnapshotId registries fault nowMs =>
    exact unspent.acknowledge registries operationId confirmedSnapshotId nowMs
  | restart failedStarts nowMs =>
    unfold step
    dsimp only
    split
    · rename_i booted
      obtain ⟨whole, records⟩ := whole_rootAfterStarts
        (whole_of_filed unspent.coherent unspent.filed orderly) failedStarts
      have after := (unspent_boot whole booted).2
      exact { after with
        known := fun id listed => after.known id (records id (unspent.known id listed)) }
    · exact unspent

end Host

namespace Journal

/-- In every state of a run that opens its directory again only under a whole index the sequences are
distinct and below the next one, and every record on the disk is among those. Whatever a host then
does that starts over the directory, the id it gives out next is no record's, as long as its counter
fits in 64 bits: none that the directory held before the start, none that it held at an earlier
point, and none of the journal's. -/
theorem sequences_and_ids_are_new (path : Option String) (events : List JournalEvent)
    (orderly : journalMachine.Meets Orderly (fresh path) events) :
    let journal := journalMachine.after (fresh path) events
    (journal.records.map JournalRecord.sequence).Nodup ∧
      (∀ record ∈ journal.records, record.sequence < journal.state.nextSequence) ∧
      (∀ id, OnDisk journal.root id → ∃ record ∈ journal.records, record.operationId = id) ∧
      (Indexed journal.root → ∀ effects fault nowMs host,
        Host.boot journal.root effects fault nowMs = .ok host → ∀ digest before later,
          (Host.machine digest).Meets Host.Orderly host (before ++ later) →
            let earlier := ((Host.machine digest).after host before).engine
            let engine := ((Host.machine digest).after host (before ++ later)).engine
            engine.nextOperation + 1 < 2 ^ 64 → ∀ id, OnDisk journal.root id ∨
              OnDisk earlier.journal.root id ∨ engine.journal.get id ≠ none →
                engine.mintedId ≠ id) := by
  intro journal
  have numbered := numbered_after path events
  have coherent := coherent_after path events
  have filed := filed_after path orderly
  refine ⟨numbered.distinct coherent, ?_, ?_, ?_⟩
  · intro record member
    obtain ⟨id, -, held⟩ := List.mem_filterMap.mp member
    exact numbered.below id record held
  · intro id recorded
    obtain ⟨record, held⟩ := filed id recorded
    exact ⟨record, List.mem_filterMap.mpr ⟨id, (coherent.mem_order id).mpr ⟨record, held⟩, held⟩,
      Table.key_of_get? held⟩
  · intro indexed effects fault nowMs host booted digest before later orderly earlier engine fits id
    obtain ⟨first, second⟩ := (Machine.meets_append _).mp orderly
    have start := (Host.unspent_boot (Host.whole_of_filed coherent filed indexed) booted).2
    have halfway : MutationEngine.Unspent (OnDisk journal.root) earlier :=
      (Host.machine digest).invariant_of_step (fun host => MutationEngine.Unspent _ host.engine)
        (fun host input held condition => Host.unspent_step digest held condition) start first
    have unspent : MutationEngine.Unspent (OnDisk earlier.journal.root) engine := by
      have ends := (Host.machine digest).invariant_of_step
        (fun host => MutationEngine.Unspent (OnDisk earlier.journal.root) host.engine)
        (fun host input held condition => Host.unspent_step digest held condition)
        { halfway with known := fun id recorded => recorded } second
      rwa [← Machine.after_append] at ends
    have free := unspent.free _ (Nat.lt_succ_self _) fits
    rintro known rfl
    have recorded : OnDisk earlier.journal.root engine.mintedId ∨
        engine.journal.get engine.mintedId ≠ none → False := by
      rintro (recorded | held)
      · obtain ⟨record, held⟩ := unspent.filed _ (unspent.known _ recorded)
        cases free.symm.trans held
      · exact held free
    exact recorded (known.elim (fun before => .inl (halfway.known _ before)) id)

def firstRecord : JournalRecord :=
  MutationEngine.acceptedRecord ⟨"owner", Host.sampleRequest "request_1" "repo_1", "digest",
    Host.sampleKey, none⟩ "op_1" 0

def twoRecords (fault : Option WriteFault) : List JournalEvent :=
  [.call (.append firstRecord) none, .call (.append { firstRecord with operationId := "op_2" }) fault]

/-- Two operations, the directory opened again, and a host that starts over it and once more. -/
theorem next_id_after_reopen : ∃ host, Host.boot (journalMachine.after (fresh (some "state"))
      (twoRecords none ++ [.reopen])).root [.unstagePaths] none 1 = .ok host ∧
    ∀ id ∈ ["op_1", "op_2"], ((Host.machine Host.sampleDigest).after host
      [.restart [] 2]).engine.mintedId ≠ id := by
  have complete : (journalMachine.after (fresh (some "state")) (twoRecords none)).Complete :=
    ((complete_fresh _).faultless _).faultless _
  have orderly : journalMachine.Meets Orderly (fresh (some "state")) (twoRecords none ++ [.reopen]) :=
    ⟨trivial, trivial, complete.indexed, trivial⟩
  have counted : (Host.boot (journalMachine.after (fresh (some "state"))
        (twoRecords none ++ [.reopen])).root [.unstagePaths] none 1).toOption.map (fun host =>
      ((Host.machine Host.sampleDigest).after host [.restart [] 2]).engine.nextOperation) = some 2 ∧
    ∀ id ∈ ["op_1", "op_2"], OnDisk (journalMachine.after (fresh (some "state"))
      (twoRecords none ++ [.reopen])).root id := by
    unfold OnDisk
    decide +kernel
  obtain ⟨host, booted, counter⟩ := Option.map_eq_some_iff.mp counted.1
  rw [toOption_eq_some] at booted
  have fits : ((Host.machine Host.sampleDigest).after host [.restart [] 2]).engine.nextOperation + 1 <
      2 ^ 64 := by
    rw [counter]
    decide
  have reopened := complete.reopened
  have whole := Host.whole_of_filed reopened.toCoherent reopened.filed reopened.indexed
  exact ⟨host, booted, fun id listed => (sequences_and_ids_are_new (some "state") _ orderly).2.2.2
    reopened.indexed [.unstagePaths] none 1 host booted Host.sampleDigest [] [.restart [] 2]
    ⟨(Host.unspent_boot whole booted).1.indexed, trivial⟩ fits id (.inl (counted.2 id listed))⟩

/-- The process dies between a record and the index: the next one gives its id out again. -/
theorem id_minted_twice : ∃ host,
    Host.boot (journalMachine.after (fresh (some "state"))
        (twoRecords (some ⟨1, .rename, "killed"⟩))).root [.unstagePaths] none 1 = .ok host ∧
      OnDisk host.engine.journal.root host.engine.mintedId := by
  have minted : (Host.boot (journalMachine.after (fresh (some "state"))
      (twoRecords (some ⟨1, .rename, "killed"⟩))).root [.unstagePaths] none 1).toOption.map (fun host =>
        (host.engine.journal.root.bind fun directory =>
          directory.read (.record host.engine.mintedId)).isSome) = some true := by
    decide +kernel
  obtain ⟨host, booted, recorded⟩ := Option.map_eq_some_iff.mp minted
  exact ⟨host, toOption_eq_some.mp booted, recorded⟩

end Journal
end Refyard
