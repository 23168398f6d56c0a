import Mathlib.Data.List.Sublists
import Refyard.Jobs.JournalChanges

/-! What the directory holds of a journal: every record in memory is the last one
published under its name, and a load reads back the records the index names. -/
namespace Refyard

def StateRoot.named (root : StateRoot) : List String :=
  match root.read .index with
  | some (.index index) => index.operations.map IndexEntry.operationId
  | _ => []

namespace StateRoot

variable (root : StateRoot)

theorem read_publish (name other : FileName) (text : FileText) :
    (root.publish name text).read other = if name = other then some text else root.read other :=
  PublishLog.read_publish _ _ _ _

theorem named_publish_record (id : String) (text : FileText) :
    (root.publish (.record id) text).named = root.named := by
  unfold named
  rw [read_publish, if_neg (by simp)]

theorem named_publish_index (index : JournalIndex) :
    (root.publish .index (.index index)).named = index.operations.map IndexEntry.operationId := by
  unfold named
  rw [read_publish, if_pos rfl]

end StateRoot

namespace JournalRecord

theorem SameRequest.trans {first second third : JournalRecord} (left : first.SameRequest second)
    (right : second.SameRequest third) : first.SameRequest third :=
  ⟨right.operationId.trans left.operationId, right.clientRequestId.trans left.clientRequestId,
    right.actor.trans left.actor, right.kind.trans left.kind, right.target.trans left.target,
    right.payloadDigest.trans left.payloadDigest, right.writeKey.trans left.writeKey⟩

end JournalRecord

namespace Journal

structure Ordered (journal : Journal) : Prop where
  once : journal.state.order.Nodup
  mem_order : ∀ id, id ∈ journal.state.order ↔ ∃ record, journal.get id = some record

/-- The directory agrees with memory, and its index names none but records in memory. -/
structure Mirrored (journal : Journal) (root : StateRoot) : Prop where
  minted : ∀ id record, journal.get id = some record → isOperationId id = true
  mirrors : ∀ id record, journal.get id = some record →
    root.read (.record id) = some (.record record)
  readable : ∀ text, root.read .index = some text → ∃ index, text = .index index
  named : root.named.Sublist journal.state.order

structure Coherent (journal : Journal) : Prop extends journal.Ordered where
  durable : ∀ root, journal.root = some root → journal.Mirrored root

variable {journal next : Journal} {root : StateRoot} {call : JournalCall} (path : Option String)

theorem indexOf_ids (ordered : journal.Ordered) :
    (indexOf journal.state).operations.map IndexEntry.operationId = journal.state.order := by
  have present : ∀ id ∈ journal.state.order, ∃ record, journal.get id = some record :=
    fun id member => (ordered.mem_order id).mp member
  unfold indexOf
  rw [List.map_map]
  generalize journal.state.order = order at present
  induction order with
  | nil => rfl
  | cons id rest ih =>
    obtain ⟨record, held⟩ := present id List.mem_cons_self
    have hid : record.operationId = id := Table.key_of_get? held
    have found : journal.state.records.get? id = some record := held
    rw [List.filterMap_cons_some found, List.map_cons,
      ih fun other member => present other (List.mem_cons_of_mem _ member)]
    exact congrArg (· :: rest) hid

theorem publish_root (h : journal.root = some root) (name : FileName) (text : FileText) :
    (journal.publish name text).root = some (root.publish name text) := by
  simp [publish, h]

theorem exists_root_of_publish {name : FileName} {text : FileText}
    (h : (journal.publish name text).root = some root) :
    ∃ before, journal.root = some before ∧ root = before.publish name text := by
  obtain ⟨before, held, rfl⟩ := Option.map_eq_some_iff.mp h
  exact ⟨before, held, rfl⟩

theorem Ordered.store {journal : Journal} (ordered : journal.Ordered) {old new : JournalRecord}
    (held : journal.get old.operationId = some old) (same : new.operationId = old.operationId) :
    (journal.store new).Ordered := by
  refine ⟨ordered.once, fun id => ?_⟩
  rw [get_store]
  refine (ordered.mem_order id).trans ?_
  split
  · rename_i hid
    rw [hid, same, held]
    simp
  · rfl

theorem Mirrored.store {journal : Journal} {root : StateRoot} (mirrored : journal.Mirrored root)
    {new : JournalRecord} (minted : isOperationId new.operationId = true) :
    (journal.store new).Mirrored (root.publish (.record new.operationId) (.record new)) := by
  refine ⟨fun id record held => ?_, fun id record held => ?_, fun text held => ?_, ?_⟩
  · rw [get_store] at held
    split at held
    · rename_i hid
      rw [hid]
      exact minted
    · exact mirrored.minted id record held
  · rw [get_store] at held
    rw [StateRoot.read_publish]
    split at held
    · rename_i hid
      rw [if_pos (congrArg _ hid.symm), Option.some.inj held]
    · rename_i hid
      rw [if_neg fun same => hid (FileName.record.inj same).symm]
      exact mirrored.mirrors id record held
  · rw [StateRoot.read_publish, if_neg (by simp)] at held
    exact mirrored.readable text held
  · rw [StateRoot.named_publish_record]
    exact mirrored.named

theorem Coherent.store {journal : Journal} (coherent : journal.Coherent) {old new : JournalRecord}
    (held : journal.get old.operationId = some old) (same : new.operationId = old.operationId)
    (minted : journal.root.isSome = true → isOperationId old.operationId = true) :
    (journal.store new).Coherent := by
  refine ⟨coherent.toOrdered.store held same, fun root rooted => ?_⟩
  obtain ⟨before, hbefore, rfl⟩ := exists_root_of_publish rooted
  exact (coherent.durable before hbefore).store (same ▸ minted (by simp [hbefore]))

theorem Coherent.enrol {journal : Journal} (coherent : journal.Coherent) {record : JournalRecord}
    (fresh : journal.state.records.contains record.operationId = false)
    (minted : journal.root.isSome = true → isOperationId record.operationId = true) :
    (journal.enrol record).Coherent := by
  have free := get_eq_none_of_fresh fresh
  have order : (journal.enrol record).state.order =
      journal.state.order ++ [record.operationId] := rfl
  constructor
  · constructor
    · rw [order]
      refine List.nodup_append.mpr ⟨coherent.once, List.nodup_singleton _, ?_⟩
      intro id member other single same
      obtain ⟨held, found⟩ := (coherent.mem_order id).mp member
      rw [same, List.mem_singleton.mp single, free] at found
      contradiction
    · intro id
      rw [order, List.mem_append, List.mem_singleton, coherent.mem_order, get_enrol]
      split
      · rename_i hid
        simp [hid]
      · rename_i hid
        simp [hid]
  · intro root rooted
    obtain ⟨before, hbefore, rfl⟩ := exists_root_of_publish rooted
    have mirrored := coherent.durable before hbefore
    refine ⟨fun id held found => ?_, fun id held found => ?_, fun text found => ?_, ?_⟩
    · rw [get_enrol] at found
      split at found
      · rename_i hid
        rw [hid]
        exact minted (by simp [hbefore])
      · exact mirrored.minted id held found
    · rw [get_enrol] at found
      rw [StateRoot.read_publish]
      split at found
      · rename_i hid
        rw [if_pos (congrArg _ hid.symm), Option.some.inj found]
      · rename_i hid
        rw [if_neg fun same => hid (FileName.record.inj same).symm]
        exact mirrored.mirrors id held found
    · rw [StateRoot.read_publish, if_neg (by simp)] at found
      exact mirrored.readable text found
    · rw [StateRoot.named_publish_record, order]
      exact mirrored.named.trans (List.sublist_append_left _ _)

theorem Coherent.publishIndex (coherent : journal.Coherent) : journal.publishIndex.Coherent := by
  refine ⟨⟨coherent.once, coherent.mem_order⟩, fun root rooted => ?_⟩
  obtain ⟨before, hbefore, rfl⟩ := exists_root_of_publish rooted
  have mirrored := coherent.durable before hbefore
  refine ⟨mirrored.minted, fun id record held => ?_, fun text held => ?_, ?_⟩
  · rw [StateRoot.read_publish, if_neg (by simp)]
    exact mirrored.mirrors id record held
  · rw [StateRoot.read_publish, if_pos rfl] at held
    exact ⟨_, (Option.some.inj held).symm⟩
  · rw [StateRoot.named_publish_index, indexOf_ids coherent.toOrdered]
    exact List.Sublist.refl _

theorem Coherent.change (coherent : journal.Coherent) (change : Change call journal next) :
    next.Coherent := by
  cases change with
  | number sequence => exact ⟨⟨coherent.once, coherent.mem_order⟩, fun root rooted =>
      let mirrored := coherent.durable root rooted
      ⟨mirrored.minted, mirrored.mirrors, mirrored.readable, mirrored.named⟩⟩
  | store old held updates minted => exact coherent.store held updates.same.operationId minted
  | enrol asked fresh minted => exact coherent.enrol fresh minted
  | publishIndex => exact coherent.publishIndex

theorem Coherent.changes (coherent : journal.Coherent) (changes : Changes call journal next) :
    next.Coherent := by
  induction changes with
  | refl => exact coherent
  | tail _ change ih => exact ih.change change

/-- A call drops no record, keeps what was requested, and moves each status at most once. -/
def Keeps (call : JournalCall) (journal next : Journal) : Prop :=
  ∀ id old, journal.get id = some old → ∃ new, next.get id = some new ∧ old.SameRequest new ∧
    (new.status = old.status ∨ call.moves old.status new.status = true)

theorem keeps_of_change (change : Change call journal next) : Keeps call journal next := by
  intro id record held
  cases change with
  | number sequence => exact ⟨record, held, .refl _, .inl rfl⟩
  | @store old new stored updates minted =>
    rw [get_store]
    split
    · rename_i hid
      rw [hid, updates.same.operationId, stored] at held
      cases Option.some.inj held
      refine ⟨new, rfl, updates.same, ?_⟩
      obtain ⟨moved, -⟩ | ⟨-, status, -⟩ := updates.change
      · exact .inr moved
      · exact .inl status
    · exact ⟨record, held, .refl _, .inl rfl⟩
  | enrol asked fresh minted =>
    rw [get_enrol]
    split
    · rename_i hid
      rw [hid, get_eq_none_of_fresh fresh] at held
      contradiction
    · exact ⟨record, held, .refl _, .inl rfl⟩
  | publishIndex => exact ⟨record, held, .refl _, .inl rfl⟩

theorem keeps_of_changes (changes : Changes call journal next) : Keeps call journal next := by
  induction changes with
  | refl => exact fun id record held => ⟨record, held, .refl _, .inl rfl⟩
  | tail _ change ih =>
    intro id old held
    obtain ⟨middle, hmiddle, sameMiddle, first⟩ := ih id old held
    obtain ⟨new, hnew, sameNew, second⟩ := keeps_of_change change id middle hmiddle
    refine ⟨new, hnew, sameMiddle.trans sameNew, ?_⟩
    rcases first with first | first
    · rwa [first] at second
    · -- a record that moved stays where it is
      rcases second with second | second
      · exact .inr (second ▸ first)
      · rw [JournalCall.moves_once first] at second
        contradiction

theorem change_root_isSome (change : Change call journal next) :
    next.root.isSome = journal.root.isSome := by
  cases change with
  | number sequence => rfl
  | store => simp [store, putRecord, publish]
  | enrol => simp [enrol, enter, publish]
  | publishIndex => simp [Journal.publishIndex, publish]

theorem change_order (other : ∀ record, call ≠ .append record) (change : Change call journal next) :
    next.state.order = journal.state.order := by
  cases change with
  | number => rfl
  | store => rfl
  | enrol asked => exact absurd asked (other _)
  | publishIndex => rfl

theorem changes_order (other : ∀ record, call ≠ .append record)
    (changes : Changes call journal next) : next.state.order = journal.state.order := by
  induction changes with
  | refl => rfl
  | tail _ change ih => exact (change_order other change).trans ih

theorem changes_rooted (changes : Changes call journal next) :
    next.root.isSome = journal.root.isSome := by
  induction changes with
  | refl => rfl
  | tail _ change ih => exact (change_root_isSome change).trans ih

theorem change_named (coherent : journal.Coherent) (change : Change call journal next)
    (rooted : journal.root = some root) :
    ∃ after, next.root = some after ∧ root.named ⊆ after.named := by
  cases change with
  | number sequence => exact ⟨root, rooted, List.Subset.refl _⟩
  | store =>
    refine ⟨_, publish_root rooted _ _, ?_⟩
    exact List.Subset.refl _
  | enrol =>
    refine ⟨_, publish_root rooted _ _, ?_⟩
    exact List.Subset.refl _
  | publishIndex =>
    refine ⟨_, publish_root rooted _ _, ?_⟩
    rw [StateRoot.named_publish_index, indexOf_ids coherent.toOrdered]
    exact (coherent.durable root rooted).named.subset

theorem changes_named (coherent : journal.Coherent) (changes : Changes call journal next)
    (rooted : journal.root = some root) :
    ∃ after, next.root = some after ∧ root.named ⊆ after.named := by
  induction changes with
  | refl => exact ⟨root, rooted, List.Subset.refl _⟩
  | tail before change ih =>
    obtain ⟨middle, hmiddle, first⟩ := ih
    obtain ⟨after, hafter, second⟩ := change_named (coherent.changes before) change hmiddle
    exact ⟨after, hafter, fun _ member => second (first member)⟩

/-- Reading the entries of an index back. -/
theorem loadEntries_spec (mirrored : journal.Mirrored root) (entries : List IndexEntry)
    (state : JournalState)
    (held : ∀ entry ∈ entries, ∃ record, journal.get entry.operationId = some record) :
    ∃ final, loadEntries root state entries = .ok final ∧
      final.order = state.order ++ entries.map IndexEntry.operationId ∧
      ∀ id, final.records.get? id = if id ∈ entries.map IndexEntry.operationId then journal.get id
        else state.records.get? id := by
  induction entries generalizing state with
  | nil => exact ⟨state, rfl, by simp, by simp⟩
  | cons entry rest ih =>
    obtain ⟨record, found⟩ := held entry List.mem_cons_self
    have minted := mirrored.minted _ _ found
    have text := mirrored.mirrors _ _ found
    have hid : record.operationId = entry.operationId := Table.key_of_get? found
    obtain ⟨final, loaded, order, records⟩ := ih
      { state with
        order := state.order ++ [record.operationId], records := state.records.insert record }
      fun other member => held other (List.mem_cons_of_mem _ member)
    refine ⟨final, ?_, ?_, fun id => ?_⟩
    · rw [loadEntries]
      simp only [minted, text, Bool.not_true, Bool.false_eq_true, ↓reduceIte]
      exact loaded
    · rw [order, hid]
      simp
    · rw [records id, List.map_cons, Table.get?_insert, hid]
      by_cases same : id = entry.operationId
      · subst same
        simp [found]
      · simp [same]

structure Reopened (journal : Journal) (root : StateRoot) (loaded : Journal) : Prop where
  rooted : loaded.root = some root
  order : loaded.state.order = root.named
  get : ∀ id, loaded.get id = if id ∈ root.named then journal.get id else none

theorem load_spec (coherent : journal.Coherent) (rooted : journal.root = some root) :
    ∃ state, load root = .ok state ∧ state.order = root.named ∧
      ∀ id, state.records.get? id = if id ∈ root.named then journal.get id else none := by
  have mirrored := coherent.durable root rooted
  have held : ∀ id ∈ root.named, ∃ record, journal.get id = some record := fun id member =>
    (coherent.mem_order id).mp (mirrored.named.subset member)
  cases text : root.read .index with
  | none =>
    have unnamed : root.named = [] := by simp [StateRoot.named, text]
    have hload : load root = .ok { JournalState.blank with nextSequence := 1 } := by
      simp [load, text, loadEntries, JournalState.blank]
    refine ⟨_, hload, unnamed.symm, fun id => ?_⟩
    rw [unnamed]
    exact Table.get?_empty id
  | some other =>
    obtain ⟨index, rfl⟩ := mirrored.readable other text
    have named : root.named = index.operations.map IndexEntry.operationId := by
      simp [StateRoot.named, text]
    obtain ⟨final, loaded, order, records⟩ := loadEntries_spec mirrored
      index.operations .blank fun entry member => held _ (named ▸ List.mem_map_of_mem member)
    have hload : load root = .ok { final with
        nextSequence := max index.nextSequence
          (((final.records.values.map fun record => record.sequence + 1).max?).getD 1) } := by
      simp only [load, text, loaded]
    refine ⟨_, hload, ?_, fun id => ?_⟩
    · rw [named]
      exact order
    · rw [named]
      refine (records id).trans ?_
      split
      · rfl
      · exact Table.get?_empty id

theorem openJournal_spec (coherent : journal.Coherent) (rooted : journal.root = some root) :
    ∃ loaded, openJournal (some root) = .ok loaded ∧ journal.Reopened root loaded := by
  obtain ⟨state, hload, order, records⟩ := load_spec coherent rooted
  refine ⟨⟨state, some root⟩, ?_, rfl, order, records⟩
  unfold openJournal
  simp only [hload]

theorem Reopened.coherent {loaded : Journal} (coherent : journal.Coherent)
    (rooted : journal.root = some root) (reopened : journal.Reopened root loaded) :
    loaded.Coherent := by
  have mirrored := coherent.durable root rooted
  have present {id : String} {record : JournalRecord} (held : loaded.get id = some record) :
      id ∈ root.named ∧ journal.get id = some record := by
    rw [reopened.get] at held
    split at held
    · rename_i member
      exact ⟨member, held⟩
    · contradiction
  refine ⟨⟨?_, fun id => ?_⟩, fun other rooted' => ?_⟩
  · rw [reopened.order]
    exact mirrored.named.nodup coherent.once
  · rw [reopened.order]
    constructor
    · intro member
      obtain ⟨record, held⟩ := (coherent.mem_order id).mp (mirrored.named.subset member)
      exact ⟨record, by rw [reopened.get, if_pos member, held]⟩
    · rintro ⟨record, held⟩
      exact (present held).1
  · rw [reopened.rooted] at rooted'
    cases Option.some.inj rooted'
    refine ⟨fun id record held => mirrored.minted id record (present held).2,
      fun id record held => mirrored.mirrors id record (present held).2, mirrored.readable, ?_⟩
    rw [reopened.order]

def emptyRoot (path : Option String) : Option StateRoot := path.map fun path => ⟨path, []⟩

/-- The journal of such a directory; without a path it lives in memory only. -/
def fresh (path : Option String) : Journal where
  state := { JournalState.blank with nextSequence := if path.isSome then 1 else 0 }
  root := emptyRoot path

@[simp] theorem get_fresh (id : String) : (fresh path).get id = none :=
  Table.get?_empty id

theorem coherent_fresh : (fresh path).Coherent := by
  refine ⟨⟨List.nodup_nil, fun id => ?_⟩, fun root rooted => ?_⟩
  · rw [get_fresh]
    simp [fresh, JournalState.blank]
  · obtain ⟨name, -, rfl⟩ := Option.map_eq_some_iff.mp rooted
    refine ⟨by simp, by simp, fun text held => ?_, .refl _⟩
    simp [StateRoot.read] at held

end Journal
end Refyard
