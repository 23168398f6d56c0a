import Refyard.Foundation.Log
import Refyard.Foundation.Table
import Refyard.Jobs.Identity

/-! Snapshots: what a read saw, so that a later write can prove nothing moved. They are
kept in memory, a bounded number of them for a bounded time, with the cursors that continue
a paged read. -/
namespace Refyard.Snapshots

inductive SnapshotKind where
  | status
  | history
  | refs
  | diff
  | worktrees
  | submodules
  | stashes
  | previews
  deriving DecidableEq

inductive Topology where
  | continuous
  | sparse
  deriving DecidableEq

structure HistoryIntent where
  firstParentOnly : Bool
  topology : Topology
  deriving DecidableEq

structure SnapshotRequest where
  kind : SnapshotKind
  repositoryId : String
  worktreeId : Option String
  targetGeneration : String
  tips : List String
  headOid : Option String
  observedRefsFingerprint : Option String
  indexKey : Option String
  historyIntent : Option HistoryIntent

structure SnapshotRecord where
  snapshotId : String
  kind : SnapshotKind
  repositoryId : String
  worktreeId : Option String
  targetGeneration : String
  createdAtMs : Nat
  tips : List String
  headOid : Option String
  observedRefsFingerprint : Option String
  indexKey : Option String
  historyIntent : Option HistoryIntent
  deriving DecidableEq

structure CursorRecord where
  snapshotId : String
  skip : Nat
  limit : Nat
  kind : SnapshotKind
  repositoryId : String
  worktreeId : Option String

inductive CursorResult where
  | resolved (snapshotId : String) (skip limit : Nat) (kind : SnapshotKind)
  | malformed
  | unknown
  | expired

def mintedSnapshotId (number : Nat) : String := s!"snap_{base36 number}"

def mintedCursorId (number : Nat) : String := s!"cur_{base36 number}"

def SnapshotRequest.record (request : SnapshotRequest) (snapshotId : String) (createdAtMs : Nat) :
    SnapshotRecord where
  snapshotId := snapshotId
  kind := request.kind
  repositoryId := request.repositoryId
  worktreeId := request.worktreeId
  targetGeneration := request.targetGeneration
  createdAtMs := createdAtMs
  tips := request.tips
  headOid := request.headOid
  observedRefsFingerprint := request.observedRefsFingerprint
  indexKey := request.indexKey
  historyIntent := request.historyIntent

structure SnapshotState where
  nextSnapshot : Nat := 0
  nextCursor : Nat := 0
  order : List String := []
  byId : Table SnapshotRecord.snapshotId := .empty
  cursors : Std.ExtTreeMap String CursorRecord compare := ∅

namespace SnapshotState

def stale (ttlMs now : Nat) (record : SnapshotRecord) : Bool :=
  ttlMs ≤ now - record.createdAtMs

def expiredAt (state : SnapshotState) (ttlMs now : Nat) (snapshotId : String) : Bool :=
  match state.byId.get? snapshotId with
  | none => true
  | some record => stale ttlMs now record

def trimOldest (maxEntries : Nat) :
    List String → Table SnapshotRecord.snapshotId → List String × Table SnapshotRecord.snapshotId
  | [], byId => ([], byId)
  | oldest :: rest, byId =>
      if maxEntries < rest.length + 1 then trimOldest maxEntries rest (byId.erase oldest)
      else (oldest :: rest, byId)

def evict (state : SnapshotState) (ttlMs maxEntries now : Nat) : SnapshotState :=
  let expired := state.order.filter (state.expiredAt ttlMs now)
  let byId := expired.foldl Table.erase state.byId
  let (order, byId) := trimOldest maxEntries (state.order.filter byId.contains) byId
  { state with order, byId }

def mint (state : SnapshotState) (ttlMs maxEntries now : Nat) (request : SnapshotRequest) :
    SnapshotRecord × SnapshotState :=
  let snapshot := request.record (mintedSnapshotId (state.nextSnapshot + 1)) now
  let filed : SnapshotState := { state with
    nextSnapshot := state.nextSnapshot + 1
    order := state.order ++ [snapshot.snapshotId]
    byId := state.byId.insert snapshot }
  (snapshot, filed.evict ttlMs maxEntries now)

def get (state : SnapshotState) (snapshotId : String) : Option SnapshotRecord :=
  state.byId.get? snapshotId

def mintCursor (state : SnapshotState) (snapshot : SnapshotRecord) (skip limit : Nat) :
    String × SnapshotState :=
  let cursor := mintedCursorId (state.nextCursor + 1)
  (cursor, { state with
    nextCursor := state.nextCursor + 1
    cursors := state.cursors.insert cursor
      { snapshotId := snapshot.snapshotId, skip, limit, kind := snapshot.kind
        repositoryId := snapshot.repositoryId, worktreeId := snapshot.worktreeId } })

def isCursorShape (cursor : String) : Bool :=
  match cursor.toList with
  | 'c' :: 'u' :: 'r' :: '_' :: rest =>
      !rest.isEmpty && rest.length ≤ 96 && rest.all fun c => c.isAlphanum || c = '_' || c = '-'
  | _ => false

def resolveCursor (state : SnapshotState) (cursor : String) : CursorResult :=
  if !isCursorShape cursor then .malformed
  else
    match state.cursors[cursor]? with
    | none => .unknown
    | some record =>
        if !state.byId.contains record.snapshotId then .expired
        else .resolved record.snapshotId record.skip record.limit record.kind

def cursorRepository (state : SnapshotState) (cursor : String) : Option (String × Option String) :=
  (state.cursors[cursor]?).map fun record => (record.repositoryId, record.worktreeId)

end SnapshotState

theorem mintedSnapshotId_injective {left right : Nat}
    (same : mintedSnapshotId left = mintedSnapshotId right) : left = right := by
  unfold mintedSnapshotId at same
  apply base36_injective
  simpa [toString, String.toList_inj] using congrArg String.toList same

theorem mintedCursorId_injective {left right : Nat}
    (same : mintedCursorId left = mintedCursorId right) : left = right := by
  unfold mintedCursorId at same
  apply base36_injective
  simpa [toString, String.toList_inj] using congrArg String.toList same

namespace SnapshotState

structure Lists (order : List String) (byId : Table SnapshotRecord.snapshotId)
    (records : List SnapshotRecord) : Prop where
  order : order = records.map SnapshotRecord.snapshotId
  distinct : (records.map SnapshotRecord.snapshotId).Nodup
  holds : ∀ id record, byId.get? id = some record ↔ record ∈ records ∧ record.snapshotId = id

section
variable {order : List String} {byId : Table SnapshotRecord.snapshotId}
  {records : List SnapshotRecord}

theorem Lists.get (h : Lists order byId records) {record : SnapshotRecord}
    (member : record ∈ records) : byId.get? record.snapshotId = some record :=
  (h.holds _ _).mpr ⟨member, rfl⟩

theorem Lists.size (h : Lists order byId records) : byId.size = records.length := by
  rw [← Table.length_values]
  apply List.Perm.length_eq
  rw [List.perm_ext_iff_of_nodup byId.values_nodup (List.Nodup.of_map _ h.distinct)]
  intro record
  rw [Table.mem_values, h.holds]
  simp

theorem Lists.insert (h : Lists order byId records) {record : SnapshotRecord}
    (fresh : record.snapshotId ∉ records.map SnapshotRecord.snapshotId) :
    Lists (order ++ [record.snapshotId]) (byId.insert record) (records ++ [record]) := by
  constructor
  · rw [h.order, List.map_append, List.map_singleton]
  · rw [List.map_append, List.map_singleton, List.nodup_append]
    refine ⟨h.distinct, List.pairwise_singleton _ _, ?_⟩
    intro id member other last same
    rw [List.mem_singleton] at last
    exact fresh (last ▸ same ▸ member)
  · intro id other
    rw [Table.get?_insert, List.mem_append, List.mem_singleton]
    split
    · rename_i same
      rw [same, Option.some_inj]
      constructor
      · rintro rfl
        exact ⟨.inr rfl, rfl⟩
      · rintro ⟨before | rfl, named⟩
        · exact absurd (List.mem_map.mpr ⟨other, before, named⟩) fresh
        · rfl
    · rename_i differs
      rw [h.holds]
      constructor
      · rintro ⟨before, named⟩
        exact ⟨.inl before, named⟩
      · rintro ⟨before | rfl, named⟩
        · exact ⟨before, named⟩
        · exact absurd named.symm differs

theorem get?_foldl_erase (ids : List String) (byId : Table SnapshotRecord.snapshotId) (id : String) :
    (ids.foldl Table.erase byId).get? id = if id ∈ ids then none else byId.get? id := by
  induction ids generalizing byId with
  | nil => simp
  | cons first rest ih =>
    rw [List.foldl_cons, ih, Table.get?_erase]
    by_cases later : id ∈ rest
    · simp [later]
    · by_cases same : id = first
      · simp [same]
      · simp [later, same]

theorem Lists.expire {state : SnapshotState} (h : Lists state.order state.byId records)
    (ttlMs now : Nat) :
    let byId := (state.order.filter (state.expiredAt ttlMs now)).foldl Table.erase state.byId
    Lists (state.order.filter byId.contains) byId
      (records.filter fun record => !stale ttlMs now record) := by
  intro byId
  have expires : ∀ record ∈ records,
      state.expiredAt ttlMs now record.snapshotId = stale ttlMs now record := by
    intro record member
    rw [expiredAt, h.get member]
  have held : ∀ record ∈ records,
      byId.get? record.snapshotId = if stale ttlMs now record then none else some record := by
    intro record member
    have listed : record.snapshotId ∈ state.order.filter (state.expiredAt ttlMs now) ↔
        stale ttlMs now record = true := by
      rw [List.mem_filter, expires record member, h.order]
      exact and_iff_right (List.mem_map_of_mem member)
    rw [get?_foldl_erase, h.get member]
    simp only [listed]
  constructor
  · rw [h.order, List.filter_map]
    congr 1
    apply List.filter_congr
    intro record member
    rw [Function.comp_apply, Table.contains, held record member]
    split <;> simp_all
  · exact h.distinct.sublist (List.filter_sublist.map _)
  · intro id record
    rw [List.mem_filter]
    constructor
    · intro found
      have was := found
      rw [get?_foldl_erase] at was
      split at was
      · cases was
      · obtain ⟨member, rfl⟩ := (h.holds id record).mp was
        rw [held record member] at found
        split at found
        · cases found
        · rename_i young
          exact ⟨⟨member, by simpa using young⟩, rfl⟩
    · rintro ⟨⟨member, young⟩, rfl⟩
      rw [held record member]
      simp_all

theorem Lists.drop_one {record : SnapshotRecord} (h : Lists order byId (record :: records)) :
    Lists (records.map SnapshotRecord.snapshotId) (byId.erase record.snapshotId) records := by
  have distinct := h.distinct
  rw [List.map_cons, List.nodup_cons] at distinct
  refine ⟨rfl, distinct.2, ?_⟩
  intro id other
  rw [Table.get?_erase]
  split
  · rename_i same
    simp only [reduceCtorEq, false_iff, not_and]
    intro member named
    exact distinct.1 (List.mem_map.mpr ⟨other, member, named.trans same⟩)
  · rename_i differs
    rw [h.holds, List.mem_cons]
    constructor
    · rintro ⟨rfl | member, named⟩
      · exact absurd named.symm differs
      · exact ⟨member, named⟩
    · rintro ⟨member, named⟩
      exact ⟨.inr member, named⟩

theorem Lists.trim (h : Lists order byId records) (maxEntries : Nat) :
    Lists (trimOldest maxEntries order byId).1 (trimOldest maxEntries order byId).2
      (records.drop (records.length - maxEntries)) := by
  induction records generalizing order byId with
  | nil =>
    have empty : order = [] := h.order
    rw [empty, trimOldest, List.drop_nil]
    exact empty ▸ h
  | cons oldest rest ih =>
    have parts : order = oldest.snapshotId :: rest.map SnapshotRecord.snapshotId := h.order
    rw [parts, trimOldest, List.length_map, List.length_cons]
    split
    · rename_i many
      have next := ih h.drop_one
      rw [show rest.length + 1 - maxEntries = rest.length - maxEntries + 1 by omega,
        List.drop_succ_cons]
      exact next
    · rename_i few
      rw [show rest.length + 1 - maxEntries = 0 by omega, List.drop_zero]
      exact parts ▸ h

theorem Lists.evict {state : SnapshotState} (h : Lists state.order state.byId records)
    (ttlMs maxEntries now : Nat) :
    let young := records.filter fun record => !stale ttlMs now record
    Lists (state.evict ttlMs maxEntries now).order (state.evict ttlMs maxEntries now).byId
      (young.drop (young.length - maxEntries)) :=
  (h.expire ttlMs now).trim maxEntries

end

end SnapshotState

theorem SnapshotState.Lists.evict_oldest {state : SnapshotState} {records : List SnapshotRecord}
    (h : Lists state.order state.byId records) (ttlMs maxEntries now : Nat)
    (rising : records.Pairwise fun earlier later => earlier.createdAtMs ≤ later.createdAtMs) :
    ∃ count ≤ records.length,
      Lists (state.evict ttlMs maxEntries now).order (state.evict ttlMs maxEntries now).byId
        (records.drop count) ∧ records.length ≤ count + maxEntries ∧
      ∀ place record, records[place]? = some record →
        (place < count ↔ place + maxEntries < records.length ∨ ttlMs ≤ now - record.createdAtMs) := by
  have closed : records.Pairwise fun earlier later =>
      (!stale ttlMs now earlier) = true → (!stale ttlMs now later) = true := by
    refine rising.imp ?_
    intro earlier later le young
    simp only [stale, Bool.not_eq_true', decide_eq_false_iff_not] at young ⊢
    omega
  obtain ⟨aged, within, young, tested⟩ := filter_eq_drop closed
  have files := h.evict ttlMs maxEntries now
  simp only [young, List.length_drop, List.drop_drop] at files
  refine ⟨_, ?_, files, by omega, ?_⟩
  · omega
  · intro place record found
    have inside := (List.getElem?_eq_some_iff.mp found).1
    have test := tested place record found
    simp only [stale, Bool.not_eq_false', decide_eq_true_eq] at test
    rw [← test]
    omega

end Refyard.Snapshots
