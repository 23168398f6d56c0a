import Refyard.Core.CatFileStream
import Refyard.Reads.Paging
import Refyard.Reads.RefNames

/-! A cursor keeps its place: whatever the store is asked meanwhile, it resolves to the
snapshot, the page size and the offset that it was minted with, or it resolves no more. -/
namespace Refyard
open Snapshots Interaction

namespace Snapshots.SnapshotState

structure Pinned (state : SnapshotState) (snapshot : SnapshotRecord) : Prop where
  only : ∀ record, state.get snapshot.snapshotId = some record → record = snapshot
  numbered : ∃ number ≤ state.nextSnapshot, snapshot.snapshotId = mintedSnapshotId number

structure Filed (state : SnapshotState) (cursor : String) (record : CursorRecord) : Prop where
  held : state.cursors[cursor]? = some record
  numbered : ∃ number ≤ state.nextCursor, cursor = mintedCursorId number

/-- The other state has these cursors and, as far as it still knows them, these snapshots. -/
def Before (state later : SnapshotState) : Prop :=
  (∀ snapshot, state.Pinned snapshot → later.Pinned snapshot) ∧
    ∀ cursor record, state.Filed cursor record → later.Filed cursor record

variable (state : SnapshotState)

theorem Before.refl : state.Before state :=
  ⟨fun _ pinned => pinned, fun _ _ filed => filed⟩

theorem Before.trans {first second third : SnapshotState} (before : first.Before second)
    (behind : second.Before third) : first.Before third :=
  ⟨fun snapshot pinned => behind.1 snapshot (before.1 snapshot pinned),
    fun cursor record filed => behind.2 cursor record (before.2 cursor record filed)⟩

variable {maxEntries : Nat} {id : String} {record : SnapshotRecord} (snapshot : SnapshotRecord)

theorem trimOldest_subset {order : List String} {byId : Table SnapshotRecord.snapshotId}
    (found : (trimOldest maxEntries order byId).2.get? id = some record) :
    byId.get? id = some record := by
  induction order generalizing byId with
  | nil => exact found
  | cons oldest rest ih =>
    rw [trimOldest] at found
    split at found
    · have kept := ih found
      rw [Table.get?_erase] at kept
      split at kept
      · cases kept
      · exact kept
    · exact found

theorem get_of_evict {state : SnapshotState} {ttlMs now : Nat}
    (found : (state.evict ttlMs maxEntries now).get id = some record) :
    state.get id = some record := by
  have kept := trimOldest_subset found
  rw [get?_foldl_erase] at kept
  split at kept
  · cases kept
  · exact kept

theorem before_mint (ttlMs maxEntries now : Nat) (request : SnapshotRequest) :
    state.Before (state.mint ttlMs maxEntries now request).2 := by
  constructor
  · intro snapshot pinned
    obtain ⟨number, within, named⟩ := pinned.numbered
    refine ⟨fun record found => ?_, number, Nat.le_succ_of_le within, named⟩
    have inserted := get_of_evict found
    apply pinned.only record
    change (state.byId.insert _).get? _ = _ at inserted
    rw [Table.get?_insert, if_neg ?_] at inserted
    · exact inserted
    · intro same
      rw [named] at same
      have numbers := mintedSnapshotId_injective same
      omega
  · intro cursor record filed
    exact ⟨filed.held, filed.numbered⟩

theorem pinned_mint (ttlMs maxEntries now : Nat) (request : SnapshotRequest) :
    (state.mint ttlMs maxEntries now request).2.Pinned
      (state.mint ttlMs maxEntries now request).1 := by
  refine ⟨fun record found => ?_, state.nextSnapshot + 1, Nat.le_refl _, rfl⟩
  let snapshot := request.record (mintedSnapshotId (state.nextSnapshot + 1)) now
  have inserted : (state.byId.insert snapshot).get? snapshot.snapshotId = some record :=
    get_of_evict found
  rw [Table.get?_insert_self] at inserted
  exact (Option.some.inj inserted).symm

theorem before_mintCursor (skip limit : Nat) :
    state.Before (state.mintCursor snapshot skip limit).2 := by
  constructor
  · intro snapshot pinned
    exact ⟨pinned.only, pinned.numbered⟩
  · intro cursor record filed
    obtain ⟨number, within, named⟩ := filed.numbered
    refine ⟨?_, number, Nat.le_succ_of_le within, named⟩
    change (state.cursors.insert _ _)[cursor]? = _
    rw [Std.ExtTreeMap.getElem?_insert, if_neg ?_]
    · exact filed.held
    · rw [compare_eq_iff_eq, named]
      intro same
      have numbers := mintedCursorId_injective same
      omega

theorem filed_mintCursor (skip limit : Nat) :
    (state.mintCursor snapshot skip limit).2.Filed (state.mintCursor snapshot skip limit).1
      { snapshotId := snapshot.snapshotId, skip, limit, kind := snapshot.kind
        repositoryId := snapshot.repositoryId, worktreeId := snapshot.worktreeId } :=
  ⟨Std.ExtTreeMap.getElem?_insert_self, state.nextCursor + 1, Nat.le_refl _, rfl⟩

theorem Filed.resolveCursor {state : SnapshotState} {cursor : String} {record : CursorRecord}
    (filed : state.Filed cursor record) :
    state.resolveCursor cursor = .malformed ∨ state.resolveCursor cursor = .expired ∨
      state.resolveCursor cursor =
        .resolved record.snapshotId record.skip record.limit record.kind := by
  unfold SnapshotState.resolveCursor
  rw [filed.held]
  dsimp only
  split
  · exact .inl rfl
  · split
    · exact .inr (.inl rfl)
    · exact .inr (.inr rfl)

end Snapshots.SnapshotState

open SnapshotState

theorem before_next (ttlMs maxEntries : Nat) (run : SnapshotRun) (input : Nat × SnapshotCall) :
    run.store.Before ((SnapshotRun.answering ttlMs maxEntries).next run input).store := by
  obtain ⟨now, call⟩ := input
  cases call with
  | mint request => exact before_mint run.store ttlMs maxEntries now request
  | get snapshotId => exact Before.refl run.store
  | mintCursor snapshot skip limit => exact before_mintCursor run.store snapshot skip limit
  | resolveCursor cursor => exact Before.refl run.store

theorem before_behind (store : SnapshotStore) (calls : List (Nat × SnapshotCall)) :
    store.state.Before (store.behind calls).state := by
  have after (run : SnapshotRun) : run.store.Before
      ((SnapshotRun.answering store.ttlMs store.maxEntries).after run calls).store := by
    induction calls generalizing run with
    | nil => exact Before.refl run.store
    | cons call rest ih => exact (before_next store.ttlMs store.maxEntries run call).trans (ih _)
  exact after { store := store.state }

def Continues (store : SnapshotStore) (cursor : String) (snapshot : Snapshots.SnapshotRecord)
    (skip limit : Nat) : Prop :=
  store.state.Pinned snapshot ∧ store.state.Filed cursor
    { snapshotId := snapshot.snapshotId, skip, limit, kind := snapshot.kind
      repositoryId := snapshot.repositoryId, worktreeId := snapshot.worktreeId }

theorem Continues.behind {store : SnapshotStore} {cursor : String} {snapshot : Snapshots.SnapshotRecord}
    {skip limit : Nat} (continues : Continues store cursor snapshot skip limit)
    (calls : List (Nat × SnapshotCall)) :
    Continues (store.behind calls) cursor snapshot skip limit :=
  ⟨(before_behind store calls).1 snapshot continues.1,
    (before_behind store calls).2 cursor _ continues.2⟩

variable {skip : Nat} {state : RefState} {target : ReadTarget}
variable {store : SnapshotStore} {query : HistoryQuery} {tips : List String} {maxCount : Nat}

theorem Continues.resolves {cursor : String} {snapshot : Snapshots.SnapshotRecord} {limit : Nat}
    (continues : Continues store cursor snapshot skip limit)
    {repositoryId worktreeId targetGeneration : String}
    {resolved : Nat × Snapshots.SnapshotRecord × Nat}
    (answered : resolveContinuation store.state query repositoryId worktreeId cursor
      targetGeneration = .ok resolved) : resolved = (limit, snapshot, skip) := by
  obtain ⟨pinned, filed⟩ := continues
  unfold resolveContinuation at answered
  obtain refused | expired | resolves := filed.resolveCursor
  · rw [refused] at answered
    cases answered
  · rw [expired] at answered
    cases answered
  · rw [resolves, cursorRepository, filed.held, Option.map_some] at answered
    dsimp only at answered
    split at answered
    · cases answered
    · split at answered
      · cases answered
      · cases found : store.state.get snapshot.snapshotId with
        | none =>
          rw [found] at answered
          cases answered
        | some record =>
          rw [found] at answered
          obtain ⟨-, -, rfl⟩ := map_eq_ok.mp answered
          rw [pinned.only record found]

/-! One page. -/

section
variable {repository : WalkedRepository} {target : ReadTarget} {state : RefState}
variable {store : SnapshotStore} {snapshot : Snapshots.SnapshotRecord} {intent : HistoryIntent}
  {start : PageStart} {moment : ReadMoment} {query : HistoryQuery}

@[simp] theorem yields_keeping {α : Type} {possible : GitCommand → GitAnswer → Prop}
    {program : Read α} {result : α} :
    (keeping store program).Yields possible result ↔ program.Yields possible result :=
  yields_mapExit

theorem intentOf_eq_ok : intentOf snapshot = .ok intent ↔ snapshot.historyIntent = some intent := by
  unfold intentOf
  cases snapshot.historyIntent with
  | none => simp
  | some found => simp

structure Shows (repository : WalkedRepository) (state : RefState) (start : PageStart)
    (tips : List ObjectName) (firstParentOnly : Bool) (page : HistoryPage)
    (after : SnapshotStore) : Prop where
  commits : page.commits.map CommitSummary.oid =
    (((repository.walk tips firstParentOnly).drop start.skip).take start.limit).map
      (ObjectName.text ∘ GitRow.oid)
  moved : ∀ first : RefState, (∀ ref ∈ first.refs, GitRef.Ascii ref.name) →
    ∀ head : HeadState, head.oid = first.head.map ObjectName.text →
      start.snapshot.observedRefsFingerprint = some (observedRefsFingerprint head first.records) →
        (page.tipsMoved = true ↔ ¬state.SameTips first)
  last : page.nextCursor = none →
    ((repository.walk tips firstParentOnly).drop start.skip).length ≤ start.limit
  next : ∀ cursor, page.nextCursor = some cursor →
    Continues after cursor start.snapshot (start.skip + start.limit) start.limit

theorem length_part_le (tips : List ObjectName) (firstParentOnly : Bool) (skip limit : Nat) :
    (repository.part tips firstParentOnly skip (limit + 1)).length ≤ limit ↔
      ((repository.walk tips firstParentOnly).drop skip).length ≤ limit := by
  rw [WalkedRepository.part, List.length_take]
  omega

variable {tips : List ObjectName} {page : HistoryPage} {after : SnapshotStore} {worktreeId : String}
  {limit : Nat}

theorem shows_finishPage {facts : RefFacts} {head : HeadState} {detail : Option CommitDetail}
    {rows : PageRows} (refs : facts.refs = state.records)
    (ascii : ∀ ref ∈ state.refs, GitRef.Ascii ref.name)
    (oid : head.oid = state.head.map ObjectName.text) (shown : rows.commits.map CommitSummary.oid =
      (repository.part tips intent.firstParentOnly start.skip (start.limit + 1)).map
        (ObjectName.text ∘ GitRow.oid)) (counted : rows.rowCount =
      (repository.part tips intent.firstParentOnly start.skip (start.limit + 1)).length)
    (pinned : start.store.state.Pinned start.snapshot)
    (finished : finishPage target start intent moment (start.snapshot.observedRefsFingerprint !=
      some (observedRefsFingerprint head facts.refs)) detail rows = (page, after)) :
    Shows repository state start tips intent.firstParentOnly page after := by
  have commits : (rows.commits.take start.limit).map CommitSummary.oid =
      (((repository.walk tips intent.firstParentOnly).drop start.skip).take start.limit).map
        (ObjectName.text ∘ GitRow.oid) := by
    rw [List.map_take, shown, WalkedRepository.part, ← List.map_take, List.take_take,
      Nat.min_eq_left (Nat.le_succ _)]
  have moved (first : RefState) (alsoAscii : ∀ ref ∈ first.refs, GitRef.Ascii ref.name)
      (other : HeadState) (there : other.oid = first.head.map ObjectName.text)
      (pinnedAt : start.snapshot.observedRefsFingerprint =
        some (observedRefsFingerprint other first.records)) :
      (start.snapshot.observedRefsFingerprint !=
        some (observedRefsFingerprint head facts.refs)) = true ↔ ¬state.SameTips first := by
    rw [bne_iff_ne, ne_eq, not_iff_not, pinnedAt, Option.some_inj, refs, eq_comm]
    exact fingerprint_eq_iff ascii alsoAscii oid there
  unfold finishPage at finished
  dsimp only at finished
  by_cases more : start.limit < rows.rowCount
  · have full : (rows.commits.take start.limit).length = start.limit := by
      have lengths := congrArg List.length shown
      rw [List.length_map, List.length_map, ← counted] at lengths
      rw [List.length_take, lengths]
      omega
    rw [if_pos more, full] at finished
    obtain ⟨rfl, rfl⟩ := Prod.mk.inj finished
    refine ⟨commits, moved, nofun, fun cursor minted => ?_⟩
    obtain rfl := Option.some.inj minted
    exact ⟨(before_mintCursor _ _ _ _).1 _ pinned, filed_mintCursor _ _ _ _⟩
  · rw [if_neg more] at finished
    obtain ⟨rfl, rfl⟩ := Prod.mk.inj finished
    refine ⟨commits, moved, fun _ => ?_, nofun⟩
    rw [← length_part_le, ← counted]
    exact Nat.le_of_not_lt more

theorem shows_of_yields
    (answered : (readHistory target store query moment).Yields (Possible repository state)
      (page, after)) : ∃ worktreeId start intent,
      (startPage target store query worktreeId moment).Yields (Possible repository state) start ∧
        start.snapshot.historyIntent = some intent ∧
        ∀ tips : List ObjectName, start.snapshot.tips = tips.map ObjectName.text →
          start.store.state.Pinned start.snapshot →
            Shows repository state start tips intent.firstParentOnly page after := by
  unfold readHistory at answered
  simp only [yields_bind, yields_keeping, yields_orLeave, intentOf_eq_ok] at answered
  obtain ⟨worktreeId, -, start, started, intent, intended, facts, observed, head, located, detail,
    -, rows, walked, finished⟩ := answered
  refine ⟨worktreeId, start, intent, started, intended, fun tips recorded pinned => ?_⟩
  obtain ⟨shown, counted⟩ := readRows_of_yields recorded walked
  obtain ⟨refs, ascii⟩ := refs_of_yields observed
  exact shows_finishPage refs ascii (head_of_yields located) shown counted pinned finished

theorem start_of_cursor {cursor : String} (asked : query.cursor = some cursor)
    (continues : Continues store cursor snapshot skip limit)
    (started : (startPage target store query worktreeId moment).Yields
      (Possible repository state) start) : start = { limit, snapshot, skip, store } := by
  unfold startPage at started
  rw [asked] at started
  simp only [yields_bind, yields_keeping, yields_orLeave] at started
  obtain ⟨⟨size, pinned, offset⟩, resolved, same⟩ := started
  obtain ⟨rfl, rfl, rfl⟩ := Prod.mk.injEq .. ▸ continues.resolves resolved
  exact same.symm

structure Recorded (state : RefState) (query : HistoryQuery) (snapshot : Snapshots.SnapshotRecord) :
    Prop where
  ascii : ∀ ref ∈ state.refs, GitRef.Ascii ref.name
  tips : snapshot.tips = state.tips
  fingerprint : ∃ head : HeadState, head.oid = state.head.map ObjectName.text ∧
    snapshot.observedRefsFingerprint = some (observedRefsFingerprint head state.records)
  intent : ∀ intent, snapshot.historyIntent = some intent →
    intent.firstParentOnly = (query.firstParentOnly == some true)

theorem start_of_query (asked : query.cursor = none)
    (started : (startPage target store query worktreeId moment).Yields
      (Possible repository state) start) :
    start.skip = 0 ∧ start.store.state.Pinned start.snapshot ∧
      Recorded state query start.snapshot := by
  unfold startPage at started
  rw [asked] at started
  simp only [yields_bind, yields_keeping, yields_orLeave] at started
  obtain ⟨-, -, facts, observed, head, located, same⟩ := started
  obtain ⟨refs, ascii⟩ := refs_of_yields observed
  have oid := head_of_yields located
  obtain rfl := same
  refine ⟨rfl, pinned_mint _ _ _ _ _, ascii, ?_, ⟨head, oid, ?_⟩, ?_⟩
  · change collectTips head facts.refs = collectTips state.headState state.records
    rw [refs, collectTips, collectTips, oid]
    rfl
  · change some (observedRefsFingerprint head facts.refs) = _
    rw [refs]
  · rintro intent ⟨rfl⟩
    rfl

/-! Object names stay object names on the way to the tips. -/

theorem gatherTips_texts (gathered candidates : List ObjectName) :
    ∃ tips : List ObjectName, gatherTips (gathered.map ObjectName.text)
      (candidates.map ObjectName.text) = tips.map ObjectName.text := by
  induction candidates generalizing gathered with
  | nil => exact ⟨gathered, rfl⟩
  | cons oid rest ih =>
    rw [List.map_cons, gatherTips]
    split
    · exact ih gathered
    · split
      · exact ⟨gathered, rfl⟩
      · rw [← List.map_singleton, ← List.map_append]
        exact ih _

theorem tips_texts (state : RefState) :
    ∃ tips : List ObjectName, state.tips = tips.map ObjectName.text := by
  have targets : ∀ refs : List RefRecord, (∀ ref ∈ refs, ref ∈ state.records) →
      ∃ oids : List ObjectName, refs.map RefRecord.targetOid = oids.map ObjectName.text := by
    intro refs listed
    induction refs with
    | nil => exact ⟨[], rfl⟩
    | cons ref rest ih =>
      obtain ⟨oids, later⟩ := ih fun other member => listed other (List.mem_cons_of_mem _ member)
      obtain ⟨given, -, rfl⟩ := List.mem_map.mp (listed ref List.mem_cons_self)
      refine ⟨given.peeled.getD given.oid :: oids, ?_⟩
      rw [List.map_cons, List.map_cons, later]
      congr 1
      change (given.peeled.map ObjectName.text).getD given.oid.text = _
      cases given.peeled <;> rfl
  unfold RefState.tips collectTips
  obtain ⟨oids, candidates⟩ := targets ((state.records.filter RefRecord.isTip).mergeSort
    fun first second => first.refName ≤ second.refName) fun ref member =>
      (List.mem_filter.mp ((List.mergeSort_perm _ _).mem_iff.mp member)).1
  obtain ⟨gathered, found⟩ := gatherTips_texts [] oids
  rw [List.map_nil] at found
  dsimp only
  rw [candidates, found]
  cases given : state.head with
  | none => exact ⟨gathered, by rw [RefState.headState, given]; rfl⟩
  | some oid =>
    have named : state.headState.oid = some oid.text := by
      rw [RefState.headState, given]
      rfl
    rw [named]
    dsimp only
    split
    · exact ⟨gathered, rfl⟩
    · exact ⟨(oid :: gathered).take historyTipsMax, by rw [List.map_take, List.map_cons]⟩

/-! Page behind page. -/

/-- The pages from an offset on show the walk from there on, and each says whether the tips
have moved since the first. -/
theorem exact_of_followed {first : RefState} (recorded : Recorded first query snapshot)
    (intended : snapshot.historyIntent = some intent)
    (pinned : snapshot.tips = tips.map ObjectName.text) {pages : List (PageRequest × HistoryPage)}
    {next : Option String}
    (last : next = none → (repository.walk tips intent.firstParentOnly).drop skip = [])
    (continues : ∀ cursor, next = some cursor → Continues store cursor snapshot skip limit)
    (followed : Followed repository target store next pages) :
    pages.flatMap (fun page => page.2.commits.map CommitSummary.oid) =
        ((repository.walk tips intent.firstParentOnly).drop skip).map
          (ObjectName.text ∘ GitRow.oid) ∧
      ∀ page ∈ pages, page.2.tipsMoved = true ↔ ¬page.1.state.SameTips first := by
  induction pages generalizing store next skip with
  | nil =>
    cases next with
    | none => exact ⟨by rw [last rfl]; rfl, List.forall_mem_nil _⟩
    | some cursor => exact followed.elim
  | cons page rest ih =>
    obtain ⟨request, page⟩ := page
    cases next with
    | none => exact followed.elim
    | some cursor =>
      obtain ⟨asked, after, answered, followed⟩ := followed
      obtain ⟨worktreeId, start, found, started, named, shows⟩ := shows_of_yields answered
      have placed := start_of_cursor asked ((continues cursor rfl).behind request.calls) started
      subst placed
      obtain rfl := Option.some.inj (intended.symm.trans named)
      obtain ⟨commits, moved, ended, onward⟩ :=
        shows tips pinned ((continues cursor rfl).behind request.calls).1
      obtain ⟨head, oid, fingerprint⟩ := recorded.fingerprint
      have finished : page.nextCursor = none →
          (repository.walk tips intent.firstParentOnly).drop (skip + limit) = [] := by
        intro none
        rw [← List.drop_drop]
        exact List.drop_eq_nil_of_le (ended none)
      obtain ⟨behind, told⟩ := ih finished onward followed
      constructor
      · rw [List.flatMap_cons, behind, commits, ← List.map_append, ← List.drop_drop,
          List.take_append_drop]
      · rw [List.forall_mem_cons]
        exact ⟨moved first recorded.ascii head oid fingerprint, told⟩

/-- Following the cursors from the first page until none is returned shows the walk from the
tips that the first page recorded: every commit once, in the order of the walk, whatever the
refs and the other reads do meanwhile. A page says that the tips have moved exactly when a
ref, by its name and its objects, or the commit of HEAD is another than at the first page. -/
theorem cursor_paging_exact {ttlMs maxEntries : Nat} {request : PageRequest} {page : HistoryPage}
    {rest : List (PageRequest × HistoryPage)}
    (paged : Paged repository target ttlMs maxEntries ((request, page) :: rest)) :
    ∃ tips : List ObjectName, request.state.tips = tips.map ObjectName.text ∧
      ((request, page) :: rest).flatMap (fun page => page.2.commits.map CommitSummary.oid) =
        (repository.walk tips (request.query.firstParentOnly == some true)).map
          (ObjectName.text ∘ GitRow.oid) ∧
      (((request, page) :: rest).flatMap fun page => page.2.commits.map CommitSummary.oid).Nodup ∧
      ∀ later ∈ (request, page) :: rest,
        later.2.tipsMoved = true ↔ ¬later.1.state.SameTips request.state := by
  obtain ⟨asked, after, answered, followed⟩ := paged
  obtain ⟨worktreeId, start, intent, started, named, shows⟩ := shows_of_yields answered
  obtain ⟨start0, pinned, recorded⟩ := start_of_query asked started
  obtain ⟨tips, texts⟩ := tips_texts request.state
  obtain ⟨commits, moved, ended, onward⟩ := shows tips (recorded.tips.trans texts) pinned
  obtain ⟨head, oid, fingerprint⟩ := recorded.fingerprint
  rw [start0, List.drop_zero] at commits ended
  rw [start0, Nat.zero_add] at onward
  obtain ⟨behind, told⟩ := exact_of_followed recorded named (recorded.tips.trans texts)
    (fun none => List.drop_eq_nil_of_le (ended none)) onward followed
  have whole : ((request, page) :: rest).flatMap (fun page => page.2.commits.map
      CommitSummary.oid) = (repository.walk tips (request.query.firstParentOnly == some true)).map
        (ObjectName.text ∘ GitRow.oid) := by
    rw [List.flatMap_cons, behind, commits, ← List.map_append, List.take_append_drop,
      recorded.intent intent named]
  refine ⟨tips, texts, whole, ?_, ?_⟩
  · rw [whole, ← List.map_map]
    exact (repository.once _ _).map fun _ _ => text_injective
  · rw [List.forall_mem_cons]
    exact ⟨moved request.state recorded.ascii head oid fingerprint, told⟩

end

/-! A paging that the theorem covers. -/

section
variable {repository : WalkedRepository} {state : RefState} {target : ReadTarget}

theorem possible_of_other {plan : GitPlan} {answer : GitAnswer} (refs : plan ≠ planForEachRef)
    (branch : plan ≠ planHeadRef) (head : plan ≠ planHeadOid)
    (walk : plan.argv.head? ≠ some "rev-list") :
    Possible repository state (target.command plan) answer where
  refs := fun same => absurd same refs
  branch := fun same => absurd same branch
  head := fun same => absurd same head
  walk := fun _ _ _ _ planned => absurd (revList_of_planned planned) walk

theorem possible_refs : Possible repository state (target.command planForEachRef)
    (finishedWith 0 (GitRef.render state.refs)) where
  refs := fun _ _ printed => (Except.ok.inj printed).symm
  branch := fun same => absurd same (by decide : planForEachRef ≠ planHeadRef)
  head := fun same => absurd same (by decide : planForEachRef ≠ planHeadOid)
  walk := fun _ _ _ _ planned => absurd (revList_of_planned planned)
    (by decide : planForEachRef.argv.head? ≠ some "rev-list")

def lineOrOne (line : Option Bytes) : GitAnswer :=
  match line with
  | some line => finishedWith 0 (line ++ [0x0a])
  | none => finishedWith 1 []

theorem meaningfulAnswer_lineOrOne (line : Option Bytes) (command : String) :
    meaningfulAnswer (lineOrOne line) command [1] = .ok (line.map (· ++ [0x0a])) := by
  cases line <;> rfl

theorem possible_branch : Possible repository state (target.command planHeadRef)
    (lineOrOne (state.branch.map Subtype.val)) where
  refs := fun same => absurd same (by decide : planHeadRef ≠ planForEachRef)
  branch := fun _ _ printed => by
    rw [meaningfulAnswer_lineOrOne, Option.map_map] at printed
    exact (Except.ok.inj printed).symm
  head := fun same => absurd same (by decide : planHeadRef ≠ planHeadOid)
  walk := fun _ _ _ _ planned => absurd (revList_of_planned planned)
    (by decide : planHeadRef.argv.head? ≠ some "rev-list")

theorem possible_head : Possible repository state (target.command planHeadOid)
    (lineOrOne (state.head.map Subtype.val)) where
  refs := fun same => absurd same (by decide : planHeadOid ≠ planForEachRef)
  branch := fun same => absurd same (by decide : planHeadOid ≠ planHeadRef)
  head := fun _ _ printed => by
    rw [meaningfulAnswer_lineOrOne, Option.map_map] at printed
    exact (Except.ok.inj printed).symm
  walk := fun _ _ _ _ planned => absurd (revList_of_planned planned)
    (by decide : planHeadOid.argv.head? ≠ some "rev-list")

end

theorem isObjectName_older : isObjectName (List.replicate 40 0x62) = true := by decide

def olderOid : ObjectName := ⟨List.replicate 40 0x62, isObjectName_older⟩

def twoCommits : List GitRow :=
  [{ oid := sampleOid, parents := [olderOid], boundary := false },
    { oid := olderOid, parents := [], boundary := false }]

def twoCommitRepository : WalkedRepository where
  walk
    | [], _ => []
    | _ :: _, _ => twoCommits
  fromNowhere := fun _ => rfl
  once := by
    intro tips firstParentOnly
    cases tips with
    | nil => exact List.nodup_nil
    | cons tip rest =>
      change (twoCommits.map GitRow.oid).Nodup
      decide

theorem possible_walk {firstParentOnly : Bool} {plan : GitPlan}
    (planned : planRevList { tips, maxCount, skip, firstParentOnly } = .ok plan) :
    Possible twoCommitRepository state (target.command plan)
      (finishedWith 0 (GitRow.render ((twoCommits.drop skip).take maxCount))) where
  refs := fun same => by
    have first := revList_of_planned planned
    rw [show plan = planForEachRef from same] at first
    exact absurd first (by decide)
  branch := fun same => by
    have first := revList_of_planned planned
    rw [show plan = planHeadRef from same] at first
    exact absurd first (by decide)
  head := fun same => by
    have first := revList_of_planned planned
    rw [show plan = planHeadOid from same] at first
    exact absurd first (by decide)
  walk := by
    intro others count offset alsoFirst alsoPlanned bytes printed
    obtain ⟨some_tip, argv⟩ := planRevList_eq_ok alsoPlanned
    obtain ⟨rfl, rfl⟩ := argv_inj ((planRevList_eq_ok planned).2.symm.trans argv)
    obtain rfl := Except.ok.inj printed
    cases others with
    | nil => exact absurd rfl some_tip
    | cons tip rest => rfl

def mainRef : RefBytes := ⟨asciiBytes "refs/heads/main", by decide⟩

def onMain : RefState where
  refs := [plainRef mainRef none true]
  branch := some mainRef
  head := some sampleOid

def offMain : RefState where
  refs := [plainRef mainRef none false]
  branch := none
  head := some sampleOid

def commitBody (parents : Bytes) : Bytes :=
  asciiBytes "tree " ++ sampleOid.1 ++ [0x0a] ++ parents ++ asciiBytes "author A <a> 0 +0000\n" ++
    asciiBytes "committer A <a> 0 +0000\n\nwork\n"

def newerEntry : CatFileEntry :=
  .object sampleOid.text .commit (commitBody (asciiBytes "parent " ++ olderOid.1 ++ [0x0a]))

def olderEntry : CatFileEntry := .object olderOid.text .commit (commitBody [])

section
variable {repository : WalkedRepository} {state : RefState} {target : ReadTarget}

theorem yields_readRefFacts (ascii : ∀ ref ∈ state.refs, ∀ name ∈ ref.names, GitRef.Ascii name)
    (few : state.refs.length ≤ refListMaxEntries) :
    (readRefFacts target).Yields (Possible repository state)
      { refs := state.records, remotes := [] } := by
  unfold readRefFacts
  simp only [yields_bind, yields_runRequired, yields_orLeave, mapError_eq_ok]
  exact ⟨_, ⟨_, possible_refs, rfl⟩, _, GitRef.parseForEachRef_render.mpr ⟨ascii, few, rfl⟩, [],
    ⟨finishedWith 0 [], possible_of_other (by decide) (by decide) (by decide) (by decide), rfl⟩,
    [], rfl, rfl⟩

theorem yields_readHeadState {head : HeadState}
    (found : headOf (state.branch.map fun name => name.1 ++ [0x0a])
      (state.head.map fun oid => oid.1 ++ [0x0a]) = .ok head) :
    (readHeadState target).Yields (Possible repository state) head := by
  unfold readHeadState
  simp only [yields_bind, yields_runMeaningfulExit, yields_orLeave]
  refine ⟨_, ⟨_, possible_branch, meaningfulAnswer_lineOrOne _ _⟩, _,
    ⟨_, possible_head, meaningfulAnswer_lineOrOne _ _⟩, ?_⟩
  rw [Option.map_map, Option.map_map]
  exact found

theorem yields_runCatFile {names : List String} {entries : List CatFileEntry}
    (some_name : names ≠ []) (framed : ∀ entry ∈ entries, entry.Framed) :
    (runCatFile target names).Yields (Possible repository state) entries := by
  unfold runCatFile
  simp only [yields_bind, yields_runRequired, yields_orLeave, mapError_eq_ok]
  refine ⟨{ GitPlan.read ["cat-file", "--batch"] with stdin := namesStdin names }, ?_,
    entries.flatMap CatFileEntry.render, ⟨finishedWith 0 _, ?_, rfl⟩, ?_⟩
  · rw [planCatFileBatch, if_neg (by simpa using some_name)]
  · have argv (plan : GitPlan) (other : plan.argv ≠ ["cat-file", "--batch"]) :
        { GitPlan.read ["cat-file", "--batch"] with stdin := namesStdin names } ≠ plan :=
      fun same => other (congrArg GitPlan.argv same).symm
    exact possible_of_other (argv _ (by decide)) (argv _ (by decide)) (argv _ (by decide))
      (by simp [GitPlan.read])
  · exact decodeChunks_entries framed (List.append_nil _)

end

def summaries (rows : List TopologyEntry) (entries : List CatFileEntry)
    (decoration : String → List String) : Except Problem (List CommitSummary) := do
  let found ← entries.foldlM collectBody {}
  if outsideOf found.bodies rows = [] then rows.mapM (summaryOf found.bodies [] decoration)
  else .error (.new .internalError "a parent stands outside the page")

theorem yields_readPage {tip : String} {decoration : String → List String} (rows : List GitRow)
    (entries : List CatFileEntry) (listed : (twoCommits.drop skip).take maxCount = rows)
    (some_row : rows ≠ []) (framed : ∀ entry ∈ entries, entry.Framed)
    (summed : (summaries (rows.map GitRow.entry) entries decoration).isOk = true) :
    ∃ commits missing, commits.length = rows.length ∧
      (readPage target (tip :: tips) maxCount skip false decoration).Yields
        (Possible twoCommitRepository state) { commits, missing, rowCount := rows.length } := by
  obtain ⟨commits, read⟩ := isOk_iff.mp summed
  obtain ⟨found, collected, shown⟩ := bind_eq_ok.mp read
  split at shown
  · rename_i closed
    have length := congrArg List.length (oids_of_mapM shown)
    rw [List.length_map, List.length_map, List.length_map] at length
    refine ⟨commits, found.missing, length, ?_⟩
    unfold readPage
    simp only [yields_bind, yields_runRequired, yields_orLeave, mapError_eq_ok]
    let options : RevListOptions := { tips := tip :: tips, maxCount, skip }
    have planned : planRevList options =
        .ok { GitPlan.read options.argv with stdin := namesStdin (tip :: tips) } := rfl
    refine ⟨_, planned, _, ⟨_, possible_walk planned, rfl⟩, rows.map GitRow.entry, ?_, ?_⟩
    · rw [listed]
      exact GitRow.parseRevListTopology_render rows
    · rw [if_neg (by simpa using some_row)]
      simp only [yields_bind, yields_orLeave]
      refine ⟨entries, yields_runCatFile (by simpa using some_row) framed, found, collected, [],
        ?_, commits, shown, ?_⟩
      · rw [closed]
        rfl
      · rw [List.length_map]
        rfl
  · cases shown

def watched : ReadTarget where
  record :=
    { repositoryId := "repo_1", allowedRootId := "root_1", worktreeId := "wt_1"
      displayName := "src", displayPath := "/src", rootPath := "/", relativePath := "src"
      layout :=
        { gitDir := "/src/.git", topLevel := some "/src", commonDir := "/src/.git"
          isBare := false, objectFormat := "sha1", isShallow := false }
      location :=
        { targetId := "local", targetGeneration := "g1", canonicalWorktree := "/src"
          canonicalCommonDir := "/src/.git" } }
  executor := .onThisMachine

def pageQuery (cursor : Option String) : HistoryQuery where
  repositoryId := "repo_1"
  cursor := cursor
  limit := some 1

def pageMoment : ReadMoment where
  targetGeneration := "g1"
  nowMs := 5
  readAt := "now"

def pageStore : SnapshotStore := { ttlMs := 60000, maxEntries := 8 }

def firstStart : PageStart :=
  let (snapshot, store) := pageStore.mint 5
    (historySnapshot watched (pageQuery none) "wt_1" pageMoment
      { refs := onMain.records, remotes := [] } onMain.headState)
  { limit := 1, snapshot, skip := 0, store }

theorem yields_readHistory {repository : WalkedRepository} {moment : ReadMoment} {start : PageStart}
    {intent : HistoryIntent} {facts : RefFacts} {head : HeadState} {rows : PageRows}
    (nowhere : query.worktreeId = none) (plain : query.detailOid = none)
    (started : (startPage target store query target.record.worktreeId moment).Yields
      (Possible repository state) start) (intended : start.snapshot.historyIntent = some intent)
    (observed : (readRefFacts target).Yields (Possible repository state) facts)
    (located : (readHeadState target).Yields (Possible repository state) head)
    (walked : (readRows target start intent (decorationMap facts.refs)).Yields
      (Possible repository state) rows) :
    (readHistory target store query moment).Yields (Possible repository state)
      (finishPage target start intent moment (start.snapshot.observedRefsFingerprint !=
        some (observedRefsFingerprint head facts.refs)) none rows) := by
  unfold readHistory
  simp only [yields_bind, yields_keeping, yields_orLeave, intentOf_eq_ok]
  refine ⟨target.record.worktreeId, ?_, start, started, intent, intended, facts, observed, head,
    located, none, ?_, rows, walked, rfl⟩
  · rw [nowhere]
    rfl
  · rw [readDetail, plain]
    rfl

theorem paged_detaching : ∃ first later : HistoryPage, Paged twoCommitRepository watched 60000 8
      [({ calls := [], state := onMain, query := pageQuery none, moment := pageMoment }, first),
        ({ calls := [], state := offMain, query := pageQuery (some "cur_1"),
           moment := pageMoment }, later)] ∧ later.tipsMoved = false := by
  have facts (state : RefState) (refs : state.refs.length = 1)
      (names : ∀ ref ∈ state.refs, ref.names = [mainRef]) :
      (readRefFacts watched).Yields (Possible twoCommitRepository state)
        { refs := state.records, remotes := [] } := by
    refine yields_readRefFacts (fun ref member name given => ?_) (by rw [refs]; decide)
    rw [names ref member, List.mem_singleton] at given
    rw [given]
    exact asciiBytes_le (by decide)
  have firstFacts := facts onMain rfl (by simp [onMain, plainRef, GitRef.names])
  have laterFacts := facts offMain rfl (by simp [offMain, plainRef, GitRef.names])
  have firstHead : (readHeadState watched).Yields (Possible twoCommitRepository onMain)
      onMain.headState := yields_readHeadState (by decide +kernel)
  have laterHead : (readHeadState watched).Yields (Possible twoCommitRepository offMain)
      offMain.headState := yields_readHeadState (by decide +kernel)
  have pinned : firstStart.snapshot.tips = [sampleOid.text] := by decide +kernel
  obtain ⟨commits, missing, two, firstRows⟩ : ∃ commits missing, commits.length = 2 ∧
      (readPage watched [sampleOid.text] 2 0 false (decorationMap onMain.records)).Yields
        (Possible twoCommitRepository onMain) { commits, missing, rowCount := 2 } := by
    refine yields_readPage twoCommits [newerEntry, olderEntry] rfl (List.cons_ne_nil _ _) ?_ ?_
    · decide +kernel
    · decide +kernel
  obtain ⟨laterCommits, laterMissing, -, laterRows⟩ : ∃ commits missing, commits.length = 1 ∧
      (readPage watched [sampleOid.text] 2 1 false (decorationMap offMain.records)).Yields
        (Possible twoCommitRepository offMain) { commits, missing, rowCount := 1 } := by
    refine yields_readPage (twoCommits.drop 1) [olderEntry] rfl (List.cons_ne_nil _ _) ?_ ?_
    · decide +kernel
    · decide +kernel
  let intent : HistoryIntent := { firstParentOnly := false, topology := .continuous }
  let laterStore := (firstStart.store.mintCursor firstStart.snapshot 1 1).2
  let laterStart : PageStart :=
    { limit := 1, snapshot := firstStart.snapshot, skip := 1, store := laterStore }
  have unmoved (state : RefState) (same : observedRefsFingerprint state.headState state.records =
      observedRefsFingerprint onMain.headState onMain.records) :
      (firstStart.snapshot.observedRefsFingerprint !=
        some (observedRefsFingerprint state.headState state.records)) = false := by
    rw [same]
    exact bne_self_eq_false _
  have firstStarted : (startPage watched pageStore (pageQuery none) "wt_1" pageMoment).Yields
      (Possible twoCommitRepository onMain) firstStart := by
    unfold startPage
    simp only [pageQuery, yields_bind, yields_keeping, yields_orLeave]
    exact ⟨(), rfl, _, firstFacts, _, firstHead, rfl⟩
  have laterStarted : (startPage watched laterStore (pageQuery (some "cur_1")) "wt_1"
      pageMoment).Yields (Possible twoCommitRepository offMain) laterStart := by
    unfold startPage
    simp only [pageQuery, yields_bind, yields_keeping, yields_orLeave]
    have resolved : resolveContinuation laterStore.state (pageQuery (some "cur_1")) "repo_1" "wt_1"
        "cur_1" "g1" = .ok (1, firstStart.snapshot, 1) := by
      decide +kernel
    exact ⟨_, resolved, rfl⟩
  have first := yields_readHistory rfl rfl firstStarted rfl firstFacts firstHead
    (by rw [readRows, pinned]; exact firstRows)
  have later := yields_readHistory rfl rfl laterStarted rfl laterFacts laterHead
    (by rw [readRows, show laterStart.snapshot.tips = _ from pinned]; exact laterRows)
  rw [unmoved offMain rfl] at later
  obtain ⟨newer, older, rfl⟩ := List.length_eq_two.mp two
  exact ⟨_, _, ⟨rfl, laterStore, first, rfl, _, later, trivial⟩, rfl⟩

theorem cursor_paging_exact_detaching : ∃ first later : HistoryPage, ∃ tips : List ObjectName,
    onMain.tips = tips.map ObjectName.text ∧
      first.commits.map CommitSummary.oid ++ later.commits.map CommitSummary.oid =
        (twoCommitRepository.walk tips false).map (ObjectName.text ∘ GitRow.oid) := by
  obtain ⟨first, later, paged, -⟩ := paged_detaching
  obtain ⟨tips, texts, whole, -⟩ := cursor_paging_exact paged
  refine ⟨first, later, tips, texts, ?_⟩
  rw [List.flatMap_cons, List.flatMap_cons, List.flatMap_nil, List.append_nil] at whole
  exact whole

/-- HEAD leaves its branch between the pages, and no page says so. -/
theorem detached_head_not_told : ∃ first later : PageRequest × HistoryPage,
    Paged twoCommitRepository watched 60000 8 [first, later] ∧
      later.1.state.headState ≠ first.1.state.headState ∧ later.2.tipsMoved = false := by
  obtain ⟨first, later, paged, told⟩ := paged_detaching
  refine ⟨_, _, paged, ?_, told⟩
  change offMain.headState ≠ onMain.headState
  decide +kernel

end Refyard
