import Refyard.Foundation.Json
import Refyard.ServiceFacts
import Refyard.Writes.Facts

/-! What the TypeScript host finds out before it accepts a request, and what an accepted one
is bound to. Its decision over the facts is that of the Rust host, text for text. -/
namespace Refyard.HostNode

open Snapshots

/-- A validated request. Of the operation the coordinator reads the kind only. -/
structure ParsedMutationRequest where
  clientRequestId : String
  target : MutationTarget
  kind : MutationKind
  operation : Json

def workspaceWriteKeyPrefix : String := "root:"

def writeKeyOfTarget : MutationTarget → Option String
  | .workspace allowedRootId _ =>
      if allowedRootId.isEmpty then none else some (workspaceWriteKeyPrefix ++ allowedRootId)
  | .repository repositoryId _ | .worktree repositoryId _ _ => some repositoryId

/-- A fact, a refusal the source has a code for, or an exception that it passes on. -/
abbrev Gathered (α : Type) := Except (Option GatheredRefusal) α

structure RepositoryRecord where
  bare : Bool
  displayPath : String

structure HostWorktree where
  worktreeId : String
  handle : Option String
  displayPath : String

structure StatusFacts where
  headOid : Option String
  records : List StatusRecord
  operationInProgress : Option String

/-- `statusIndexKey`: the same rows as the Rust host's, in the same order. -/
def currentIndexKey (facts : StatusFacts) : String :=
  indexFingerprint facts.headOid (facts.records.map fingerprintEntry)

structure Lookups where
  require : String → Gathered RepositoryRecord
  worktree : String → Option String → Gathered HostWorktree
  /-- The Head as one command reports it, and the status as another does. -/
  facts : HostWorktree → Gathered (Option String × StatusFacts)
  snapshots : String → Option Snapshots.SnapshotRecord

def refused (refusal : GatheredRefusal) : PreconditionContext where
  refusal := some refusal

def refusedHandle (refusal : GatheredRefusal) : PreconditionContext :=
  refused { refusal with retryable := false }

def bareRefusalOf (displayPath : String) : GatheredRefusal where
  code := .unsupportedOperation
  message :=
    s!"{displayPath} is a bare repository: it has no working tree, so this build refuses to write to it. Its refs and history can still be read."
  retryable := false

/-- A snapshot whose read did not observe the index has no key, and is not compared. -/
def indexUnchanged (snapshot : Option Snapshots.SnapshotRecord) (current : String) : Bool :=
  match snapshot with
  | none => false
  | some snapshot => snapshot.indexKey.all fun key => key = current

def outsideRoots (displayPath : String) : RestartWriteBlock where
  reason := s!"{displayPath} is outside every approved root"
  operationIds := []

def freshContext (lookups : Lookups) (kind : MutationKind) (block : Option RestartWriteBlock)
    (expectedSnapshotId : String) (headOid : Option String) (status : StatusFacts) :
    PreconditionContext :=
  let snapshot := lookups.snapshots expectedSnapshotId
  { snapshotHeadOid := snapshot.bind Snapshots.SnapshotRecord.headOid
    currentHeadOid := headOid
    indexUnchanged := indexUnchanged snapshot (currentIndexKey status)
    operationInProgress := status.operationInProgress
    mayRunDuring := mayRunDuringOperation kind
    restartBlock := block }

def repositoryContext (lookups : Lookups) (kind : MutationKind) (block : Option RestartWriteBlock)
    (repositoryId : String) (worktreeId : Option String) (expectedSnapshotId : String) :
    Option PreconditionContext :=
  match lookups.require repositoryId with
  | .error refusal => refusal.map refusedHandle
  | .ok record =>
      if record.bare then some (refused (bareRefusalOf record.displayPath))
      else
        match lookups.worktree repositoryId worktreeId with
        | .error refusal => refusal.map refusedHandle
        | .ok worktree =>
            if worktree.handle = none then
              some { restartBlock := some (block.getD (outsideRoots worktree.displayPath)) }
            else
              match lookups.facts worktree with
              | .error refusal => refusal.map refused
              | .ok (headOid, status) =>
                  some (freshContext lookups kind block expectedSnapshotId headOid status)

/-- A request that names a repository, the worktree it is about if there is one, and the
snapshot it was planned against. -/
structure NamedTarget where
  repositoryId : String
  worktreeId : Option String
  expectedSnapshotId : String

def NamedTarget.target (named : NamedTarget) : MutationTarget :=
  match named.worktreeId with
  | none => .repository named.repositoryId named.expectedSnapshotId
  | some worktreeId => .worktree named.repositoryId worktreeId named.expectedSnapshotId

/-- The block is the one held for the target's write key when the call begins. -/
def preconditionsFor (lookups : Lookups) (block : Option RestartWriteBlock)
    (request : ParsedMutationRequest) : Option PreconditionContext :=
  match request.target with
  | .workspace .. => some { indexUnchanged := true, restartBlock := block }
  | .repository repositoryId expectedSnapshotId =>
      repositoryContext lookups request.kind block repositoryId none expectedSnapshotId
  | .worktree repositoryId worktreeId expectedSnapshotId =>
      repositoryContext lookups request.kind block repositoryId (some worktreeId)
        expectedSnapshotId

def Accepts (context : Option PreconditionContext) : Prop :=
  ∃ gathered, context = some gathered ∧ checkPreconditions gathered = .ok ()

/-- What an accepted request is to be bound to: the state as it is now, and a snapshot that was
minted for its repository and its worktree and saw this Head and this index. -/
structure Bound (lookups : Lookups) (kind : MutationKind) (named : NamedTarget)
    (worktree : HostWorktree) (headOid : Option String) (status : StatusFacts)
    (snapshot : Snapshots.SnapshotRecord) : Prop where
  found : lookups.worktree named.repositoryId named.worktreeId = .ok worktree
  facts : lookups.facts worktree = .ok (headOid, status)
  minted : lookups.snapshots named.expectedSnapshotId = some snapshot
  repository : snapshot.repositoryId = named.repositoryId
  worktree : snapshot.worktreeId = some worktree.worktreeId
  head : snapshot.headOid = headOid
  index : snapshot.indexKey = some (currentIndexKey status)
  inProgress : ∀ inProgress ∈ status.operationInProgress, inProgress ∈ mayRunDuringOperation kind

/-- What the host does find out: that a worktree it may write to is there and not blocked, and that
the snapshot names the current Head and, where its read observed the index, the current key. -/
structure Ready (lookups : Lookups) (block : Option RestartWriteBlock) (kind : MutationKind)
    (named : NamedTarget) (worktree : HostWorktree) (headOid : Option String) (status : StatusFacts)
    (snapshot : Snapshots.SnapshotRecord) : Prop where
  unblocked : block = none
  record : ∃ record, lookups.require named.repositoryId = .ok record ∧ record.bare = false
  found : lookups.worktree named.repositoryId named.worktreeId = .ok worktree
  handle : worktree.handle ≠ none
  facts : lookups.facts worktree = .ok (headOid, status)
  minted : lookups.snapshots named.expectedSnapshotId = some snapshot
  head : snapshot.headOid = headOid
  index : ∀ key ∈ snapshot.indexKey, key = currentIndexKey status
  inProgress : ∀ inProgress ∈ status.operationInProgress, inProgress ∈ mayRunDuringOperation kind

structure SameState (lookups : Lookups) (service : ServiceFacts.Service) (named : NamedTarget)
    (worktree : HostWorktree) (status : StatusFacts) : Prop where
  record : ∃ record, lookups.require named.repositoryId = .ok record ∧ record.bare = false
  found : lookups.worktree named.repositoryId named.worktreeId = .ok worktree
  requested : ∀ worktreeId ∈ named.worktreeId, worktreeId = worktree.worktreeId
  handle : worktree.handle ≠ none
  facts : lookups.facts worktree = .ok (status.headOid, status)
  held : service.requireRecord named.repositoryId = .ok ⟨named.repositoryId, worktree.worktreeId⟩
  target : service.targetFor ⟨named.repositoryId, worktree.worktreeId⟩ = .ok ()
  executor : service.executor ⟨named.repositoryId, worktree.worktreeId⟩ = .ok ()
  read : ∃ read, service.readStatus ⟨named.repositoryId, worktree.worktreeId⟩ = .ok read ∧
    read.headOid = status.headOid ∧ read.operationInProgress = status.operationInProgress ∧
    (read.snapshots.get read.freshSnapshotId).bind Snapshots.SnapshotRecord.indexKey =
      some (currentIndexKey status) ∧
    ∀ snapshotId, read.snapshots.get snapshotId = lookups.snapshots snapshotId

variable {lookups : Lookups} {kind : MutationKind} {block : Option RestartWriteBlock}
  {request : ParsedMutationRequest} {named : NamedTarget}

theorem preconditionsFor_named (named : NamedTarget) (names : request.target = named.target) :
    preconditionsFor lookups block request =
      repositoryContext lookups request.kind block named.repositoryId named.worktreeId
        named.expectedSnapshotId := by
  unfold preconditionsFor
  rw [names]
  unfold NamedTarget.target
  cases named.worktreeId <;> rfl

theorem not_accepts_map (refusal : Option GatheredRefusal)
    {refuse : GatheredRefusal → PreconditionContext}
    (objects : ∀ refusal, (refuse refusal).refusal ≠ none ∧ (refuse refusal).previewChecks = []) :
    ¬Accepts (refusal.map refuse) := by
  rintro ⟨gathered, same, accepted⟩
  obtain ⟨refusal, -, rfl⟩ := Option.map_eq_some_iff.mp same
  exact (objects refusal).1 ((checkPreconditions_ok (objects refusal).2).mp accepted).refusal

theorem accepts_some {context : PreconditionContext} :
    Accepts (some context) ↔ checkPreconditions context = .ok () := by
  unfold Accepts
  simp only [Option.some_inj, exists_eq_left']

theorem not_accepts_refused (refusal : GatheredRefusal) : ¬Accepts (some (refused refusal)) :=
  not_accepts_map (some refusal) fun _ => ⟨by simp [refused], rfl⟩

theorem not_accepts_outside (block : RestartWriteBlock) :
    ¬Accepts (some { restartBlock := some block }) := by
  rw [accepts_some]
  intro accepted
  cases ((checkPreconditions_ok rfl).mp accepted).restartBlock

variable {status : StatusFacts}

theorem accepts_fresh {headOid : Option String} :
    Accepts (some (freshContext lookups kind block named.expectedSnapshotId headOid status)) ↔
      block = none ∧
        (∀ inProgress ∈ status.operationInProgress, inProgress ∈ mayRunDuringOperation kind) ∧
        ∃ snapshot, lookups.snapshots named.expectedSnapshotId = some snapshot ∧
          snapshot.headOid = headOid ∧ ∀ key ∈ snapshot.indexKey, key = currentIndexKey status := by
  have decides : Accepts (some (freshContext lookups kind block named.expectedSnapshotId headOid
      status)) ↔ Passed (freshContext lookups kind block named.expectedSnapshotId headOid status) := by
    rw [accepts_some, checkPreconditions_ok rfl]
  rw [decides]
  cases minted : lookups.snapshots named.expectedSnapshotId with
  | none =>
    refine iff_of_false ?_ (by simp)
    intro passed
    have index := passed.index
    simp [freshContext, minted, indexUnchanged] at index
  | some snapshot =>
    have compared : indexUnchanged (some snapshot) (currentIndexKey status) = true ↔
        ∀ key ∈ snapshot.indexKey, key = currentIndexKey status := by
      cases keyed : snapshot.indexKey <;> simp [indexUnchanged, keyed]
    constructor
    · intro passed
      have head := passed.head
      have index := passed.index
      simp only [freshContext, minted, Option.bind_some] at head index
      exact ⟨passed.restartBlock, passed.inProgress, snapshot, rfl, head, compared.mp index⟩
    · rintro ⟨unblocked, inProgress, other, same, head, index⟩
      cases same
      refine ⟨rfl, unblocked, inProgress, ?_, ?_⟩
      · simpa [freshContext, minted] using head
      · simpa [freshContext, minted] using compared.mpr index

theorem accepts_iff : Accepts (repositoryContext lookups kind block named.repositoryId
      named.worktreeId named.expectedSnapshotId) ↔ ∃ worktree headOid status snapshot,
        Ready lookups block kind named worktree headOid status snapshot := by
  constructor
  · intro accepted
    unfold repositoryContext at accepted
    split at accepted
    · exact absurd accepted (not_accepts_map _ fun _ => ⟨by simp [refusedHandle, refused], rfl⟩)
    · rename_i record required
      split at accepted
      · exact absurd accepted (not_accepts_refused _)
      · rename_i writable
        split at accepted
        · exact absurd accepted (not_accepts_map _ fun _ => ⟨by simp [refusedHandle, refused], rfl⟩)
        · rename_i worktree found
          split at accepted
          · exact absurd accepted (not_accepts_outside _)
          · rename_i handle
            split at accepted
            · exact absurd accepted (not_accepts_map _ fun _ => ⟨by simp [refused], rfl⟩)
            · rename_i headOid status facts
              obtain ⟨unblocked, inProgress, snapshot, minted, head, index⟩ :=
                accepts_fresh.mp accepted
              exact ⟨worktree, headOid, status, snapshot, unblocked,
                ⟨record, required, Bool.not_eq_true _ ▸ writable⟩, found, handle, facts, minted, head,
                index, inProgress⟩
  · rintro ⟨worktree, headOid, status, snapshot, ready⟩
    obtain ⟨record, required, writable⟩ := ready.record
    unfold repositoryContext
    simp only [required, writable, ready.found, ready.handle, ready.facts]
    exact accepts_fresh.mpr ⟨ready.unblocked, ready.inProgress, snapshot, ready.minted, ready.head,
      ready.index⟩

theorem facts_of_sameState {service : ServiceFacts.Service} {worktree : HostWorktree}
    (same : SameState lookups service named worktree status) :
    ServiceFacts.facts service kind named.target =
      { freshContext lookups kind none named.expectedSnapshotId status.headOid status with
        indexUnchanged := ServiceFacts.indexUnchanged named.repositoryId worktree.worktreeId
          (lookups.snapshots named.expectedSnapshotId) (some (currentIndexKey status)) } := by
  obtain ⟨read, answered, head, inProgress, fresh, snapshots⟩ := same.read
  have reads : ServiceFacts.facts service kind named.target =
      ServiceFacts.repositoryFacts service kind named.repositoryId named.worktreeId
        named.expectedSnapshotId := by
    unfold NamedTarget.target
    cases named.worktreeId <;> rfl
  have resolved : ServiceFacts.requireWorktree ⟨named.repositoryId, worktree.worktreeId⟩
      named.worktreeId = .ok worktree.worktreeId := by
    unfold ServiceFacts.requireWorktree
    cases requested : named.worktreeId with
    | none => rfl
    | some worktreeId => simp [same.requested worktreeId requested]
  rw [snapshots] at fresh
  rw [reads]
  unfold ServiceFacts.repositoryFacts
  simp only [same.held, same.target, same.executor, resolved, answered, bind, Except.bind, pure,
    Except.pure, snapshots, fresh, head, inProgress]
  rfl

theorem repositoryContext_of_sameState {service : ServiceFacts.Service} {worktree : HostWorktree}
    (same : SameState lookups service named worktree status) :
    repositoryContext lookups kind block named.repositoryId named.worktreeId
        named.expectedSnapshotId =
      some (freshContext lookups kind block named.expectedSnapshotId status.headOid status) := by
  obtain ⟨record, found, writable⟩ := same.record
  unfold repositoryContext
  rw [found]
  simp only [writable, same.found, same.handle, same.facts]
  rfl

/-- An accepted request is bound to its snapshot exactly where, if nothing else has it refused, the
snapshot is of the request's repository and of the worktree and has a key: the host asks for none of
the three. On the same facts the Rust host does, and accepts exactly those of these requests. -/
theorem preconditionsFor_binds_iff (lookups : Lookups) (block : Option RestartWriteBlock)
    (request : ParsedMutationRequest) (named : NamedTarget) (names : request.target = named.target) :
    ((Accepts (preconditionsFor lookups block request) → block = none ∧
        ∃ worktree headOid status snapshot,
          Bound lookups request.kind named worktree headOid status snapshot) ↔
      ∀ worktree headOid status snapshot,
        Ready lookups block request.kind named worktree headOid status snapshot →
          snapshot.repositoryId = named.repositoryId ∧
            snapshot.worktreeId = some worktree.worktreeId ∧ snapshot.indexKey ≠ none) ∧
    ∀ service worktree status, SameState lookups service named worktree status → (checkPreconditions
          { ServiceFacts.facts service request.kind request.target with restartBlock := block } =
            .ok () ↔ Accepts (preconditionsFor lookups block request) ∧
          ∃ snapshot, lookups.snapshots named.expectedSnapshotId = some snapshot ∧
            snapshot.repositoryId = named.repositoryId ∧
            snapshot.worktreeId = some worktree.worktreeId ∧ snapshot.indexKey ≠ none) := by
  rw [preconditionsFor_named named names, names]
  constructor
  · rw [accepts_iff]
    constructor
    · intro binds worktree headOid status snapshot ready
      obtain ⟨-, other, oid, facts, held, bound⟩ := binds ⟨worktree, headOid, status, snapshot, ready⟩
      cases ready.found.symm.trans bound.found
      cases ready.minted.symm.trans bound.minted
      exact ⟨bound.repository, bound.worktree, bound.index ▸ Option.some_ne_none _⟩
    · rintro fits ⟨worktree, headOid, status, snapshot, ready⟩
      obtain ⟨repository, tree, keyed⟩ := fits worktree headOid status snapshot ready
      obtain ⟨key, found⟩ := Option.ne_none_iff_exists'.mp keyed
      refine ⟨ready.unblocked, worktree, headOid, status, snapshot, ready.found, ready.facts,
        ready.minted, repository, tree, ready.head, ?_, ready.inProgress⟩
      rw [found, ready.index key found]
  · intro service worktree status same
    rw [facts_of_sameState same, repositoryContext_of_sameState same, accepts_fresh,
      checkPreconditions_ok rfl]
    constructor
    · intro passed
      have head := passed.head
      have index := passed.index
      dsimp only [freshContext] at head index
      cases minted : lookups.snapshots named.expectedSnapshotId with
      | none =>
        rw [minted] at index
        cases index
      | some snapshot =>
        rw [minted] at head index
        simp only [ServiceFacts.indexUnchanged, Bool.and_eq_true, decide_eq_true_eq] at index
        obtain ⟨⟨repository, tree⟩, key⟩ := index
        refine ⟨⟨passed.restartBlock, passed.inProgress, snapshot, rfl, head, ?_⟩, snapshot, rfl,
          repository, tree, by simp [key]⟩
        simp [key]
    · rintro ⟨⟨unblocked, inProgress, snapshot, minted, head, index⟩, other, also, repository, tree,
        keyed⟩
      cases minted.symm.trans also
      obtain ⟨key, found⟩ := Option.ne_none_iff_exists'.mp keyed
      refine ⟨rfl, unblocked, inProgress, ?_, ?_⟩
      · simpa [freshContext, minted] using head
      · simp [ServiceFacts.indexUnchanged, minted, repository, tree, found, index key found]

/-! One repository, read twice: its status, which observed the index, and its refs. -/

def sampleStatus : StatusFacts where
  headOid := some "head"
  records := []
  operationInProgress := none

def sampleSnapshot (snapshotId repositoryId : String) (kind : SnapshotKind)
    (worktreeId indexKey : Option String) : Snapshots.SnapshotRecord where
  snapshotId
  kind
  repositoryId
  worktreeId
  targetGeneration := ""
  createdAtMs := 0
  tips := []
  headOid := some "head"
  observedRefsFingerprint := none
  indexKey
  historyIntent := none

def statusSnapshot : Snapshots.SnapshotRecord :=
  sampleSnapshot "snap_status" "repo_1" .status (some "wt_1") (some (currentIndexKey sampleStatus))

/-- The status of a clone at the same commit. -/
def cloneSnapshot : Snapshots.SnapshotRecord :=
  sampleSnapshot "snap_clone" "repo_2" .status (some "wt_2") (some (currentIndexKey sampleStatus))

def refsSnapshot : Snapshots.SnapshotRecord := sampleSnapshot "snap_refs" "repo_1" .refs none none

def sampleSnapshots : SnapshotState where
  byId := ((Table.empty.insert refsSnapshot).insert cloneSnapshot).insert statusSnapshot

def sampleWorktree : HostWorktree := ⟨"wt_1", some "handle", "/work"⟩

def sampleLookups : Lookups where
  require _ := .ok ⟨false, "/work"⟩
  worktree _ _ := .ok sampleWorktree
  facts _ := .ok (sampleStatus.headOid, sampleStatus)
  snapshots := sampleSnapshots.get

def sampleService : ServiceFacts.Service where
  requireRecord repositoryId := .ok ⟨repositoryId, "wt_1"⟩
  targetFor _ := .ok ()
  executor _ := .ok ()
  readStatus _ := .ok ⟨some "head", none, "snap_status", sampleSnapshots⟩

def sampleNamed (expectedSnapshotId : String) : NamedTarget := ⟨"repo_1", none, expectedSnapshotId⟩

def sampleRequest (expectedSnapshotId : String) : ParsedMutationRequest where
  clientRequestId := "request"
  target := (sampleNamed expectedSnapshotId).target
  kind := .createBranch
  operation := .null

theorem sampleSnapshots_held : sampleSnapshots.get "snap_status" = some statusSnapshot ∧
    sampleSnapshots.get "snap_clone" = some cloneSnapshot ∧
      sampleSnapshots.get "snap_refs" = some refsSnapshot := by
  unfold sampleSnapshots SnapshotState.get
  refine ⟨Table.get?_insert_self _ _, ?_, ?_⟩
  · rw [Table.get?_insert, if_neg (by decide)]
    exact Table.get?_insert_self _ _
  · rw [Table.get?_insert, if_neg (by decide), Table.get?_insert, if_neg (by decide)]
    exact Table.get?_insert_self _ _

theorem sampleReady {expectedSnapshotId : String} {snapshot : Snapshots.SnapshotRecord}
    (minted : sampleSnapshots.get expectedSnapshotId = some snapshot)
    (head : snapshot.headOid = some "head")
    (index : ∀ key ∈ snapshot.indexKey, key = currentIndexKey sampleStatus) :
    Ready sampleLookups none .createBranch (sampleNamed expectedSnapshotId) sampleWorktree
      (some "head") sampleStatus snapshot where
  unblocked := rfl
  record := ⟨_, rfl, rfl⟩
  found := rfl
  handle := by simp [sampleWorktree]
  facts := rfl
  minted := minted
  head := head
  index := index
  inProgress := by simp [sampleStatus]

theorem sampleState : SameState sampleLookups sampleService (sampleNamed "snap_status") sampleWorktree
      sampleStatus where
  record := ⟨_, rfl, rfl⟩
  found := rfl
  requested := by simp [sampleNamed]
  handle := by simp [sampleWorktree]
  facts := rfl
  held := rfl
  target := rfl
  executor := rfl
  read := ⟨_, rfl, rfl, rfl, by rw [sampleSnapshots_held.1]; rfl, fun _ => rfl⟩

/-- A request planned against the status is accepted by both hosts, and bound to it. -/
theorem preconditionsFor_binds_status : checkPreconditions
      { ServiceFacts.facts sampleService .createBranch (sampleRequest "snap_status").target with
        restartBlock := none } = .ok () ∧ ∃ worktree headOid status snapshot,
      Bound sampleLookups .createBranch (sampleNamed "snap_status") worktree headOid status
        snapshot := by
  obtain ⟨binds, hosts⟩ := preconditionsFor_binds_iff sampleLookups none (sampleRequest "snap_status")
    (sampleNamed "snap_status") rfl
  have accepted : Accepts (preconditionsFor sampleLookups none (sampleRequest "snap_status")) := by
    rw [preconditionsFor_named (sampleNamed "snap_status") rfl, accepts_iff]
    exact ⟨_, _, _, _, sampleReady sampleSnapshots_held.1 rfl
      (by simp [statusSnapshot, sampleSnapshot])⟩
  refine ⟨?_, (binds.mpr ?_ accepted).2⟩
  · exact (hosts sampleService sampleWorktree sampleStatus sampleState).mpr
      ⟨accepted, _, sampleSnapshots_held.1, rfl, rfl, Option.some_ne_none _⟩
  · intro worktree headOid status snapshot ready
    cases sampleSnapshots_held.1.symm.trans ready.minted
    cases ready.found
    exact ⟨rfl, rfl, Option.some_ne_none _⟩

def AcceptedUnbound (expectedSnapshotId : String) : Prop :=
  Accepts (preconditionsFor sampleLookups none (sampleRequest expectedSnapshotId)) ∧
    ¬∃ worktree headOid status snapshot, Bound sampleLookups .createBranch
      (sampleNamed expectedSnapshotId) worktree headOid status snapshot

/-- One planned against the status of a clone, or against a read that saw neither a worktree nor the
index, is accepted too. -/
theorem other_snapshot_accepted :
    AcceptedUnbound "snap_clone" ∧ AcceptedUnbound "snap_refs" := by
  obtain ⟨-, clone, refs⟩ := sampleSnapshots_held
  unfold AcceptedUnbound
  rw [preconditionsFor_named (sampleNamed _) rfl, preconditionsFor_named (sampleNamed _) rfl,
    accepts_iff, accepts_iff]
  constructor
  · refine ⟨⟨_, _, _, _, sampleReady clone rfl (by simp [cloneSnapshot, sampleSnapshot])⟩, ?_⟩
    rintro ⟨worktree, headOid, status, snapshot, bound⟩
    cases clone.symm.trans bound.minted
    exact absurd bound.repository (by decide)
  · refine ⟨⟨_, _, _, _, sampleReady refs rfl (by simp [refsSnapshot, sampleSnapshot])⟩, ?_⟩
    rintro ⟨worktree, headOid, status, snapshot, bound⟩
    cases refs.symm.trans bound.minted
    cases bound.worktree

end Refyard.HostNode
