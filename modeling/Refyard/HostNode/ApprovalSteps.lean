import Refyard.HostNode.Approvals

/-! What the steps of approvals can do, said once, and what holds of the ids in every run. -/
namespace Refyard.Approvals
open ApprovalHost

def ApprovalHost.stands (approvals : ApprovalHost) : List RepositoryRecord :=
  approvals.registry.records.values

variable (registry : Registry) {left right : Nat}

theorem records_attachRepository (allowedRootId repositoryId : String) :
    (registry.attachRepository allowedRootId repositoryId).records = registry.records ∧
      (registry.attachRepository allowedRootId repositoryId).repositoryIdByCommonDir =
        registry.repositoryIdByCommonDir := by
  unfold Registry.attachRepository
  split
  · exact ⟨rfl, rfl⟩
  · split
    · exact ⟨rfl, rfl⟩
    · exact ⟨rfl, rfl⟩

theorem records_detachRepository (allowedRootId repositoryId : String) :
    (registry.detachRepository allowedRootId repositoryId).records = registry.records ∧
      (registry.detachRepository allowedRootId repositoryId).repositoryIdByCommonDir =
        registry.repositoryIdByCommonDir := by
  unfold Registry.detachRepository
  split
  · exact ⟨rfl, rfl⟩
  · exact ⟨rfl, rfl⟩

def ApprovalHost.moves (approvals : ApprovalHost) (call : Nat) (held : Option Call) :
    ApprovalHost :=
  { approvals with calls := Function.update approvals.calls call held }

def completes (record : RepositoryRecord) : Except Thrown (List HostWorktree) → Bool
  | .ok worktrees => (primaryOf worktrees record.displayPath).isSome
  | .error _ => false

def RepositoryRecord.withWorktrees (record : RepositoryRecord) (primaryWorktreeId : String)
    (worktreeIds : List String) : RepositoryRecord :=
  { record with primaryWorktreeId, worktreeIds }

def Asker.answered : Asker → RepositoryRecord → Option Call
  | .approval resolvedPath root before, record => some (.answered resolvedPath root before record)
  | .direct, _ => none

inductive Follows (approvals : ApprovalHost) : Option Call → Found → Call → Prop where
  | approving {was found} (resolvedPath : String) :
      Follows approvals was found (.approving resolvedPath)
  | checkingRoot {was found root chosen relativePath} (resolvedPath : String)
      (stands : approvals.registry.roots.get? chosen.allowedRootId = some root) :
      Follows approvals was found (.checkingRoot (.approval resolvedPath chosen
        (approvals.registry.records.values.map RepositoryRecord.repositoryId)) root relativePath)
  | readingLayout {asker root relativePath found} (rootPath : String) :
      Follows approvals (some (.checkingRoot asker root relativePath)) found
        (.readingLayout asker root.allowedRootId rootPath)
  | reconciling {asker allowedRootId rootPath found path layout existing}
      (read : readDirectory rootPath found = .ok (path, layout))
      (stands : approvals.existing layout.commonDir = some existing) :
      Follows approvals (some (.readingLayout asker allowedRootId rootPath)) (.read found)
        (.reconciling asker existing)
  | answered {resolvedPath root before record found} :
      Follows approvals (some (.reconciling (.approval resolvedPath root before) record)) found
        (.answered resolvedPath root before record)
  | journaling {resolvedPath root before record found} (new : record.repositoryId ∉ before) :
      Follows approvals (some (.answered resolvedPath root before record)) found
        (.journaling resolvedPath root record)

inductive Resumed (approvals : ApprovalHost) (call : Nat) : Found → ApprovalHost → Prop where
  | idle {found} : Resumed approvals call found approvals
  /-- An id that was drawn for a root may be lost. -/
  | over_ {found} {rootNumber : Nat} (drawn : approvals.rootNumber ≤ rootNumber) :
      Resumed approvals call found ({ approvals with rootNumber }.moves call none)
  | waits {found held} (follows : Follows approvals (approvals.calls call) found held) :
      Resumed approvals call found (approvals.moves call (some held))
  | drewRoot {found} (resolvedPath path : String) :
      Resumed approvals call found
        ({ approvals with rootNumber := approvals.rootNumber + 1 }.moves call
          (some (.granting resolvedPath path (mintedRootId (approvals.rootNumber + 1)))))
  | granted {found resolvedPath path allowedRootId} (granted : String)
      (was : approvals.calls call = some (.granting resolvedPath path allowedRootId)) :
      Resumed approvals call found
        ({ approvals with
          registry.handleRoots := Function.update approvals.registry.handleRoots allowedRootId
            (some granted) }.moves call (some (.pinningRoot resolvedPath path allowedRootId)))
  | pinnedRoot {found resolvedPath path allowedRootId}
      (was : approvals.calls call = some (.pinningRoot resolvedPath path allowedRootId)) :
      Resumed approvals call found
        ({ approvals with
          registry.roots := approvals.registry.roots.set ⟨allowedRootId, path, true, []⟩ }.moves
            call (some (.rooted resolvedPath ⟨allowedRootId, path, true, []⟩)))
  | drew {found asker allowedRootId rootPath layout} (path : String)
      (was : approvals.calls call = some (.readingLayout asker allowedRootId rootPath)) :
      Resumed approvals call found
        ({ approvals with number := approvals.number + 1 }.moves call (some (.pinning asker
          { repositoryId := mintedRepositoryId (approvals.number + 1)
            allowedRootId
            displayPath := path
            displayName := baseName path
            layout
            primaryWorktreeId := ""
            worktreeIds := [] })))
  | filed {asker record} (was : approvals.calls call = some (.pinning asker record)) :
      Resumed approvals call .pinned
        ({ approvals with registry := approvals.registry.file record }.moves call
          (some (.readingWorktrees asker record)))
  | failed {asker record found} (was : approvals.calls call = some (.readingWorktrees asker record))
      (incomplete : completes record found = false) :
      Resumed approvals call (.worktrees found)
        ({ approvals with registry := approvals.registry.forget record }.moves call none)
  | completed {asker record found} (primaryWorktreeId : String) (worktreeIds : List String)
      (was : approvals.calls call = some (.readingWorktrees asker record))
      (complete : completes record found = true) :
      Resumed approvals call (.worktrees found)
        ({ approvals with
          registry := approvals.registry.complete
            (record.withWorktrees primaryWorktreeId worktreeIds) }.moves call
          (asker.answered (record.withWorktrees primaryWorktreeId worktreeIds)))
  | withdrew {held record written} (was : approvals.calls call = some held)
      (holds : (∃ resolvedPath root, held = .journaling resolvedPath root record) ∨
        ∃ remaining, held = .revoking record remaining) :
      Resumed approvals call (.journaled written)
        ({ approvals with
          registry := approvals.registry.unregister record.repositoryId }.moves call none)

section
variable {approvals : ApprovalHost} {call : Nat} {found : Found}

theorem resumed_ends (answer : Answer) :
    Resumed approvals call found (approvals.ends call answer).1 :=
  .over_ (Nat.le_refl approvals.rootNumber)

theorem throws_moves (asker : Asker) (thrown : Thrown) :
    (approvals.throws call asker thrown).1 = approvals.moves call none := by
  cases asker with
  | approval resolvedPath root before => rfl
  | direct => rfl

theorem resumed_throws (asker : Asker) (thrown : Thrown) :
    Resumed approvals call found (approvals.throws call asker thrown).1 := by
  rw [throws_moves]
  exact .over_ (Nat.le_refl approvals.rootNumber)

variable (resolvedPath : String) {allowedRootId : String} {root : RootRecord}
  {record : RepositoryRecord}

theorem resumed_registersIn (root : RootRecord) :
    Resumed approvals call found (approvals.registersIn call resolvedPath root).1 := by
  unfold ApprovalHost.registersIn
  split
  · exact resumed_throws _ _
  · rename_i stands
    exact .waits (.checkingRoot resolvedPath stands)

theorem resumed_resolved (path requestedPath : String) (real : Option String) :
    Resumed approvals call found (approvals.resolved call path requestedPath real).1 := by
  unfold ApprovalHost.resolved
  split
  · exact resumed_ends _
  · split
    · exact resumed_registersIn _ _
    · split
      · exact .waits (.approving _)
      · exact resumed_ends _

theorem resumed_approving (real : Except Thrown (String × Bool)) :
    Resumed approvals call found (approvals.approving call resolvedPath real).1 := by
  unfold ApprovalHost.approving
  split
  · exact resumed_ends _
  · exact resumed_ends _
  · dsimp only
    split
    · exact .drewRoot _ _
    · exact .over_ (Nat.le_succ _)

theorem resumed_granting {resolvedPath path : String}
    (was : approvals.calls call = some (.granting resolvedPath path allowedRootId))
    (real : Except Thrown (String × Bool)) : Resumed approvals call found
      (approvals.granting call resolvedPath path allowedRootId real).1 := by
  unfold ApprovalHost.granting
  split
  · exact resumed_ends _
  · exact resumed_ends _
  · exact .granted _ was

variable {asker : Asker}

theorem resumed_checkedRoot {relativePath : String}
    (was : approvals.calls call = some (.checkingRoot asker root relativePath))
    (state : DirectoryState) :
    Resumed approvals call found (approvals.checkedRoot call asker root relativePath state).1 := by
  unfold ApprovalHost.checkedRoot
  split
  · exact resumed_throws _ _
  · exact resumed_throws _ _
  · split
    · exact resumed_throws _ _
    · split
      · exact resumed_throws _ _
      · refine .waits ?_
        rw [was]
        exact .readingLayout _

theorem resumed_readLayout {rootPath : String}
    (was : approvals.calls call = some (.readingLayout asker allowedRootId rootPath))
    (read : LayoutRead) : Resumed approvals call (.read read)
      (approvals.readLayout call asker allowedRootId rootPath read).1 := by
  unfold ApprovalHost.readLayout
  split
  · exact resumed_throws _ _
  · rename_i directory
    split
    · rename_i stands
      refine .waits ?_
      rw [was]
      exact .reconciling directory stands
    · exact .drew _ was

theorem resumed_reconciled {existing : RepositoryRecord}
    (was : approvals.calls call = some (.reconciling asker existing)) (done : Except Thrown Unit) :
    Resumed approvals call found (approvals.reconciled call asker existing done).1 := by
  cases done with
  | error thrown => exact resumed_throws _ _
  | ok done =>
    cases asker with
    | approval resolvedPath root before =>
      refine .waits ?_
      rw [was]
      exact .answered
    | direct => exact resumed_ends _

theorem resumed_readWorktrees (was : approvals.calls call = some (.readingWorktrees asker record))
    (listed : Except Thrown (List HostWorktree)) : Resumed approvals call (.worktrees listed)
      (approvals.readWorktrees call asker record listed).1 := by
  unfold ApprovalHost.readWorktrees
  split
  · rw [throws_moves]
    exact .failed was rfl
  · rename_i worktrees
    split
    · rename_i none
      rw [throws_moves]
      refine .failed was ?_
      rw [completes, none]
      rfl
    · rename_i primary one
      have complete : completes record (.ok worktrees) = true := by
        rw [completes, one]
        rfl
      have done := Resumed.completed primary.worktreeId (worktrees.map HostWorktree.worktreeId)
        was complete
      cases asker with
      | approval resolvedPath root before => exact done
      | direct => exact done

theorem resumed_answered {resolvedPath : String} {before : List String}
    (was : approvals.calls call = some (.answered resolvedPath root before record)) :
    Resumed approvals call found (approvals.answered call resolvedPath root before record).1 := by
  unfold ApprovalHost.answered
  split
  · exact resumed_ends _
  · rename_i new
    refine .waits ?_
    rw [was]
    exact .journaling fun member => new (List.contains_iff_mem.mpr member)

theorem resumed (approvals : ApprovalHost) (call : Nat) (found : Found) :
    Resumed approvals call found (approvals.resume call found).1 := by
  unfold ApprovalHost.resume
  split
  · exact resumed_resolved _ _ _
  · exact resumed_approving _ _
  · rename_i was
    exact resumed_granting was _
  · rename_i was
    exact .pinnedRoot was
  · exact resumed_registersIn _ _
  · rename_i was
    exact resumed_checkedRoot was _
  · rename_i was
    exact resumed_readLayout was _
  · rename_i was
    exact resumed_reconciled was _
  · rename_i was
    exact .filed was
  · rename_i was
    exact resumed_readWorktrees was _
  · rename_i was
    exact resumed_answered was
  · rename_i record written was
    cases written with
    | error message => exact .withdrew was (.inl ⟨_, _, rfl⟩)
    | ok done => exact resumed_ends _
  · rename_i record remaining written was
    cases written with
    | error message => exact resumed_ends _
    | ok done => exact .withdrew was (.inr ⟨_, rfl⟩)
  · exact .idle

end

/-! Where ids come from. -/

def Call.record? : Call → Option RepositoryRecord
  | .reconciling _ record | .pinning _ record | .readingWorktrees _ record
  | .answered _ _ _ record | .journaling _ _ record | .revoking record _ => some record
  | _ => none

def Call.rootId? : Call → Option String
  | .granting _ _ allowedRootId | .pinningRoot _ _ allowedRootId => some allowedRootId
  | _ => none

/-- The id of a record was drawn, and tells its root and its common directory. -/
def Traced (origin : Nat → String × String) (number : Nat) (record : RepositoryRecord) : Prop :=
  ∃ drawn ≤ number, record.repositoryId = mintedRepositoryId drawn ∧
    origin drawn = (record.allowedRootId, record.commonDir)

theorem mintedRepositoryId_injective (same : mintedRepositoryId left = mintedRepositoryId right) :
    left = right := by
  unfold mintedRepositoryId at same
  apply base36_injective
  simpa [toString, String.toList_inj] using congrArg String.toList same

theorem mintedRootId_injective (same : mintedRootId left = mintedRootId right) : left = right := by
  unfold mintedRootId at same
  apply base36_injective
  simpa [toString, String.toList_inj] using congrArg String.toList same

section
variable {origin : Nat → String × String} {number : Nat}
variable {record : RepositoryRecord}

theorem Traced.mono {more : Nat} (traced : Traced origin number record) (le : number ≤ more) :
    Traced origin more record := by
  obtain ⟨drawn, within, named, same⟩ := traced
  exact ⟨drawn, within.trans le, named, same⟩

theorem Traced.agree {first second : RepositoryRecord} (traced : Traced origin number first)
    (other : Traced origin number second) (same : first.repositoryId = second.repositoryId) :
    first.allowedRootId = second.allowedRootId ∧ first.commonDir = second.commonDir := by
  obtain ⟨drawn, -, named, place⟩ := traced
  obtain ⟨again, -, alsoNamed, alsoPlace⟩ := other
  rw [named, alsoNamed] at same
  obtain rfl := mintedRepositoryId_injective same
  exact Prod.mk.inj (place.symm.trans alsoPlace)

theorem Traced.update (traced : Traced origin number record) (place : String × String) :
    Traced (Function.update origin (number + 1) place) (number + 1) record := by
  obtain ⟨drawn, within, named, same⟩ := traced
  refine ⟨drawn, Nat.le_succ_of_le within, named, ?_⟩
  rw [Function.update_of_ne (Nat.ne_of_lt (Nat.lt_succ_of_le within)), same]

end

/-- What holds of every registry: its ids were drawn, and its bindings lead to records. -/
structure Registry.Sound (origin : Nat → String × String) (number rootNumber : Nat)
    (registry : Registry) : Prop where
  stored : ∀ record ∈ registry.records.values, Traced origin number record
  bound : ∀ commonDir repositoryId, registry.repositoryIdByCommonDir commonDir = some repositoryId →
      ∃ record ∈ registry.records.values,
        record.repositoryId = repositoryId ∧ record.commonDir = commonDir
  roots : ∀ root ∈ registry.roots.values, ∃ drawn ≤ rootNumber,
    root.allowedRootId = mintedRootId drawn
  attached : ∀ root ∈ registry.roots.values, ∀ repositoryId ∈ root.repositoryIds,
    ∃ drawn ≤ number, repositoryId = mintedRepositoryId drawn

namespace Registry.Sound

variable {origin : Nat → String × String} {number rootNumber : Nat} {registry : Registry}
  {record : RepositoryRecord}

theorem mono (h : registry.Sound origin number rootNumber) {more moreRoots : Nat}
    (le : number ≤ more) (leRoots : rootNumber ≤ moreRoots) :
    registry.Sound origin more moreRoots where
  stored record member := (h.stored record member).mono le
  bound := h.bound
  roots root member := by
    obtain ⟨drawn, within, named⟩ := h.roots root member
    exact ⟨drawn, within.trans leRoots, named⟩
  attached root member repositoryId contained := by
    obtain ⟨drawn, within, named⟩ := h.attached root member repositoryId contained
    exact ⟨drawn, within.trans le, named⟩

theorem draw (h : registry.Sound origin number rootNumber) (place : String × String) :
    registry.Sound (Function.update origin (number + 1) place) (number + 1) rootNumber where
  stored record member := (h.stored record member).update place
  bound := h.bound
  roots := h.roots
  attached := (h.mono (Nat.le_succ number) (Nat.le_refl rootNumber)).attached

theorem grant (h : registry.Sound origin number rootNumber) (handleRoots : String → Option String) :
    ({ registry with handleRoots }).Sound origin number rootNumber :=
  ⟨h.stored, h.bound, h.roots, h.attached⟩

theorem setRecord (h : registry.Sound origin number rootNumber)
    (traced : Traced origin number record) {binding : String → Option String}
    (bound : ∀ commonDir repositoryId, binding commonDir = some repositoryId →
      registry.repositoryIdByCommonDir commonDir = some repositoryId ∨
        repositoryId = record.repositoryId ∧ commonDir = record.commonDir) :
    Registry.Sound origin number rootNumber { registry with
      records := registry.records.set record
      repositoryIdByCommonDir := binding } where
  stored other member := by
    obtain rfl | ⟨before, -⟩ := InsertionMap.mem_values_set.mp member
    · exact traced
    · exact h.stored other before
  bound commonDir repositoryId binds := by
    obtain old | ⟨rfl, rfl⟩ := bound commonDir repositoryId binds
    · obtain ⟨other, member, rfl, rfl⟩ := h.bound commonDir repositoryId old
      by_cases same : other.repositoryId = record.repositoryId
      · exact ⟨record, InsertionMap.mem_values_set.mpr (.inl rfl), same.symm,
          ((h.stored other member).agree traced same).2.symm⟩
      · exact ⟨other, InsertionMap.mem_values_set.mpr (.inr ⟨member, same⟩), rfl, rfl⟩
    · exact ⟨record, InsertionMap.mem_values_set.mpr (.inl rfl), rfl, rfl⟩
  roots := h.roots
  attached := h.attached

theorem file (h : registry.Sound origin number rootNumber) (traced : Traced origin number record) :
    (registry.file record).Sound origin number rootNumber := by
  apply h.setRecord traced
  intro commonDir repositoryId binds
  rw [Function.update_apply] at binds
  split at binds
  · rename_i same
    exact .inr ⟨(Option.some.inj binds).symm, same⟩
  · exact .inl binds

theorem forget (h : registry.Sound origin number rootNumber)
    (traced : Traced origin number record) :
    (registry.forget record).Sound origin number rootNumber where
  stored other member := h.stored other (InsertionMap.mem_values_erase.mp member).1
  bound commonDir repositoryId binds := by
    dsimp only [Registry.forget] at binds
    rw [Function.update_apply] at binds
    split at binds
    · cases binds
    · rename_i elsewhere
      obtain ⟨other, member, rfl, rfl⟩ := h.bound commonDir repositoryId binds
      refine ⟨other, InsertionMap.mem_values_erase.mpr ⟨member, ?_⟩, rfl, rfl⟩
      intro same
      exact elsewhere ((h.stored other member).agree traced same).2
  roots := h.roots
  attached := h.attached

theorem setRoot (h : registry.Sound origin number rootNumber) {root : RootRecord}
    (named : ∃ drawn ≤ rootNumber, root.allowedRootId = mintedRootId drawn)
    (attached : ∀ repositoryId ∈ root.repositoryIds,
      ∃ drawn ≤ number, repositoryId = mintedRepositoryId drawn) :
    Registry.Sound origin number rootNumber { registry with
      roots := registry.roots.set root } where
  stored := h.stored
  bound := h.bound
  roots other member := by
    obtain rfl | ⟨before, -⟩ := InsertionMap.mem_values_set.mp member
    · exact named
    · exact h.roots other before
  attached other member := by
    obtain rfl | ⟨before, -⟩ := InsertionMap.mem_values_set.mp member
    · exact attached
    · exact h.attached other before

theorem attachRepository (h : registry.Sound origin number rootNumber) (allowedRootId : String)
    {repositoryId : String} (named : ∃ drawn ≤ number, repositoryId = mintedRepositoryId drawn) :
    (registry.attachRepository allowedRootId repositoryId).Sound origin number rootNumber := by
  unfold Registry.attachRepository
  split
  · exact h
  · rename_i root found
    have member := (InsertionMap.get?_eq_some.mp found).1
    split
    · exact h
    · refine h.setRoot ?_ ?_
      · exact h.roots root member
      intro other contained
      obtain before | single := List.mem_append.mp contained
      · exact h.attached root member other before
      · rw [List.mem_singleton.mp single]
        exact named

theorem detachRepository (h : registry.Sound origin number rootNumber)
    (allowedRootId repositoryId : String) :
    (registry.detachRepository allowedRootId repositoryId).Sound origin number rootNumber := by
  unfold Registry.detachRepository
  split
  · exact h
  · rename_i root found
    have member := (InsertionMap.get?_eq_some.mp found).1
    refine h.setRoot ?_ ?_
    · exact h.roots root member
    intro other contained
    exact h.attached root member other (List.mem_filter.mp contained).1

theorem complete (h : registry.Sound origin number rootNumber)
    (traced : Traced origin number record) :
    (registry.complete record).Sound origin number rootNumber := by
  obtain ⟨drawn, within, named, -⟩ := id traced
  apply attachRepository
  · exact h.setRecord traced fun _ _ => .inl
  · exact ⟨drawn, within, named⟩

theorem unregister (h : registry.Sound origin number rootNumber) (repositoryId : String) :
    (registry.unregister repositoryId).Sound origin number rootNumber := by
  unfold Registry.unregister
  split
  · exact h
  · rename_i record found
    exact (h.forget (h.stored record (InsertionMap.get?_eq_some.mp found).1)).detachRepository _ _

theorem unbound (h : registry.Sound origin number rootNumber) {commonDir : String}
    (free : (registry.repositoryIdByCommonDir commonDir).bind registry.records.get? = none) :
    registry.repositoryIdByCommonDir commonDir = none := by
  cases binds : registry.repositoryIdByCommonDir commonDir with
  | none => rfl
  | some repositoryId =>
    obtain ⟨record, member, rfl, -⟩ := h.bound commonDir repositoryId binds
    rw [binds, Option.bind_some, InsertionMap.mem_values.mp member] at free
    cases free

end Registry.Sound

/-- What holds of every state: whatever the registry and the calls hold was drawn. -/
structure Sound (origin : Nat → String × String) (approvals : ApprovalHost) : Prop where
  registry : approvals.registry.Sound origin approvals.number approvals.rootNumber
  held : ∀ call held record, approvals.calls call = some held → held.record? = some record →
    Traced origin approvals.number record
  rooted : ∀ call held allowedRootId, approvals.calls call = some held →
    held.rootId? = some allowedRootId →
      ∃ drawn ≤ approvals.rootNumber, allowedRootId = mintedRootId drawn

namespace Sound

variable {origin : Nat → String × String} {approvals : ApprovalHost}

theorem change (h : Sound origin approvals) {registry : Registry} {rootNumber : Nat}
    (le : approvals.rootNumber ≤ rootNumber)
    (sound : registry.Sound origin approvals.number rootNumber) :
    Sound origin { approvals with registry, rootNumber } where
  registry := sound
  held := h.held
  rooted call held allowedRootId waits drew := by
    obtain ⟨drawn, within, named⟩ := h.rooted call held allowedRootId waits drew
    exact ⟨drawn, within.trans le, named⟩

theorem draw (h : Sound origin approvals) (place : String × String) :
    Sound (Function.update origin (approvals.number + 1) place)
      { approvals with number := approvals.number + 1 } where
  registry := h.registry.draw place
  held call held record waits holds := (h.held call held record waits holds).update place
  rooted := h.rooted

theorem moves (h : Sound origin approvals) (call : Nat) {held : Option Call}
    (traced : ∀ record, held.bind Call.record? = some record →
      Traced origin approvals.number record)
    (named : ∀ allowedRootId, held.bind Call.rootId? = some allowedRootId →
      ∃ drawn ≤ approvals.rootNumber, allowedRootId = mintedRootId drawn) :
    Sound origin (approvals.moves call held) where
  registry := h.registry
  held other found record waits holds := by
    dsimp only [ApprovalHost.moves] at waits
    rw [Function.update_apply] at waits
    split at waits
    · subst waits
      exact traced record holds
    · exact h.held other found record waits holds
  rooted other found allowedRootId waits drew := by
    dsimp only [ApprovalHost.moves] at waits
    rw [Function.update_apply] at waits
    split at waits
    · subst waits
      exact named allowedRootId drew
    · exact h.rooted other found allowedRootId waits drew

theorem drops (h : Sound origin approvals) (call : Nat) : Sound origin (approvals.moves call none) :=
  h.moves call nofun nofun

variable {record : RepositoryRecord} {call : Nat} {found : Found} {held : Call}

theorem existing_mem (h : Sound origin approvals) {commonDir : String}
    (stands : approvals.existing commonDir = some record) :
    record ∈ approvals.stands ∧ record.commonDir = commonDir := by
  obtain ⟨repositoryId, binds, found⟩ := Option.bind_eq_some_iff.mp stands
  obtain ⟨bound, member, rfl, rfl⟩ := h.registry.bound commonDir repositoryId binds
  rw [InsertionMap.mem_values.mp member] at found
  obtain rfl := Option.some.inj found
  exact ⟨member, rfl⟩

theorem traced_of_follows (h : Sound origin approvals)
    (follows : Follows approvals (approvals.calls call) found held)
    (holds : held.record? = some record) : Traced origin approvals.number record := by
  generalize was : approvals.calls call = before at follows
  cases follows with
  | approving | checkingRoot | readingLayout => cases holds
  | reconciling read stands =>
    cases holds
    exact h.registry.stored _ (h.existing_mem stands).1
  | answered => exact h.held call _ record was holds
  | journaling => exact h.held call _ record was holds

theorem resume (h : Sound origin approvals) {next : ApprovalHost}
    (step : Resumed approvals call found next) : ∃ origin, Sound origin next := by
  have same := Nat.le_refl approvals.rootNumber
  cases step with
  | idle => exact ⟨origin, h⟩
  | over_ drawn =>
    exact ⟨origin, (h.change drawn (h.registry.mono (Nat.le_refl _) drawn)).drops call⟩
  | waits follows =>
    refine ⟨origin, h.moves call (fun record => h.traced_of_follows follows) ?_⟩
    intro allowedRootId drew
    generalize approvals.calls call = was at follows
    cases follows <;> cases drew
  | drewRoot resolvedPath path =>
    have more := h.registry.mono (Nat.le_refl _) (Nat.le_succ approvals.rootNumber)
    refine ⟨origin, (h.change (Nat.le_succ _) more).moves call nofun ?_⟩
    rintro allowedRootId ⟨⟩
    exact ⟨_, Nat.le_refl _, rfl⟩
  | granted path was =>
    refine ⟨origin, (h.change same (h.registry.grant _)).moves call nofun ?_⟩
    rintro allowedRootId ⟨⟩
    exact h.rooted call _ _ was rfl
  | pinnedRoot was =>
    refine ⟨origin, (h.change same (h.registry.setRoot ?_ ?_)).moves call nofun nofun⟩
    · exact h.rooted call _ _ was rfl
    · rintro repositoryId ⟨⟩
  | drew path was =>
    rename_i asker allowedRootId rootPath layout
    refine ⟨_, (h.draw (allowedRootId, layout.commonDir)).moves call ?_ nofun⟩
    rintro record ⟨⟩
    exact ⟨approvals.number + 1, Nat.le_refl _, rfl, Function.update_self _ _ _⟩
  | filed was =>
    have traced := h.held call _ _ was rfl
    refine ⟨origin, (h.change same (h.registry.file traced)).moves call ?_ nofun⟩
    rintro record ⟨⟩
    exact traced
  | failed was =>
    have traced := h.held call _ _ was rfl
    exact ⟨origin, (h.change same (h.registry.forget traced)).drops call⟩
  | completed primaryWorktreeId worktreeIds was =>
    rename_i asker record worktrees complete
    have traced : Traced origin approvals.number
        (record.withWorktrees primaryWorktreeId worktreeIds) := h.held call _ record was rfl
    refine ⟨origin, (h.change same (h.registry.complete traced)).moves call ?_ ?_⟩
    · cases asker with
      | approval resolvedPath root before =>
        rintro other ⟨⟩
        exact traced
      | direct => exact nofun
    · cases asker with
      | approval resolvedPath root before => exact nofun
      | direct => exact nofun
  | withdrew was =>
    exact ⟨origin, (h.change same (h.registry.unregister _)).drops call⟩

theorem begins (h : Sound origin approvals)
    (traced : ∀ record, held.record? = some record → Traced origin approvals.number record)
    (named : held.rootId? = none) : Sound origin (approvals.begins held).1 := by
  have moved : Sound origin (approvals.moves approvals.begun (some held)) :=
    h.moves _ traced fun allowedRootId drew => by
      rw [Option.bind_some, named] at drew
      cases drew
  exact ⟨moved.registry, moved.held, moved.rooted⟩

theorem next (h : Sound origin approvals) (homedir : String) (step : ApprovalStep) :
    ∃ origin, Sound origin ((managing homedir).next approvals step) := by
  have passed : Sound origin { approvals with begun := approvals.begun + 1 } :=
    ⟨h.registry, h.held, h.rooted⟩
  unfold Machine.next managing
  cases step with
  | register path =>
    dsimp only [register]
    split
    · exact ⟨origin, h.begins nofun rfl⟩
    · exact ⟨origin, passed⟩
  | registerIn allowedRootId relativePath =>
    dsimp only [registerIn]
    split
    · exact ⟨origin, passed⟩
    · exact ⟨origin, h.begins nofun rfl⟩
  | revoke repositoryId =>
    dsimp only [revoke]
    split
    · exact ⟨origin, passed⟩
    · rename_i record found
      refine ⟨origin, h.begins ?_ rfl⟩
      rintro other ⟨⟩
      exact h.registry.stored record (InsertionMap.get?_eq_some.mp found).1
  | unregister repositoryId =>
    exact ⟨origin, h.change (Nat.le_refl _) (h.registry.unregister repositoryId)⟩
  | drawId =>
    have more := h.draw ("", "")
    exact ⟨_, more⟩
  | resume call found => exact h.resume (resumed approvals call found)

end Sound

theorem sound_start (origin : Nat → String × String) : Sound origin ({} : ApprovalHost) where
  registry := by
    constructor
    · rintro record ⟨⟩
    · rintro commonDir repositoryId ⟨⟩
    · rintro root ⟨⟩
    · rintro root ⟨⟩
  held _ _ _ := nofun
  rooted _ _ _ := nofun

/-- Every run, in whatever order its steps come, is sound. -/
theorem sound_after (homedir : String) (steps : List ApprovalStep) :
    ∃ origin, Sound origin ((managing homedir).after {} steps) := by
  apply (managing homedir).invariant (fun approvals => ∃ origin, Sound origin approvals)
  · rintro approvals step ⟨origin, h⟩
    exact h.next homedir step
  · exact ⟨fun _ => ("", ""), sound_start _⟩

end Refyard.Approvals
