import Refyard.HostNode.ApprovalSteps

/-! One registration that nothing comes in between, from any state of any run: how it ends, and
what a refused one leaves behind. -/
namespace Refyard.Approvals
open ApprovalHost

structure Findings where
  realPath : Option String
  directory : Except Thrown (String × Bool)
  granted : Except Thrown (String × Bool)
  root : DirectoryState
  layout : LayoutRead
  reconciled : Except Thrown Unit
  worktrees : Except Thrown (List HostWorktree)
  written : Except String Unit

def Findings.found (findings : Findings) : Call → Found
  | .resolving .. => .realPath findings.realPath
  | .approving _ => .directory findings.directory
  | .granting .. => .directory findings.granted
  | .pinningRoot .. | .pinning .. => .pinned
  | .rooted .. | .answered .. => .resumed
  | .checkingRoot .. => .checked findings.root
  | .readingLayout .. => .read findings.layout
  | .reconciling .. => .reconciled findings.reconciled
  | .readingWorktrees .. => .worktrees findings.worktrees
  | .journaling .. | .revoking .. => .journaled findings.written

/-- A call takes up what it finds until it has answered, for so many awaits. -/
def ApprovalHost.finish (findings : Findings) (call : Nat) :
    Nat → ApprovalHost → ApprovalHost × Option Answer
  | 0, approvals => (approvals, none)
  | awaits + 1, approvals =>
      match approvals.calls call with
      | none => (approvals, none)
      | some held =>
          match approvals.resume call (findings.found held) with
          | (next, some answer) => (next, some answer)
          | (next, none) => finish findings call awaits next

def mostAwaits : Nat := 11

def ApprovalHost.registerAlone (approvals : ApprovalHost) (homedir path : String)
    (findings : Findings) : ApprovalHost × Option Answer :=
  match approvals.register homedir path with
  | (next, some answer) => (next, some answer)
  | (next, none) => next.finish findings approvals.begun mostAwaits

/-- A path that is not refused at once, no approved root contains and Git can be given. -/
structure NeedsRoot (before : ApprovalHost) (homedir path : String) (findings : Findings)
    (resolvedPath : String) : Prop where
  absolute : isAbsolute (expandUserPath homedir path) = true
  taken : before.pathRefusal path (expandUserPath homedir path) findings.realPath = .ok resolvedPath
  outside : before.registry.containingRoot resolvedPath = none
  executable : isExecutable resolvedPath = true

/-- A new root is approved: the path needs one, and it leads to a directory where the root is
resolved and where the handles resolve it. -/
def NewRoot (before : ApprovalHost) (homedir path : String) (findings : Findings) : Prop :=
  (∃ resolvedPath, NeedsRoot before homedir path findings resolvedPath) ∧
    (∃ found, findings.directory = .ok (found, true) ∧ isAbsolute found = true) ∧
      ∃ granted, findings.granted = .ok (granted, true)

def ApprovalHost.widened (before : ApprovalHost) (path granted : String) : Registry :=
  { before.registry with
    handleRoots := Function.update before.registry.handleRoots
      (mintedRootId (before.rootNumber + 1)) (some granted)
    roots := before.registry.roots.set ⟨mintedRootId (before.rootNumber + 1), path, true, []⟩ }

section
variable (before : ApprovalHost) (homedir path : String) (findings : Findings)

inductive Ground : Registry → Prop where
  | old (keeps : ¬ NewRoot before homedir path findings) : Ground before.registry
  | widened (found granted : String) (new : NewRoot before homedir path findings) :
      Ground (before.widened found granted)

/-- The call alone has come so far, and everyone else's calls stay as they are. -/
def ApprovalHost.alone (registry : Registry) (rootNumber number : Nat) (held : Option Call) :
    ApprovalHost :=
  { registry
    rootNumber
    number
    calls := Function.update before.calls before.begun held
    begun := before.begun + 1 }

def Registry.asker (registry : Registry) (resolvedPath : String) (root : RootRecord) : Asker :=
  .approval resolvedPath root (registry.records.values.map RepositoryRecord.repositoryId)

structure Fresh (registry : Registry) (record : RepositoryRecord) : Prop where
  unnamed : registry.records.get? record.repositoryId = none
  unbound : registry.repositoryIdByCommonDir record.commonDir = none
  unattached : ∀ root ∈ registry.roots.values, record.repositoryId ∉ root.repositoryIds

inductive Alone : ApprovalHost → Call → Prop where
  | resolving (absolute : isAbsolute (expandUserPath homedir path) = true) :
      Alone (before.alone before.registry before.rootNumber before.number
        (some (.resolving path (expandUserPath homedir path))))
        (.resolving path (expandUserPath homedir path))
  | approving {resolvedPath} (needs : NeedsRoot before homedir path findings resolvedPath) :
      Alone (before.alone before.registry before.rootNumber before.number
        (some (.approving resolvedPath))) (.approving resolvedPath)
  | granting {resolvedPath found} (needs : NeedsRoot before homedir path findings resolvedPath)
      (directory : findings.directory = .ok (found, true)) (absolute : isAbsolute found = true) :
      Alone (before.alone before.registry (before.rootNumber + 1) before.number
        (some (.granting resolvedPath found (mintedRootId (before.rootNumber + 1)))))
        (.granting resolvedPath found (mintedRootId (before.rootNumber + 1)))
  | pinningRoot {resolvedPath found granted} (new : NewRoot before homedir path findings) :
      Alone (before.alone
        { before.registry with
          handleRoots := Function.update before.registry.handleRoots
            (mintedRootId (before.rootNumber + 1)) (some granted) }
        (before.rootNumber + 1) before.number
        (some (.pinningRoot resolvedPath found (mintedRootId (before.rootNumber + 1)))))
        (.pinningRoot resolvedPath found (mintedRootId (before.rootNumber + 1)))
  | rooted {resolvedPath root registry} (rootNumber : Nat)
      (ground : Ground before homedir path findings registry) :
      Alone (before.alone registry rootNumber before.number (some (.rooted resolvedPath root)))
        (.rooted resolvedPath root)
  | checkingRoot {resolvedPath chosen root relativePath registry} (rootNumber : Nat)
      (ground : Ground before homedir path findings registry) :
      Alone (before.alone registry rootNumber before.number
        (some (.checkingRoot (registry.asker resolvedPath chosen) root relativePath)))
        (.checkingRoot (registry.asker resolvedPath chosen) root relativePath)
  | readingLayout {resolvedPath chosen allowedRootId rootPath registry} (rootNumber : Nat)
      (ground : Ground before homedir path findings registry) :
      Alone (before.alone registry rootNumber before.number
        (some (.readingLayout (registry.asker resolvedPath chosen) allowedRootId rootPath)))
        (.readingLayout (registry.asker resolvedPath chosen) allowedRootId rootPath)
  | reconciling {resolvedPath chosen record registry} (rootNumber : Nat)
      (ground : Ground before homedir path findings registry)
      (stands : record ∈ registry.records.values) :
      Alone (before.alone registry rootNumber before.number
        (some (.reconciling (registry.asker resolvedPath chosen) record)))
        (.reconciling (registry.asker resolvedPath chosen) record)
  | pinning {resolvedPath chosen record registry} (rootNumber : Nat)
      (ground : Ground before homedir path findings registry) (fresh : Fresh registry record) :
      Alone (before.alone registry rootNumber (before.number + 1)
        (some (.pinning (registry.asker resolvedPath chosen) record)))
        (.pinning (registry.asker resolvedPath chosen) record)
  | readingWorktrees {resolvedPath chosen record registry} (rootNumber : Nat)
      (ground : Ground before homedir path findings registry) (fresh : Fresh registry record) :
      Alone (before.alone (registry.file record) rootNumber (before.number + 1)
        (some (.readingWorktrees (registry.asker resolvedPath chosen) record)))
        (.readingWorktrees (registry.asker resolvedPath chosen) record)
  /-- The repository stood before, and the approval will be refused. -/
  | known {resolvedPath chosen record registry} {ids : List String} (rootNumber : Nat)
      (ground : Ground before homedir path findings registry)
      (stands : record.repositoryId ∈ ids) :
      Alone (before.alone registry rootNumber before.number
        (some (.answered resolvedPath chosen ids record)))
        (.answered resolvedPath chosen ids record)
  | answered {resolvedPath chosen record registry primary worktreeIds} {ids : List String}
      (rootNumber : Nat) (ground : Ground before homedir path findings registry)
      (fresh : Fresh registry record) (new : record.repositoryId ∉ ids) :
      Alone (before.alone
        ((registry.file record).complete (record.withWorktrees primary worktreeIds)) rootNumber
        (before.number + 1)
        (some (.answered resolvedPath chosen ids (record.withWorktrees primary worktreeIds))))
        (.answered resolvedPath chosen ids (record.withWorktrees primary worktreeIds))
  | journaling {resolvedPath chosen record registry primary worktreeIds} (rootNumber : Nat)
      (ground : Ground before homedir path findings registry) (fresh : Fresh registry record) :
      Alone (before.alone
        ((registry.file record).complete (record.withWorktrees primary worktreeIds)) rootNumber
        (before.number + 1)
        (some (.journaling resolvedPath chosen (record.withWorktrees primary worktreeIds))))
        (.journaling resolvedPath chosen (record.withWorktrees primary worktreeIds))

def Call.awaits : Call → Nat
  | .resolving .. => 11
  | .approving _ => 10
  | .granting .. => 9
  | .pinningRoot .. => 8
  | .rooted .. => 7
  | .checkingRoot .. => 6
  | .readingLayout .. => 5
  | .pinning .. => 4
  | .reconciling .. | .readingWorktrees .. => 3
  | .answered .. => 2
  | .journaling .. | .revoking .. => 1

/-- How taking up one thing goes: a refusal leaves the registry it was registered in. -/
inductive Taken (awaits : Nat) : ApprovalHost × Option Answer → Prop where
  | goesOn {state held} (alone : Alone before homedir path findings state held)
      (fewer : held.awaits < awaits) : Taken awaits (state, none)
  | refused {state : ApprovalHost} (problem : Problem)
      (ground : Ground before homedir path findings state.registry) :
      Taken awaits (state, some (.refused problem))
  | registered (state : ApprovalHost) (approval : RepositoryApproval) :
      Taken awaits (state, some (.registered approval))

end

section Undoing
variable {registry : Registry} {record : RepositoryRecord}

theorem Fresh.new (fresh : Fresh registry record) :
    record.repositoryId ∉ registry.records.values.map RepositoryRecord.repositoryId := by
  intro contained
  obtain ⟨other, member, same⟩ := List.mem_map.mp contained
  have unnamed := fresh.unnamed
  rw [InsertionMap.get?_eq_some.mpr ⟨member, same⟩] at unnamed
  cases unnamed

theorem forget_file (fresh : Fresh registry record) :
    (registry.file record).forget record = registry := by
  unfold Registry.file Registry.forget
  simp only [InsertionMap.erase_set_of_fresh fresh.unnamed, Function.update_idem,
    ← fresh.unbound, Function.update_eq_self]

theorem forget_attachRepository (registry : Registry) (allowedRootId repositoryId : String)
    (record : RepositoryRecord) :
    (registry.attachRepository allowedRootId repositoryId).forget record =
      (registry.forget record).attachRepository allowedRootId repositoryId := by
  unfold Registry.attachRepository Registry.forget
  dsimp only
  split
  · rfl
  · split <;> rfl

theorem detach_attach {allowedRootId repositoryId : String}
    (fresh : ∀ root ∈ registry.roots.values, repositoryId ∉ root.repositoryIds) :
    (registry.attachRepository allowedRootId repositoryId).detachRepository allowedRootId
      repositoryId = registry := by
  unfold Registry.attachRepository
  cases found : registry.roots.get? allowedRootId with
  | none =>
    unfold Registry.detachRepository
    rw [found]
  | some root =>
    obtain ⟨member, named⟩ := InsertionMap.get?_eq_some.mp found
    have absent := fresh root member
    have single : ¬ root.repositoryIds.contains repositoryId = true := fun contained =>
      absent (List.contains_iff_mem.mp contained)
    dsimp only
    rw [if_neg single]
    unfold Registry.detachRepository
    rw [InsertionMap.get?_set, if_pos named]
    dsimp only
    have kept : (root.repositoryIds ++ [repositoryId]).filter (fun id => id ≠ repositoryId) =
        root.repositoryIds := by
      rw [List.filter_append, List.filter_eq_self.mpr]
      · simp
      · intro id contained
        exact decide_eq_true fun same => absent (same ▸ contained)
    rw [kept, InsertionMap.set_set, InsertionMap.set_of_get?]
    · rw [← named] at found
      exact found
    · rfl

theorem unregister_attach_file (fresh : Fresh registry record) :
    ((registry.file record).attachRepository record.allowedRootId record.repositoryId).unregister
      record.repositoryId = registry := by
  unfold Registry.unregister
  have found : (registry.file record).records.get? record.repositoryId = some record := by
    unfold Registry.file
    rw [InsertionMap.get?_set, if_pos rfl]
  rw [(records_attachRepository _ _ _).1, found]
  dsimp only
  rw [forget_attachRepository, forget_file fresh]
  exact detach_attach fresh.unattached

theorem unregister_complete (fresh : Fresh registry record) (primaryWorktreeId : String)
    (worktreeIds : List String) :
    ((registry.file record).complete (record.withWorktrees primaryWorktreeId worktreeIds)).unregister
      record.repositoryId = registry := by
  have refiled : (registry.file record).complete
      (record.withWorktrees primaryWorktreeId worktreeIds) =
        (registry.file (record.withWorktrees primaryWorktreeId worktreeIds)).attachRepository
          record.allowedRootId record.repositoryId := by
    unfold Registry.complete Registry.file
    rw [InsertionMap.set_set]
    · rfl
    · rfl
  have same : Fresh registry (record.withWorktrees primaryWorktreeId worktreeIds) :=
    ⟨fresh.unnamed, fresh.unbound, fresh.unattached⟩
  rw [refiled]
  exact unregister_attach_file same

end Undoing

section Taking
variable {before : ApprovalHost} {homedir path : String} {findings : Findings}
  {registry : Registry} {rootNumber number awaits : Nat} {held : Option Call}

theorem alone_goesOn (next : Call) :
    (before.alone registry rootNumber number held).goesOn before.begun next =
      (before.alone registry rootNumber number (some next), none) := by
  unfold ApprovalHost.goesOn ApprovalHost.alone
  rw [Function.update_idem]

theorem calls_alone : (before.alone registry rootNumber number held).calls before.begun = held :=
  Function.update_self _ _ _

@[simp] theorem registry_alone :
    (before.alone registry rootNumber number held).registry = registry := rfl

theorem Alone.taken {next : Call} (alone : Alone before homedir path findings
      (before.alone registry rootNumber number (some next)) next) (fewer : next.awaits < awaits) :
    Taken before homedir path findings awaits
      ((before.alone registry rootNumber number held).goesOn before.begun next) := by
  rw [alone_goesOn]
  exact .goesOn alone fewer

theorem Ground.refused (ground : Ground before homedir path findings registry) (problem : Problem) :
    Taken before homedir path findings awaits
      ((before.alone registry rootNumber number held).ends before.begun (.refused problem)) :=
  .refused problem ground

theorem Ground.throws (ground : Ground before homedir path findings registry)
    (other : Registry) (resolvedPath : String) (root : RootRecord) (thrown : Thrown) :
    Taken before homedir path findings awaits
      ((before.alone registry rootNumber number held).throws before.begun
        (other.asker resolvedPath root) thrown) :=
  ground.refused _

theorem taken_registersIn (ground : Ground before homedir path findings registry)
    (resolvedPath : String) (root : RootRecord) (most : 7 ≤ awaits) :
    Taken before homedir path findings awaits
      ((before.alone registry rootNumber before.number held).registersIn before.begun resolvedPath
        root) := by
  unfold ApprovalHost.registersIn
  split
  · exact ground.throws registry resolvedPath root _
  · exact (Alone.checkingRoot rootNumber ground).taken most

variable {resolvedPath : String} {origin : Nat → String × String} {record : RepositoryRecord}
  {state : ApprovalHost} {waits : Call}

theorem NeedsRoot.unique {other : String} (needs : NeedsRoot before homedir path findings other)
    (taken : before.pathRefusal path (expandUserPath homedir path) findings.realPath =
      .ok resolvedPath) : other = resolvedPath :=
  Except.ok.inj (needs.taken.symm.trans taken)

theorem taken_resolved (absolute : isAbsolute (expandUserPath homedir path) = true) :
    Taken before homedir path findings 11
      ((before.alone before.registry before.rootNumber before.number held).resolved before.begun
        path (expandUserPath homedir path) findings.realPath) := by
  unfold ApprovalHost.resolved
  have same : (before.alone before.registry before.rootNumber before.number held).pathRefusal path
      (expandUserPath homedir path) findings.realPath =
        before.pathRefusal path (expandUserPath homedir path) findings.realPath := rfl
  rw [same]
  cases refusal : before.pathRefusal path (expandUserPath homedir path) findings.realPath with
  | error problem =>
    have keeps : ¬ NewRoot before homedir path findings := by
      rintro ⟨⟨resolvedPath, needs⟩, -⟩
      rw [needs.taken] at refusal
      cases refusal
    exact (Ground.old keeps).refused problem
  | ok resolvedPath =>
    dsimp only [registry_alone]
    cases around : before.registry.containingRoot resolvedPath with
    | some root =>
      have keeps : ¬ NewRoot before homedir path findings := by
        rintro ⟨⟨other, needs⟩, -⟩
        rw [← needs.unique refusal, needs.outside] at around
        cases around
      exact taken_registersIn (.old keeps) resolvedPath root (by decide)
    | none =>
      dsimp only
      split
      · rename_i executable
        exact (Alone.approving ⟨absolute, refusal, around, executable⟩).taken (by simp [Call.awaits])
      · rename_i unrepresentable
        have keeps : ¬ NewRoot before homedir path findings := by
          rintro ⟨⟨other, needs⟩, -⟩
          exact unrepresentable (needs.unique refusal ▸ needs.executable)
        exact (Ground.old keeps).refused _

theorem taken_approving (needs : NeedsRoot before homedir path findings resolvedPath) :
    Taken before homedir path findings 10
      ((before.alone before.registry before.rootNumber before.number held).approving before.begun
        resolvedPath findings.directory) := by
  cases directory : findings.directory with
  | error thrown =>
    have keeps : ¬ NewRoot before homedir path findings := by
      rintro ⟨-, ⟨found, same, -⟩, -⟩
      rw [directory] at same
      cases same
    exact (Ground.old keeps).refused _
  | ok entry =>
    obtain ⟨found, isDirectory⟩ := entry
    cases isDirectory with
    | false =>
      have keeps : ¬ NewRoot before homedir path findings := by
        rintro ⟨-, ⟨other, same, -⟩, -⟩
        rw [directory] at same
        cases same
      exact (Ground.old keeps).refused _
    | true =>
      unfold ApprovalHost.approving
      dsimp only
      split
      · rename_i absolute
        exact (Alone.granting needs directory absolute).taken (by simp [Call.awaits])
      · rename_i relative_
        have keeps : ¬ NewRoot before homedir path findings := by
          rintro ⟨-, ⟨other, same, absolute⟩, -⟩
          rw [directory] at same
          cases same
          exact relative_ absolute
        exact .refused _ (Ground.old keeps)

theorem taken_granting {found : String}
    (needs : NeedsRoot before homedir path findings resolvedPath)
    (directory : findings.directory = .ok (found, true)) (absolute : isAbsolute found = true) :
    Taken before homedir path findings 9
      ((before.alone before.registry (before.rootNumber + 1) before.number held).granting
        before.begun resolvedPath found (mintedRootId (before.rootNumber + 1))
        findings.granted) := by
  cases granted : findings.granted with
  | error thrown =>
    have keeps : ¬ NewRoot before homedir path findings := by
      rintro ⟨-, -, other, same⟩
      rw [granted] at same
      cases same
    exact (Ground.old keeps).refused _
  | ok entry =>
    obtain ⟨place, isDirectory⟩ := entry
    cases isDirectory with
    | false =>
      have keeps : ¬ NewRoot before homedir path findings := by
        rintro ⟨-, -, other, same⟩
        rw [granted] at same
        cases same
      exact (Ground.old keeps).refused _
    | true =>
      have new : NewRoot before homedir path findings :=
        ⟨⟨resolvedPath, needs⟩, ⟨found, directory, absolute⟩, ⟨place, granted⟩⟩
      exact (Alone.pinningRoot new).taken (by simp [Call.awaits])

theorem taken_pinnedRoot {found granted : String} (new : NewRoot before homedir path findings) :
    Taken before homedir path findings 8 ((before.alone
        { before.registry with
          handleRoots := Function.update before.registry.handleRoots
            (mintedRootId (before.rootNumber + 1)) (some granted) }
        (before.rootNumber + 1) before.number held).pinnedRoot before.begun resolvedPath found
        (mintedRootId (before.rootNumber + 1))) :=
  (Alone.rooted (before.rootNumber + 1) (.widened found granted new)).taken (by simp [Call.awaits])

theorem taken_checkedRoot (ground : Ground before homedir path findings registry)
    (resolvedPath : String) (chosen root : RootRecord) (relativePath : String)
    (state : DirectoryState) : Taken before homedir path findings 6
      ((before.alone registry rootNumber before.number held).checkedRoot before.begun
        (registry.asker resolvedPath chosen) root relativePath state) := by
  unfold ApprovalHost.checkedRoot
  split
  · exact ground.throws registry resolvedPath chosen _
  · exact ground.throws registry resolvedPath chosen _
  · split
    · exact ground.throws registry resolvedPath chosen _
    · split
      · exact ground.throws registry resolvedPath chosen _
      · exact (Alone.readingLayout rootNumber ground).taken (by simp [Call.awaits])

theorem Ground.sound (ground : Ground before homedir path findings registry)
    (sound : Sound origin before) :
    registry.Sound origin before.number (before.rootNumber + 1) := by
  have old := sound.registry.mono (Nat.le_refl _) (Nat.le_succ before.rootNumber)
  cases ground with
  | old keeps => exact old
  | widened found granted new =>
    refine (old.grant (Function.update _ _ _)).setRoot ?_ ?_
    · exact ⟨_, Nat.le_refl _, rfl⟩
    · rintro repositoryId ⟨⟩

theorem fresh_of_sound (sound : registry.Sound origin number rootNumber)
    (named : record.repositoryId = mintedRepositoryId (number + 1))
    (free : (registry.repositoryIdByCommonDir record.commonDir).bind registry.records.get? = none) :
    Fresh registry record where
  unnamed := by
    cases found : registry.records.get? record.repositoryId with
    | none => rfl
    | some other =>
      obtain ⟨member, same⟩ := InsertionMap.get?_eq_some.mp found
      obtain ⟨drawn, within, drew, -⟩ := sound.stored other member
      have equal := mintedRepositoryId_injective (drew.symm.trans (same.trans named))
      omega
  unbound := sound.unbound free
  unattached root member contained := by
    obtain ⟨drawn, within, drew⟩ := sound.attached root member _ contained
    have equal := mintedRepositoryId_injective (drew.symm.trans named)
    omega

theorem taken_readLayout (sound : Sound origin before)
    (ground : Ground before homedir path findings registry) (resolvedPath : String)
    (chosen : RootRecord) (allowedRootId rootPath : String) (found : LayoutRead) :
    Taken before homedir path findings 5
      ((before.alone registry rootNumber before.number held).readLayout before.begun
        (registry.asker resolvedPath chosen) allowedRootId rootPath found) := by
  unfold ApprovalHost.readLayout
  split
  · exact ground.throws registry resolvedPath chosen _
  · rename_i place layout read
    split
    · rename_i existing stands
      obtain ⟨repositoryId, -, found⟩ := Option.bind_eq_some_iff.mp stands
      have member := (InsertionMap.get?_eq_some.mp found).1
      exact (Alone.reconciling rootNumber ground member).taken (by simp [Call.awaits])
    · rename_i free
      have fresh : Fresh registry
          { repositoryId := mintedRepositoryId (before.number + 1)
            allowedRootId
            displayPath := place
            displayName := baseName place
            layout
            primaryWorktreeId := ""
            worktreeIds := [] } := fresh_of_sound (ground.sound sound) rfl free
      exact (Alone.pinning rootNumber ground fresh).taken (by simp [Call.awaits])

theorem taken_reconciled (ground : Ground before homedir path findings registry)
    (resolvedPath : String) (chosen : RootRecord) (stands : record ∈ registry.records.values)
    (found : Except Thrown Unit) : Taken before homedir path findings 3
      ((before.alone registry rootNumber before.number held).reconciled before.begun
        (registry.asker resolvedPath chosen) record found) := by
  cases found with
  | error thrown => exact ground.throws registry resolvedPath chosen _
  | ok done =>
    have known : record.repositoryId ∈
        registry.records.values.map RepositoryRecord.repositoryId := List.mem_map_of_mem stands
    exact (Alone.known rootNumber ground known).taken (by simp [Call.awaits])

theorem taken_pinned (ground : Ground before homedir path findings registry) (resolvedPath : String)
    (chosen : RootRecord) (fresh : Fresh registry record) : Taken before homedir path findings 4
      ((before.alone registry rootNumber (before.number + 1) held).pinned before.begun
        (registry.asker resolvedPath chosen) record) :=
  (Alone.readingWorktrees rootNumber ground fresh).taken (by simp [Call.awaits])

theorem taken_readWorktrees (ground : Ground before homedir path findings registry)
    (resolvedPath : String) (chosen : RootRecord) (fresh : Fresh registry record)
    (found : Except Thrown (List HostWorktree)) : Taken before homedir path findings 3
      ((before.alone (registry.file record) rootNumber (before.number + 1) held).readWorktrees
        before.begun (registry.asker resolvedPath chosen) record found) := by
  have failed : Ground before homedir path findings ((registry.file record).forget record) := by
    rw [forget_file fresh]
    exact ground
  unfold ApprovalHost.readWorktrees
  split
  · exact .refused _ failed
  · split
    · exact .refused _ failed
    · exact (Alone.answered rootNumber ground fresh fresh.new).taken (by simp [Call.awaits])

theorem taken_journaled (ground : Ground before homedir path findings registry)
    (resolvedPath : String) (chosen : RootRecord) (fresh : Fresh registry record) (primary : String)
    (worktreeIds : List String) (written : Except String Unit) :
    Taken before homedir path findings 1 ((before.alone
        ((registry.file record).complete (record.withWorktrees primary worktreeIds)) rootNumber
        (before.number + 1) held).journaled before.begun resolvedPath chosen
        (record.withWorktrees primary worktreeIds) written) := by
  cases written with
  | error message =>
    have left : Ground before homedir path findings
        (((registry.file record).complete
          (record.withWorktrees primary worktreeIds)).unregister record.repositoryId) := by
      rw [unregister_complete fresh]
      exact ground
    exact .refused _ left
  | ok done => exact .registered _ _

theorem taken_resume (sound : Sound origin before)
    (alone : Alone before homedir path findings state waits) :
    Taken before homedir path findings waits.awaits
      (state.resume before.begun (findings.found waits)) := by
  unfold ApprovalHost.resume
  cases alone with
  | resolving absolute =>
    rw [calls_alone]
    exact taken_resolved absolute
  | approving needs =>
    rw [calls_alone]
    exact taken_approving needs
  | granting needs directory absolute =>
    rw [calls_alone]
    exact taken_granting needs directory absolute
  | pinningRoot new =>
    rw [calls_alone]
    exact taken_pinnedRoot new
  | rooted rootNumber ground =>
    rw [calls_alone]
    exact taken_registersIn ground _ _ (Nat.le_refl 7)
  | checkingRoot rootNumber ground =>
    rw [calls_alone]
    exact taken_checkedRoot ground _ _ _ _ _
  | readingLayout rootNumber ground =>
    rw [calls_alone]
    exact taken_readLayout sound ground _ _ _ _ _
  | reconciling rootNumber ground stands =>
    rw [calls_alone]
    exact taken_reconciled ground _ _ stands _
  | pinning rootNumber ground fresh =>
    rw [calls_alone]
    exact taken_pinned ground _ _ fresh
  | readingWorktrees rootNumber ground fresh =>
    rw [calls_alone]
    exact taken_readWorktrees ground _ _ fresh _
  | known rootNumber ground stands =>
    rw [calls_alone]
    dsimp only [Findings.found]
    unfold ApprovalHost.answered
    rw [if_pos (List.contains_iff_mem.mpr stands)]
    exact ground.refused _
  | answered rootNumber ground fresh new =>
    rw [calls_alone]
    dsimp only [Findings.found]
    unfold ApprovalHost.answered
    split
    · rename_i contained
      exact absurd (List.contains_iff_mem.mp contained) new
    · exact (Alone.journaling rootNumber ground fresh).taken (by simp [Call.awaits])
  | journaling rootNumber ground fresh =>
    rw [calls_alone]
    exact taken_journaled ground _ _ fresh _ _ _

theorem Alone.calls (alone : Alone before homedir path findings state waits) :
    state.calls before.begun = some waits := by
  cases alone <;> exact calls_alone

theorem taken_finish (sound : Sound origin before)
    (alone : Alone before homedir path findings state waits) (enough : waits.awaits ≤ awaits) :
    Taken before homedir path findings 0 (state.finish findings before.begun awaits) := by
  induction awaits generalizing state waits with
  | zero =>
    cases waits <;> simp [Call.awaits] at enough
  | succ awaits ih =>
    have taken := taken_resume sound alone
    unfold finish
    rw [alone.calls]
    dsimp only
    generalize state.resume before.begun (findings.found waits) = next at taken
    cases taken with
    | goesOn alone fewer => exact ih alone (by omega)
    | refused problem ground => exact .refused problem ground
    | registered state approval => exact .registered state approval

theorem taken_register (sound : Sound origin before) (homedir path : String) (findings : Findings) :
    Taken before homedir path findings 0 (before.registerAlone homedir path findings) := by
  unfold registerAlone register
  dsimp only
  cases absolute : isAbsolute (expandUserPath homedir path) with
  | false =>
    have keeps : ¬ NewRoot before homedir path findings := by
      rintro ⟨⟨resolvedPath, needs⟩, -⟩
      rw [needs.absolute] at absolute
      cases absolute
    exact .refused _ (Ground.old keeps)
  | true => exact taken_finish sound (.resolving absolute) (Nat.le_refl 11)

end Taking

end Refyard.Approvals
