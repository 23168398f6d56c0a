import Refyard.DisplayPath
import Refyard.Paths
import Refyard.Reads.History
import Refyard.Writes.Destructive

/-! The worktrees panel: every worktree of a repository. The primary keeps the id of the
registration, and the id of a linked worktree is derived from the path that Git lists, as
`worktreeEntryOf` resolves it. -/
namespace Refyard
open Registration

structure WorktreeSummary where
  worktreeId : String
  displayPath : String
  head : HeadState
  isMain : Bool
  isBare : Bool
  isDetached : Bool
  isLocked : Bool
  lockReason : Option String
  isPrunable : Bool

def WorktreeEntry.isMain (entry : WorktreeEntry) : Bool := entry.isPrimary && !entry.bare

/-- One row. The primary is the row that every other read of the repository addresses. -/
def worktreeSummary (record : Registration.RepositoryRecord) (entry : WorktreeEntry) : WorktreeSummary where
  worktreeId := if entry.isMain then record.worktreeId else worktreeIdForPath entry.path
  displayPath := displayText entry.path
  head :=
    { kind := if entry.headOid.isNone then .unborn else .born
      branchName := entry.branch.map branchNameOf
      oid := entry.headOid
      detached := entry.detached }
  isMain := entry.isMain
  isBare := entry.bare
  isDetached := entry.detached
  isLocked := entry.locked
  lockReason := entry.lockReason.map displayText
  isPrunable := entry.prunable

/-- The directory in which the reads and writes of the registered worktree run. -/
def RunsIn (record : Registration.RepositoryRecord) (path : Bytes) : Prop :=
  ∀ executor plan,
    Utf8.encode ((ReadTarget.mk record executor).command plan).directory.toList = path ∧
      Utf8.encode ((WriteTarget.mk (addressed record) executor record.worktreeId).command
        plan).directory.toList = path

/-- Reads and writes name the worktrees alike, where Git prints these bytes to both. -/
structure IdentitiesAgree (record : Registration.RepositoryRecord) (bytes : Bytes) : Prop where
  distinct : (((parseWorktreeList bytes).map (worktreeSummary record)).map
    WorktreeSummary.worktreeId).Nodup
  registered : ∀ entry ∈ parseWorktreeList bytes,
    (worktreeSummary record entry).worktreeId = record.worktreeId → RunsIn record entry.path
  resolved : ∀ entry ∈ parseWorktreeList bytes,
    (worktreeSummary record entry).worktreeId ≠ record.worktreeId →
      ∃ found ∈ parseWorktreeList bytes, found.path = entry.path ∧
        worktreeEntryOf (worktreeSummary record entry).worktreeId (finishedWith 0 bytes) = .ok found

/-- The repository was registered at the worktree that Git lists first, or is bare, and no
two of the other rows have one path. -/
structure RegisteredFirst (record : Registration.RepositoryRecord) (entries : List WorktreeEntry) : Prop where
  main : ∀ entry ∈ entries, entry.isMain = true →
    entry.path = Utf8.encode record.location.canonicalWorktree.toList
  linked : ((entries.filter fun entry => !entry.isMain).map WorktreeEntry.path).Nodup

def CollisionFree (entries : List WorktreeEntry) : Prop :=
  ∀ first ∈ entries, ∀ second ∈ entries, fnv1a first.path = fnv1a second.path →
    first.path = second.path

theorem runsIn_iff {record : Registration.RepositoryRecord} {path : Bytes} :
    RunsIn record path ↔ path = Utf8.encode record.location.canonicalWorktree.toList := by
  constructor
  · intro runs
    exact (runs .onThisMachine planWorktreeList).1.symm
  · intro same executor plan
    exact ⟨same.symm, same.symm⟩

section
variable {record : Registration.RepositoryRecord} {entries : List WorktreeEntry}
variable {entry : WorktreeEntry}

theorem worktreeId_main (main : entry.isMain = true) :
    (worktreeSummary record entry).worktreeId = record.worktreeId := by
  simp [worktreeSummary, main]

theorem worktreeId_linked (linked : entry.isMain = false) :
    (worktreeSummary record entry).worktreeId = worktreeIdForPath entry.path := by
  simp [worktreeSummary, linked]

theorem worktreeId_iff (minted : record.worktreeId = "wt_1") :
    (worktreeSummary record entry).worktreeId = record.worktreeId ↔ entry.isMain = true := by
  constructor
  · intro same
    by_contra linked
    rw [worktreeId_linked (Bool.eq_false_iff.mpr linked), minted] at same
    exact worktreeIdForPath_ne entry.path same
  · exact worktreeId_main

theorem nodup_derived {rows : List WorktreeEntry} (free : CollisionFree rows)
    (linked : ∀ entry ∈ rows, entry.isMain = false) :
    ((rows.map (worktreeSummary record)).map WorktreeSummary.worktreeId).Nodup ↔
      (rows.map WorktreeEntry.path).Nodup := by
  have derived : (rows.map (worktreeSummary record)).map WorktreeSummary.worktreeId =
      (rows.map WorktreeEntry.path).map worktreeIdForPath := by
    simp only [List.map_map, List.map_inj_left, Function.comp_apply]
    exact fun entry member => worktreeId_linked (linked entry member)
  rw [derived]
  constructor
  · exact List.Nodup.of_map _
  · refine List.Nodup.map_on ?_
    simp only [List.forall_mem_map]
    exact fun first member second also same =>
      free first member second also (worktreeIdForPath_inj.mp same)

theorem nodup_worktreeIds (minted : record.worktreeId = "wt_1") (first : FirstIsPrimary entries)
    (free : CollisionFree entries) :
    ((entries.map (worktreeSummary record)).map WorktreeSummary.worktreeId).Nodup ↔
      ((entries.filter fun entry => !entry.isMain).map WorktreeEntry.path).Nodup := by
  cases entries with
  | nil => simp
  | cons primary rest =>
    have linked : ∀ entry ∈ rest, entry.isMain = false := by
      intro entry member
      simp [WorktreeEntry.isMain, first.2 entry member]
    have others : rest.filter (fun entry => !entry.isMain) = rest := by
      simpa using linked
    cases main : primary.isMain with
    | true =>
      have freeRest : CollisionFree rest := fun one member two also =>
        free one (.tail _ member) two (.tail _ also)
      rw [List.filter_cons_of_neg (by simp [main]), others, List.map_cons, List.map_cons,
        List.nodup_cons, nodup_derived freeRest linked, and_iff_right]
      rw [worktreeId_main main]
      simp only [List.mem_map, not_exists, not_and, forall_exists_index, and_imp]
      rintro row entry member rfl same
      have alsoMain := (worktreeId_iff minted).mp same
      rw [linked entry member] at alsoMain
      cases alsoMain
    | false =>
      rw [List.filter_cons_of_pos (by simp [main]), others]
      apply nodup_derived free
      simpa [main] using linked

theorem worktreeEntryOf_derived {bytes : Bytes} (free : CollisionFree (parseWorktreeList bytes))
    (member : entry ∈ parseWorktreeList bytes) :
    ∃ found ∈ parseWorktreeList bytes, found.path = entry.path ∧
      worktreeEntryOf (worktreeIdForPath entry.path) (finishedWith 0 bytes) = .ok found := by
  cases search : (parseWorktreeList bytes).find? fun other =>
      worktreeIdForPath other.path = worktreeIdForPath entry.path with
  | none =>
    have missed := List.find?_eq_none.mp search entry member
    simp at missed
  | some found =>
    have holds := List.find?_some search
    have among := List.mem_of_find?_eq_some search
    refine ⟨found, among, ?_, ?_⟩
    · exact free found among entry member (worktreeIdForPath_inj.mp (of_decide_eq_true holds))
    · unfold worktreeEntryOf finishedWith
      simp only [bind, Except.bind, search]
      rfl

end

open Registrations in
/-- Whatever was registered and revoked: of a registered repository, the worktrees have one
identity in reads and in writes exactly when it was registered at the worktree that Git
lists first. -/
theorem worktree_identities_agree (steps : List RegistrationStep) {id : String}
    {record : Registration.RepositoryRecord}
    (registered : (registering.after {} steps).registry.get id = some record) {bytes : Bytes}
    (free : CollisionFree (parseWorktreeList bytes)) :
    IdentitiesAgree record bytes ↔ RegisteredFirst record (parseWorktreeList bytes) := by
  have minted : record.worktreeId = "wt_1" := by
    obtain ⟨request, built⟩ := (built_after steps).filed id record registered
    rw [built]
    rfl
  constructor
  · intro h
    constructor
    · intro entry member main
      exact runsIn_iff.mp (h.registered entry member (worktreeId_main main))
    · exact (nodup_worktreeIds minted (firstIsPrimary_parse bytes) free).mp h.distinct
  · intro h
    constructor
    · exact (nodup_worktreeIds minted (firstIsPrimary_parse bytes) free).mpr h.linked
    · intro entry member same
      exact runsIn_iff.mpr (h.main entry member ((worktreeId_iff minted).mp same))
    · intro entry member other
      have linked : entry.isMain = false :=
        Bool.eq_false_iff.mpr fun main => other (worktreeId_main main)
      rw [worktreeId_linked linked]
      exact worktreeEntryOf_derived free member

section
open Registrations

def openedAt (directory : String) : OpenRequest where
  layout :=
    { gitDir := "/repo/.git", topLevel := some directory, commonDir := "/repo/.git"
      isBare := false, objectFormat := "sha1", isShallow := false }
  directory
  allowedRootId := "root_1"
  rootPath := "/"
  relativePath := ""
  targetId := "tgt_local"
  targetGeneration := "gen_1"

def registeredAt (directory : String) : Registration.RepositoryRecord :=
  (buildRecord (openedAt directory) (mintedId 1)).settled

def printedWorktrees : Bytes :=
  asciiBytes "worktree /repo\x00branch refs/heads/main\x00\x00worktree /linked\x00detached\x00\x00"

def printedEntry (path : String) (branch : Option String) (isPrimary : Bool) : WorktreeEntry where
  path := asciiBytes path
  locked := false
  lockReason := none
  headOid := none
  branch
  detached := !isPrimary
  bare := false
  prunable := false
  isPrimary

theorem parse_printedWorktrees : parseWorktreeList printedWorktrees =
      [printedEntry "/repo" (some "refs/heads/main") true, printedEntry "/linked" none false] := by
  unfold printedWorktrees
  rw [asciiBytes_ofList]
  decide +kernel

theorem collisionFree_printed : CollisionFree (parseWorktreeList printedWorktrees) := by
  have apart : fnv1a (asciiBytes "/repo") ≠ fnv1a (asciiBytes "/linked") := by decide +kernel
  rw [parse_printedWorktrees]
  intro first isFirst second isSecond same
  rcases List.mem_pair.mp isFirst with rfl | rfl <;>
    rcases List.mem_pair.mp isSecond with rfl | rfl
  · rfl
  · exact absurd same apart
  · exact absurd same.symm apart
  · rfl

/-- Registered at the main worktree, the repository has one identity for each worktree. -/
theorem worktree_identities_agree_main :
    IdentitiesAgree (registeredAt "/repo") printedWorktrees := by
  have registered : (registering.after {} [.open (openedAt "/repo"), .register 0]).registry.get
      (mintedId 1) = some (registeredAt "/repo") := by
    rfl
  refine (worktree_identities_agree _ registered collisionFree_printed).mpr ?_
  rw [parse_printedWorktrees]
  exact ⟨by simp [printedEntry, WorktreeEntry.isMain]; decide +kernel, by decide +kernel⟩

/-- Registered at its linked worktree, the repository shows the id of the registration on
the row of the main one, while all that names this id runs in the linked one. -/
theorem linked_registration_names_main :
    (registering.after {} [.open (openedAt "/linked"), .register 0]).registry.get (mintedId 1) =
        some (registeredAt "/linked") ∧ CollisionFree (parseWorktreeList printedWorktrees) ∧
      (∃ entry ∈ parseWorktreeList printedWorktrees, entry.path = asciiBytes "/repo" ∧
        (worktreeSummary (registeredAt "/linked") entry).worktreeId =
          (registeredAt "/linked").worktreeId) ∧
      RunsIn (registeredAt "/linked") (asciiBytes "/linked") ∧
      ¬IdentitiesAgree (registeredAt "/linked") printedWorktrees := by
  have main : printedEntry "/repo" (some "refs/heads/main") true ∈
      parseWorktreeList printedWorktrees := by
    rw [parse_printedWorktrees]
    exact List.mem_cons_self
  refine ⟨rfl, collisionFree_printed, ⟨_, main, rfl, rfl⟩, runsIn_iff.mpr (by decide +kernel), ?_⟩
  intro h
  have runs := runsIn_iff.mp (h.registered _ main rfl)
  exact absurd runs (by decide +kernel)

end

end Refyard
