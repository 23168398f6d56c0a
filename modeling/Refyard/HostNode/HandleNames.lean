import Refyard.HostNode.Handles
import Mathlib.Data.Nat.Digits.Lemmas

/-! When a handle names one directory for ever. Its text is a number and a hash with nothing in
between, so that two pairs can have one text; and it is resolved in the root that has the id
by then. -/
namespace Refyard.Handles
open Approvals

section Text

def width (value : Nat) : Nat := if value = 0 then 1 else (Nat.digits 36 value).length

def code (number value : Nat) : Nat := number * 36 ^ width value + value

theorem base36_code {number : Nat} (positive : 0 < number) (value : Nat) :
    base36 (code number value) = base36 number ++ base36 value := by
  have digits : Nat.digits 36 (code number value) =
      (if value = 0 then [0] else Nat.digits 36 value) ++ Nat.digits 36 number := by
    unfold code width
    split
    · rename_i zero
      rw [zero, Nat.add_zero, pow_one, mul_comm, Nat.digits_base_mul (by decide) positive,
        List.singleton_append]
    · rw [Nat.digits_append_digits (by decide), add_comm, mul_comm]
  have shows : code number value ≠ 0 := by
    have : 0 < number * 36 ^ width value := Nat.mul_pos positive (by positivity)
    unfold code
    omega
  rw [← String.toList_inj, String.toList_append]
  unfold base36
  rw [if_neg shows, if_neg positive.ne', String.toList_ofList, String.toList_ofList, digits]
  split
  · rw [List.reverse_append, List.map_append]
    rfl
  · rw [List.reverse_append, List.map_append, String.toList_ofList]

theorem handleText_inj {number other : Nat} (positive : 0 < number) (alsoPositive : 0 < other)
    {rootId relativePath otherId otherPath : String} :
    handleText number rootId relativePath = handleText other otherId otherPath ↔
      code number (shownHash rootId relativePath) = code other (shownHash otherId otherPath) := by
  have spelled (number : Nat) (positive : 0 < number) (rootId relativePath : String) :
      handleText number rootId relativePath =
        "dir_" ++ base36 (code number (shownHash rootId relativePath)) := by
    rw [base36_code positive, ← String.append_assoc]
    rfl
  rw [spelled number positive, spelled other alsoPositive]
  constructor
  · intro same
    apply base36_injective
    simpa [String.toList_append] using same
  · intro same
    rw [same]

end Text

namespace Mint

def pair (mint : Mint) : String × String := (mint.root.allowedRootId, mint.relativePath)

def code (mint : Mint) : Nat := Handles.code mint.number (shownHash mint.pair.1 mint.pair.2)

def directory (mint : Mint) : String := candidate mint.root mint.relativePath

end Mint

/-- What resolving a handle gives is the real path of its directory, inside its root. -/
structure Mint.ResolvedBy (mint : Mint) (files : FileAnswers) (found : ResolvedHandle) : Prop where
  real : (files.realpath mint.directory).map Subtype.val = some found.absolutePath
  inside : isInsideOrEqual mint.root.path.1 found.absolutePath = true
  directory : files.isDirectory found.absolutePath = some true

namespace HandleRegistry

/-- The handles of different pairs are different, and each leads to its directory or fails,
whatever the file system holds. -/
structure NamesOne (registry : HandleRegistry) : Prop where
  distinct : ∀ first ∈ registry.minted, ∀ second ∈ registry.minted, first.pair ≠ second.pair →
    first.handle ≠ second.handle
  resolved : ∀ mint ∈ registry.minted, ∀ files found,
    registry.resolve mint.handle files = .ok found → mint.ResolvedBy files found

def approves (registry : HandleRegistry) : HandleCall → Option ApprovedRoot
  | .approveRoot allowedRootId path parentRootId files =>
      (registry.rootToApprove allowedRootId path parentRootId files).toOption
  | _ => none

def mintsFor (registry : HandleRegistry) : HandleCall → Option (ApprovedRoot × String)
  | .handleFor allowedRootId relativePath =>
      (registry.handleRoot allowedRootId relativePath).toOption.map fun root => (root, relativePath)
  | .resolveDestination allowedRootId relativePath =>
      (registry.destinationRoot allowedRootId relativePath).toOption.map fun root =>
        (root, relativePath)
  | _ => none

/-- No root in which handles were minted is approved at another path, and the number and the
hash of a new handle do not show what those of another pair's handle show. -/
structure Fits (registry : HandleRegistry) (call : HandleCall) : Prop where
  roots : ∀ root, registry.approves call = some root → ∀ mint ∈ registry.minted,
    mint.root.allowedRootId = root.allowedRootId → mint.root.path = root.path
  codes : ∀ root relativePath, registry.mintsFor call = some (root, relativePath) →
    ∀ mint ∈ registry.minted, mint.pair ≠ (root.allowedRootId, relativePath) →
      mint.code ≠ code registry.nextNumber (shownHash root.allowedRootId relativePath)

structure Sound (registry : HandleRegistry) : Prop where
  spelled : ∀ mint ∈ registry.minted,
    mint.handle = handleText mint.number mint.pair.1 mint.pair.2 ∧ 0 < mint.number
  safe : ∀ mint ∈ registry.minted,
    mint.relativePath.isEmpty = true ∨ isSafeRelativePath mint.relativePath = true

structure Kept (registry : HandleRegistry) : Prop where
  distinct : ∀ first ∈ registry.minted, ∀ second ∈ registry.minted, first.pair ≠ second.pair →
    first.code ≠ second.code
  held : ∀ mint ∈ registry.minted,
    registry.handles.get? mint.handle = some ⟨mint.handle, mint.pair.1, mint.pair.2⟩
  rooted : ∀ mint ∈ registry.minted, ∃ root,
    registry.roots.get? mint.root.allowedRootId = some root ∧ root.path = mint.root.path

end HandleRegistry

section
variable {registry : HandleRegistry} {root : ApprovedRoot} {relativePath : String}

theorem isRealPath_candidate (safe : relativePath.isEmpty = true ∨ isSafeRelativePath relativePath = true) :
    IsRealPath (candidate root relativePath) := by
  unfold candidate
  split
  · exact root.path.2
  · rename_i some_char
    exact isRealPath_join root.path.2 (proper_of_isSafe (safe.resolve_left some_char))

theorem isInsideOrEqual_candidate
    (safe : relativePath.isEmpty = true ∨ isSafeRelativePath relativePath = true) :
    isInsideOrEqual root.path.1 (candidate root relativePath) = true := by
  unfold candidate
  split
  · exact isInsideOrEqual_self _
  · rename_i some_char
    exact isInsideOrEqual_join root.path.2 (proper_of_isSafe (safe.resolve_left some_char))

theorem candidate_inj {other : ApprovedRoot}
    (safe : relativePath.isEmpty = true ∨ isSafeRelativePath relativePath = true)
    (same : candidate root relativePath = candidate other relativePath) :
    root.path = other.path := by
  unfold candidate at same
  apply Subtype.ext
  split at same
  · exact same
  · rename_i some_char
    exact join_inj root.path.2 other.path.2 (proper_of_isSafe (safe.resolve_left some_char)) same

theorem requireRoot_eq_ok {allowedRootId : String} (found : registry.requireRoot allowedRootId = .ok root) :
    registry.roots.get? allowedRootId = some root := by
  unfold HandleRegistry.requireRoot at found
  split at found
  · rename_i same
    rw [same, Except.ok.inj found]
  · cases found

theorem mintsFor_eq_some {call : HandleCall} (mints : registry.mintsFor call = some (root, relativePath)) :
    registry.roots.get? root.allowedRootId = some root ∧
      (relativePath.isEmpty = true ∨ isSafeRelativePath relativePath = true) := by
  have filed {allowedRootId : String} (found : registry.requireRoot allowedRootId = .ok root) :
      registry.roots.get? root.allowedRootId = some root := by
    have held := requireRoot_eq_ok found
    rwa [(InsertionMap.get?_eq_some.mp held).2]
  cases call with
  | approveRoot allowedRootId path parentRootId files => cases mints
  | resolve handle files => cases mints
  | handleFor allowedRootId path =>
    simp only [HandleRegistry.mintsFor, HandleRegistry.handleRoot, Option.map_eq_some_iff,
      Prod.mk.injEq] at mints
    obtain ⟨found, answered, rfl, rfl⟩ := mints
    cases held : registry.requireRoot allowedRootId with
    | error error => rw [held] at answered; cases answered
    | ok other =>
      rw [held] at answered
      split at answered
      · cases answered
      · rename_i fine
        obtain rfl := Option.some.inj answered
        refine ⟨filed held, ?_⟩
        cases empty : path.isEmpty with
        | true => exact .inl rfl
        | false => exact .inr (by simpa [empty] using fine)
  | resolveDestination allowedRootId path =>
    simp only [HandleRegistry.mintsFor, HandleRegistry.destinationRoot, Option.map_eq_some_iff,
      Prod.mk.injEq] at mints
    obtain ⟨found, answered, rfl, rfl⟩ := mints
    cases held : registry.requireRoot allowedRootId with
    | error error => rw [held] at answered; cases answered
    | ok other =>
      rw [held] at answered
      simp only [bind, Except.bind] at answered
      split at answered
      · cases answered
      · rename_i fine
        split at answered
        · obtain rfl := Option.some.inj answered
          exact ⟨filed held, .inr (by simpa using fine)⟩
        · cases answered

theorem next_cases (registry : HandleRegistry) (call : HandleCall) :
    (∃ root, registry.approves call = some root ∧ registry.mintsFor call = none ∧
      registering.next registry call = { registry with roots := registry.roots.set root }) ∨
    (∃ root relativePath, registry.approves call = none ∧
      registry.mintsFor call = some (root, relativePath) ∧
      registering.next registry call = (registry.mintHandle root relativePath).2) ∨
    registry.approves call = none ∧ registry.mintsFor call = none ∧
      registering.next registry call = registry := by
  cases call with
  | approveRoot allowedRootId path parentRootId files =>
    simp only [HandleRegistry.approves, HandleRegistry.mintsFor, Machine.next, registering,
      HandleRegistry.approveRoot]
    cases registry.rootToApprove allowedRootId path parentRootId files with
    | error error => exact .inr (.inr ⟨rfl, trivial, rfl⟩)
    | ok root => exact .inl ⟨root, rfl, trivial, rfl⟩
  | handleFor allowedRootId relativePath =>
    simp only [HandleRegistry.approves, HandleRegistry.mintsFor, Machine.next, registering,
      HandleRegistry.handleFor]
    cases registry.handleRoot allowedRootId relativePath with
    | error error => exact .inr (.inr ⟨trivial, rfl, rfl⟩)
    | ok root => exact .inr (.inl ⟨root, relativePath, trivial, rfl, rfl⟩)
  | resolve handle files =>
    simp only [HandleRegistry.approves, HandleRegistry.mintsFor, Machine.next, registering]
    cases registry.resolve handle files with
    | error error => exact .inr (.inr ⟨trivial, trivial, rfl⟩)
    | ok found => exact .inr (.inr ⟨trivial, trivial, rfl⟩)
  | resolveDestination allowedRootId relativePath =>
    simp only [HandleRegistry.approves, HandleRegistry.mintsFor, Machine.next, registering,
      HandleRegistry.resolveDestination]
    cases registry.destinationRoot allowedRootId relativePath with
    | error error => exact .inr (.inr ⟨trivial, rfl, rfl⟩)
    | ok root => exact .inr (.inl ⟨root, relativePath, trivial, rfl, rfl⟩)

namespace HandleRegistry

def nextMint (registry : HandleRegistry) (root : ApprovedRoot) (relativePath : String) : Mint where
  number := registry.nextNumber
  handle := handleText registry.nextNumber root.allowedRootId relativePath
  root := root
  relativePath := relativePath

theorem minted_mintHandle (registry : HandleRegistry) (root : ApprovedRoot) (relativePath : String) :
    (registry.mintHandle root relativePath).2.minted =
      registry.minted ++ [registry.nextMint root relativePath] := rfl

theorem forall_mem_minted {holds : Mint → Prop} :
    (∀ mint ∈ (registry.mintHandle root relativePath).2.minted, holds mint) ↔
      (∀ mint ∈ registry.minted, holds mint) ∧ holds (registry.nextMint root relativePath) := by
  rw [minted_mintHandle]
  simp only [List.forall_mem_append, List.forall_mem_singleton]

theorem Sound.next (h : registry.Sound) (call : HandleCall) :
    (registering.next registry call).Sound := by
  obtain ⟨root, -, -, moves⟩ | ⟨root, relativePath, -, mints, moves⟩ | ⟨-, -, moves⟩ :=
    next_cases registry call
  · rw [moves]
    exact ⟨h.spelled, h.safe⟩
  · rw [moves]
    constructor
    · exact forall_mem_minted.mpr ⟨h.spelled, rfl, Nat.succ_pos _⟩
    · exact forall_mem_minted.mpr ⟨h.safe, (mintsFor_eq_some mints).2⟩
  · rw [moves]
    exact h

theorem Sound.code_ne_iff (h : registry.Sound) {first second : Mint}
    (isFirst : first ∈ registry.minted) (isSecond : second ∈ registry.minted) :
    first.code ≠ second.code ↔ first.handle ≠ second.handle := by
  obtain ⟨spelled, positive⟩ := h.spelled first isFirst
  obtain ⟨spelledSecond, positiveSecond⟩ := h.spelled second isSecond
  rw [spelled, spelledSecond]
  exact (handleText_inj positive positiveSecond).not.symm

theorem Kept.namesOne (h : registry.Kept) (sound : registry.Sound) : registry.NamesOne := by
  constructor
  · intro first isFirst second isSecond differ
    exact (sound.code_ne_iff isFirst isSecond).mp (h.distinct first isFirst second isSecond differ)
  · intro mint member files found resolves
    obtain ⟨root, filed, same⟩ := h.rooted mint member
    have held := h.held mint member
    have directory : candidate root mint.relativePath = mint.directory := by
      rw [Mint.directory, candidate, candidate, same]
    unfold resolve at resolves
    rw [held] at resolves
    dsimp only [Mint.pair] at resolves
    rw [filed] at resolves
    dsimp only at resolves
    rw [directory] at resolves
    split at resolves
    · cases resolves
    · rename_i real answered
      split at resolves
      · rename_i inside
        split at resolves
        · cases resolves
        · cases resolves
        · rename_i stands
          obtain rfl := Except.ok.inj resolves
          exact ⟨by rw [answered]; rfl, same ▸ inside, stands⟩
      · cases resolves

theorem Kept.next (h : registry.Kept) (sound : registry.Sound) {call : HandleCall}
    (fits : registry.Fits call) : (registering.next registry call).Kept := by
  obtain ⟨root, approves, -, moves⟩ | ⟨root, relativePath, -, mints, moves⟩ | ⟨-, -, moves⟩ :=
    next_cases registry call
  · rw [moves]
    refine ⟨h.distinct, h.held, fun mint member => ?_⟩
    rw [InsertionMap.get?_set]
    split
    · rename_i same
      exact ⟨root, rfl, (fits.roots root approves mint member same.symm).symm⟩
    · exact h.rooted mint member
  · obtain ⟨filed, -⟩ := mintsFor_eq_some mints
    have apart := fits.codes root relativePath mints
    rw [moves]
    constructor
    · rw [forall_mem_minted]
      constructor
      · intro first isFirst
        rw [forall_mem_minted]
        exact ⟨h.distinct first isFirst, apart first isFirst⟩
      · rw [forall_mem_minted]
        refine ⟨fun second isSecond differ => ?_, fun differ => absurd rfl differ⟩
        exact (apart second isSecond differ.symm).symm
    · rw [forall_mem_minted]
      constructor
      · intro mint member
        simp only [mintHandle, InsertionMap.get?_set]
        split
        · rename_i same
          -- an earlier handle with the text that is filed now is of the same pair
          obtain ⟨spelled, positive⟩ := sound.spelled mint member
          have pair : mint.pair = (root.allowedRootId, relativePath) := by
            by_contra differ
            apply apart mint member differ
            exact ((handleText_inj (Nat.succ_pos _) positive).mp (same.trans spelled)).symm
          rw [pair, same]
        · exact h.held mint member
      · simp only [mintHandle, InsertionMap.get?_set]
        exact if_pos rfl
    · exact forall_mem_minted.mpr ⟨h.rooted, root, filed, rfl⟩
  · rw [moves]
    exact h

def onlyPath (path : RealPath) : FileAnswers where
  realpath asked := if asked = path.1 then some path else none
  isDirectory _ := some true

theorem eq_of_onlyPath {path : RealPath} {asked answer : String}
    (leads : ((onlyPath path).realpath asked).map Subtype.val = some answer) : asked = path.1 := by
  unfold onlyPath at leads
  dsimp only at leads
  split at leads
  · assumption
  · cases leads

theorem resolve_onlyPath (registry : HandleRegistry) {handle : String} {record : HandleRecord}
    (held : registry.handles.get? handle = some record)
    (filed : registry.roots.get? record.rootId = some root) {path : RealPath}
    (leads : candidate root record.relativePath = path.1)
    (inside : isInsideOrEqual root.path.1 path.1 = true) : registry.resolve handle (onlyPath path) =
      .ok { handle, absolutePath := path.1, root, relativePath := record.relativePath } := by
  unfold resolve
  simp only [held, filed, onlyPath, if_pos leads, inside, if_true]

theorem NamesOne.fits {call : HandleCall} (sound : registry.Sound) (kept : registry.Kept)
    (good : (registering.next registry call).NamesOne) : registry.Fits call := by
  constructor
  · intro root approves mint member same
    obtain ⟨other, approvesOther, -, moves⟩ | ⟨-, -, none, -⟩ | ⟨none, -⟩ :=
      next_cases registry call
    · rw [approves] at approvesOther
      obtain rfl := Option.some.inj approvesOther
      rw [moves] at good
      have safe := sound.safe mint member
      let path : RealPath := ⟨candidate root mint.relativePath, isRealPath_candidate safe⟩
      have filed : (registry.roots.set root).get? mint.pair.1 = some root := by
        rw [InsertionMap.get?_set]
        exact if_pos same.symm
      have resolves := resolve_onlyPath { registry with roots := registry.roots.set root }
        (kept.held mint member) filed (show _ = path.1 from rfl) (isInsideOrEqual_candidate safe)
      have leads := (good.resolved mint member _ _ resolves).real
      exact candidate_inj safe (eq_of_onlyPath leads)
    · rw [approves] at none
      cases none
    · rw [approves] at none
      cases none
  · intro root relativePath mints mint member differ
    obtain ⟨-, -, none, -⟩ | ⟨other, otherPath, -, mintsOther, moves⟩ | ⟨-, none, -⟩ :=
      next_cases registry call
    · rw [mints] at none
      cases none
    · rw [mints, Option.some_inj, Prod.mk.injEq] at mintsOther
      obtain ⟨rfl, rfl⟩ := mintsOther
      rw [moves] at good
      obtain ⟨spelled, positive⟩ := sound.spelled mint member
      have apart := (forall_mem_minted.mp (good.distinct mint
        (List.mem_append_left _ member))).2 differ
      rw [spelled] at apart
      exact fun same => apart ((handleText_inj positive (Nat.succ_pos _)).mpr same)
    · rw [mints] at none
      cases none

end HandleRegistry

end

/-- In every run, the handles of different pairs are different and each leads to the directory
it was minted for, exactly where every call fits. -/
theorem handles_name_one_directory (calls : List HandleCall) :
    (∀ front, front <+: calls → (registering.after {} front).NamesOne) ↔
      registering.Meets HandleRegistry.Fits {} calls := by
  have sound : HandleRegistry.Sound {} := ⟨by simp, by simp⟩
  have kept : HandleRegistry.Kept {} := ⟨by simp, by simp, by simp⟩
  apply registering.good_iff_meets (fun registry => registry.Sound ∧ registry.Kept)
    HandleRegistry.NamesOne
  · intro registry call held fits
    exact ⟨held.1.next call, held.2.next held.1 fits⟩
  · intro registry call held
    constructor
    · exact HandleRegistry.NamesOne.fits held.1 held.2
    · exact fun fits => (held.2.next held.1 fits).namesOne (held.1.next call)
  · exact ⟨sound, kept⟩
  · exact kept.namesOne sound

def work : RealPath where
  val := "/work"
  property := by
    refine ⟨["work".toList], by decide, fun name member => ?_⟩
    obtain rfl := List.mem_singleton.mp member
    exact ⟨⟨by decide, by decide, by decide⟩, by decide⟩

/-- A handle for one directory, forty for others, and one for a last directory. -/
def collidingCalls : List HandleCall :=
  [.approveRoot "root_1" "/work" none (HandleRegistry.onlyPath work),
    .handleFor "root_1" "jobs/notes-tools"] ++
    List.replicate 39 (.handleFor "root_1" "") ++ [.handleFor "root_1" "one/docs/core"]

def workRoot : ApprovedRoot where
  allowedRootId := "root_1"
  path := work
  parentRootId := none

/-- The first handle and the forty-first have one text, and what was handed out for the one
directory is resolved to the other. -/
theorem forty_handles_later :
    let registry := registering.after {} collidingCalls
    let text := handleText 1 "root_1" "jobs/notes-tools"
    let first : Mint := ⟨1, text, workRoot, "jobs/notes-tools"⟩
    let last : Mint := ⟨41, text, workRoot, "one/docs/core"⟩
    first ∈ registry.minted ∧ last ∈ registry.minted ∧ first.pair ≠ last.pair ∧
      (∃ files found, registry.resolve text files = .ok found ∧
        found.absolutePath = "/work/one/docs/core") ∧
      ¬registry.NamesOne := by
  intro registry text first last
  have run : first ∈ registry.minted ∧ last ∈ registry.minted ∧
      registry.handles.get? text = some ⟨text, "root_1", "one/docs/core"⟩ ∧
      registry.roots.get? "root_1" = some workRoot := by
    decide +kernel
  obtain ⟨isFirst, isLast, held, filed⟩ := run
  have differ : first.pair ≠ last.pair := by decide
  have safe : isSafeRelativePath "one/docs/core" = true := by decide +kernel
  have joined : candidate workRoot "one/docs/core" = "/work/one/docs/core" := by decide +kernel
  let path : RealPath := ⟨candidate workRoot "one/docs/core", isRealPath_candidate (.inr safe)⟩
  have resolves := HandleRegistry.resolve_onlyPath registry held filed (show _ = path.1 from rfl)
    (isInsideOrEqual_candidate (.inr safe))
  refine ⟨isFirst, isLast, differ, ⟨_, _, resolves, joined⟩, fun names => ?_⟩
  exact names.distinct first isFirst last isLast differ rfl

end Refyard.Handles
