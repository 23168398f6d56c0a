import Refyard.Contract.Problem
import Refyard.Foundation.Utf8
import Refyard.Registration

/-! The binding between path ids and path bytes. An id is the only thing an operation may
name, and it is bound to the bytes it was minted for, in one worktree and on one build of
its target. -/
namespace Refyard.Paths
open Registration

def mintedPathId (number : Nat) : String := s!"path_{base36 number}"

theorem mintedPathId_injective {left right : Nat} (same : mintedPathId left = mintedPathId right) :
    left = right := by
  unfold mintedPathId at same
  apply base36_injective
  simpa [toString, String.toList_inj] using congrArg String.toList same

def bindingKey (worktreeId : String) (bytes : Bytes) : Bytes :=
  Utf8.encode worktreeId.toList ++ 0 :: bytes

theorem bindingKey_inj {worktreeId : String} {left right : Bytes} :
    bindingKey worktreeId left = bindingKey worktreeId right ↔ left = right := by
  simp [bindingKey]

structure PathRegistry where
  next : Nat := 0
  idByKey : Bytes → Option String := fun _ => none
  bytesById : String → Option Bytes := fun _ => none
  generationById : String → Option String := fun _ => none

namespace PathRegistry

def mint (registry : PathRegistry) (worktreeId targetGeneration : String) (bytes : Bytes) :
    String × PathRegistry :=
  let id := mintedPathId (registry.next + 1)
  (id, {
    next := registry.next + 1
    idByKey := Function.update registry.idByKey (bindingKey worktreeId bytes) (some id)
    bytesById := Function.update registry.bytesById id (some bytes)
    generationById := Function.update registry.generationById id (some targetGeneration) })

/-- The id for these bytes in this worktree on this build of the target, minted on first
use. A binding does not survive a rebuild. -/
def bind (registry : PathRegistry) (worktreeId targetGeneration : String) (bytes : Bytes) :
    String × PathRegistry :=
  match registry.idByKey (bindingKey worktreeId bytes) with
  | none => registry.mint worktreeId targetGeneration bytes
  | some existing =>
      if registry.generationById existing = some targetGeneration then (existing, registry)
      else registry.mint worktreeId targetGeneration bytes

def resolve (registry : PathRegistry) (targetGeneration pathId : String) : Option Bytes :=
  if registry.generationById pathId = some targetGeneration then registry.bytesById pathId
  else none

/-- The bytes an id was bound to in this worktree on this build of the target. -/
def resolveIn (registry : PathRegistry) (worktreeId targetGeneration pathId : String) :
    Option Bytes :=
  match registry.resolve targetGeneration pathId with
  | none => none
  | some bytes =>
      if registry.idByKey (bindingKey worktreeId bytes) = some pathId then some bytes else none

end PathRegistry

structure ResolvedPath where
  pathId : String
  bytes : Bytes

def PathRegistry.resolvePath (registry : PathRegistry) (worktreeId targetGeneration pathId : String) :
    Except Problem ResolvedPath :=
  match registry.resolveIn worktreeId targetGeneration pathId with
  | none =>
      .error ((Problem.new .notFound
        "a selected path is unknown in this worktree; reload the status and retry").withDetail
          "pathId" (.text pathId))
  | some bytes =>
      if bytes.contains 0 then
        .error ((Problem.new .unsupportedPathEncoding
          "a selected path's bytes cannot be represented exactly on this host, so the whole batch is refused").withDetail
            "pathId" (.text pathId))
      else .ok { pathId, bytes }

/-- Resolves every selected path id to the bytes it was minted for, or refuses the batch. -/
def PathRegistry.resolvePaths (registry : PathRegistry) (worktreeId targetGeneration : String)
    (pathIds : List String) : Except Problem (List ResolvedPath) :=
  pathIds.mapM (registry.resolvePath worktreeId targetGeneration)

theorem PathRegistry.resolvePaths_ok {registry : PathRegistry}
    {worktreeId targetGeneration : String} {pathIds : List String} {resolved : List ResolvedPath}
    (h : registry.resolvePaths worktreeId targetGeneration pathIds = .ok resolved) :
    resolved.map ResolvedPath.pathId = pathIds ∧ ∀ path ∈ resolved,
      registry.resolveIn worktreeId targetGeneration path.pathId = some path.bytes ∧
        0 ∉ path.bytes := by
  unfold resolvePaths at h
  induction pathIds generalizing resolved with
  | nil =>
    cases h
    simp
  | cons pathId rest ih =>
    rw [List.mapM_cons] at h
    cases first : registry.resolvePath worktreeId targetGeneration pathId with
    | error problem =>
      rw [first] at h
      cases h
    | ok path =>
      cases later : rest.mapM (registry.resolvePath worktreeId targetGeneration) with
      | error problem =>
        rw [first, later] at h
        cases h
      | ok paths =>
        rw [first, later] at h
        cases h
        obtain ⟨ids, held⟩ := ih later
        unfold resolvePath at first
        split at first
        · cases first
        · rename_i bytes found
          split at first
          · cases first
          · rename_i clean
            cases first
            refine ⟨by rw [List.map_cons, ids], ?_⟩
            intro other member
            rw [List.mem_cons] at member
            cases member with
            | inl same => exact same ▸ ⟨found, by simpa using clean⟩
            | inr behind => exact held other behind

namespace PathRegistry

/-- Every id was drawn, and the id that bytes have in the worktree was minted for them. -/
structure Consistent (registry : PathRegistry) (worktreeId : String) : Prop where
  drawn : ∀ id bytes, registry.bytesById id = some bytes →
    ∃ number ≤ registry.next, id = mintedPathId number
  held : ∀ bytes id, registry.idByKey (bindingKey worktreeId bytes) = some id →
    registry.bytesById id = some bytes

theorem consistent_empty (worktreeId : String) : Consistent {} worktreeId := ⟨nofun, nofun⟩

section
variable {registry : PathRegistry} {worktreeId : String}
variable (targetGeneration : String)

theorem idByKey_mint (bytes : Bytes) : (registry.mint worktreeId targetGeneration bytes).2.idByKey =
      Function.update registry.idByKey (bindingKey worktreeId bytes)
        (some (mintedPathId (registry.next + 1))) := rfl

theorem bytesById_mint (bytes : Bytes) :
    (registry.mint worktreeId targetGeneration bytes).2.bytesById =
      Function.update registry.bytesById (mintedPathId (registry.next + 1)) (some bytes) := rfl

theorem generationById_mint (bytes : Bytes) :
    (registry.mint worktreeId targetGeneration bytes).2.generationById =
      Function.update registry.generationById (mintedPathId (registry.next + 1))
        (some targetGeneration) := rfl

theorem Consistent.ne_next (h : registry.Consistent worktreeId) {id : String} {bytes : Bytes}
    (known : registry.bytesById id = some bytes) : id ≠ mintedPathId (registry.next + 1) := by
  obtain ⟨number, within, rfl⟩ := h.drawn id bytes known
  intro same
  have numbers := mintedPathId_injective same
  omega

theorem Consistent.mint (h : registry.Consistent worktreeId) (targetGeneration : String)
    (bytes : Bytes) : (registry.mint worktreeId targetGeneration bytes).2.Consistent worktreeId := by
  constructor
  · intro id other known
    by_cases new : id = mintedPathId (registry.next + 1)
    · exact ⟨registry.next + 1, Nat.le_refl _, new⟩
    · rw [bytesById_mint, Function.update_of_ne new] at known
      obtain ⟨number, within, drawn⟩ := h.drawn id other known
      exact ⟨number, Nat.le_succ_of_le within, drawn⟩
  · intro other id found
    by_cases own : other = bytes
    · subst own
      rw [idByKey_mint, Function.update_self, Option.some_inj] at found
      exact found ▸ Function.update_self _ _ _
    · rw [idByKey_mint, Function.update_of_ne (mt bindingKey_inj.mp own)] at found
      have known := h.held other id found
      exact (Function.update_of_ne (h.ne_next known) _ _).trans known

theorem Consistent.bind (h : registry.Consistent worktreeId) (targetGeneration : String)
    (bytes : Bytes) : (registry.bind worktreeId targetGeneration bytes).2.Consistent worktreeId := by
  unfold PathRegistry.bind
  split
  · exact h.mint targetGeneration bytes
  · split
    · exact h
    · exact h.mint targetGeneration bytes

theorem Consistent.resolve_bind (h : registry.Consistent worktreeId) (targetGeneration : String)
    (bytes : Bytes) : (registry.bind worktreeId targetGeneration bytes).2.resolve targetGeneration
      (registry.bind worktreeId targetGeneration bytes).1 = some bytes := by
  have minted : (registry.mint worktreeId targetGeneration bytes).2.resolve targetGeneration
      (registry.mint worktreeId targetGeneration bytes).1 = some bytes := by
    unfold resolve PathRegistry.mint
    rw [if_pos (Function.update_self _ _ _)]
    exact Function.update_self _ _ _
  unfold PathRegistry.bind
  split
  · exact minted
  · next existing found =>
    split
    · next same =>
      unfold resolve
      rw [if_pos same]
      exact h.held bytes existing found
    · exact minted

theorem Consistent.resolve_of_bind (h : registry.Consistent worktreeId)
    (targetGeneration : String) (bytes : Bytes) {onBuild id : String} {known : Bytes}
    (resolved : registry.resolve onBuild id = some known) :
    (registry.bind worktreeId targetGeneration bytes).2.resolve onBuild id = some known := by
  have minted : (registry.mint worktreeId targetGeneration bytes).2.resolve onBuild id =
      some known := by
    unfold resolve at resolved ⊢
    split at resolved
    · next build =>
      have old := h.ne_next resolved
      rw [generationById_mint, bytesById_mint, Function.update_of_ne old,
        Function.update_of_ne old, if_pos build]
      exact resolved
    · cases resolved
  unfold PathRegistry.bind
  split
  · exact minted
  · split
    · exact resolved
    · exact minted

end

end PathRegistry

structure PathRead where
  request : OpenRequest
  repositoryId : String
  bytes : Bytes

def PathRead.record (read : PathRead) : RepositoryRecord :=
  (buildRecord read.request read.repositoryId).settled

/-- The registry, and which read was answered with which id, newest first. No answer
depends on that record. -/
structure BoundPaths where
  registry : PathRegistry := {}
  bindings : List (PathRead × String) := []

namespace BoundPaths

def bind (paths : BoundPaths) (read : PathRead) : BoundPaths × String :=
  let (pathId, registry) := paths.registry.bind read.record.worktreeId
    read.record.location.targetGeneration read.bytes
  ({ registry, bindings := (read, pathId) :: paths.bindings }, pathId)

def binding : Machine BoundPaths PathRead String where
  step := bind

/-- Whether a read reported this repository, in this worktree, on this build. -/
def ReadOf (repository : RepositoryRecord) (read : PathRead) : Prop :=
  read.record.repositoryId = repository.repositoryId ∧
    read.record.worktreeId = repository.worktreeId ∧
    read.record.location.targetGeneration = repository.location.targetGeneration

/-- What resolves in a repository was bound, to the same bytes, by a read of it. -/
def Contained (paths : BoundPaths) (repository : RepositoryRecord) : Prop :=
  ∀ pathId bytes,
    paths.registry.resolveIn repository.worktreeId repository.location.targetGeneration pathId =
        some bytes →
      ∃ read, (read, pathId) ∈ paths.bindings ∧ read.bytes = bytes ∧ ReadOf repository read

/-- The reads of these bytes behind the last one on another build, newest first. -/
def recent (reads : List PathRead) (targetGeneration : String) (bytes : Bytes) : List PathRead :=
  (reads.reverse.filter fun read => read.bytes = bytes).takeWhile fun read =>
    read.record.location.targetGeneration = targetGeneration

/-- The reads of these bytes with the ids they were answered with, newest first. -/
def owned (paths : BoundPaths) (bytes : Bytes) : List (PathRead × String) :=
  paths.bindings.filter fun bound => bound.1.bytes = bytes

def generation (bound : PathRead × String) : String := bound.1.record.location.targetGeneration

/-- The id that bytes are bound to: the newest reads of them, all on one build, were
answered with it, and no read before them was. -/
structure BoundTo (paths : BoundPaths) (bytes : Bytes) (id targetGeneration : String)
    (block older : List (PathRead × String)) : Prop where
  parts : paths.owned bytes = block ++ older
  nonempty : block ≠ []
  answered : ∀ bound ∈ block, bound.2 = id ∧ generation bound = targetGeneration
  rebuilt : ∀ bound ∈ older.head?, generation bound ≠ targetGeneration
  fresh : ∀ bound ∈ older, bound.2 ≠ id
  bytesById : paths.registry.bytesById id = some bytes
  generationById : paths.registry.generationById id = some targetGeneration

def key (bytes : Bytes) : Bytes := bindingKey "wt_1" bytes

theorem key_inj {left right : Bytes} : key left = key right ↔ left = right := bindingKey_inj

@[simp] theorem worktreeId_record (read : PathRead) : read.record.worktreeId = "wt_1" := rfl

structure Tracks (paths : BoundPaths) : Prop where
  minted : ∀ bound ∈ paths.bindings, ∃ number ≤ paths.registry.next, bound.2 = mintedPathId number
  unbound : ∀ bytes, paths.registry.idByKey (key bytes) = none → paths.owned bytes = []
  bound : ∀ bytes id, paths.registry.idByKey (key bytes) = some id →
    ∃ targetGeneration block older, paths.BoundTo bytes id targetGeneration block older

section
variable {paths : BoundPaths} {bytes : Bytes} {id targetGeneration : String}
  {block older : List (PathRead × String)}

theorem tracks_empty : Tracks {} :=
  ⟨by simp, by simp [owned], by simp⟩

theorem BoundTo.mem (h : paths.BoundTo bytes id targetGeneration block older) :
    ∃ bound ∈ paths.bindings, bound.2 = id := by
  obtain ⟨bound, rest, parts⟩ := List.exists_cons_of_ne_nil h.nonempty
  have member : bound ∈ paths.owned bytes := by
    rw [h.parts, parts]
    simp
  exact ⟨bound, (List.mem_filter.mp member).1, (h.answered bound (by simp [parts])).1⟩

theorem BoundTo.minted (h : paths.BoundTo bytes id targetGeneration block older)
    (tracks : paths.Tracks) : ∃ number ≤ paths.registry.next, id = mintedPathId number := by
  obtain ⟨bound, member, rfl⟩ := h.mem
  exact tracks.minted bound member

theorem owned_cons_same {registry : PathRegistry} (read : PathRead) (pathId : String) :
    owned ⟨registry, (read, pathId) :: paths.bindings⟩ read.bytes =
      (read, pathId) :: paths.owned read.bytes := by
  simp [owned]

variable {read : PathRead}

theorem owned_cons_other {registry : PathRegistry} {pathId : String} (differs : read.bytes ≠ bytes) :
    owned ⟨registry, (read, pathId) :: paths.bindings⟩ bytes = paths.owned bytes := by
  simp [owned, differs]

theorem Tracks.reuse (h : paths.Tracks) (held : paths.registry.idByKey (key read.bytes) = some id)
    (same : paths.registry.generationById id = some (generation (read, id))) :
    Tracks ⟨paths.registry, (read, id) :: paths.bindings⟩ := by
  obtain ⟨targetGeneration, block, older, boundTo⟩ := h.bound read.bytes id held
  have build : generation (read, id) = targetGeneration := by
    rw [boundTo.generationById, Option.some_inj] at same
    exact same.symm
  constructor
  · intro bound member
    rw [List.mem_cons] at member
    cases member with
    | inl new =>
      subst new
      exact boundTo.minted h
    | inr before => exact h.minted bound before
  · intro bytes free
    by_cases own : read.bytes = bytes
    · rw [← own] at free
      exact absurd (held.symm.trans free) (by simp)
    · rw [owned_cons_other own]
      exact h.unbound bytes free
  · intro bytes other found
    by_cases own : read.bytes = bytes
    · subst own
      obtain rfl : id = other := Option.some.inj (held.symm.trans found)
      refine ⟨targetGeneration, (read, id) :: block, older, ?_, by simp, ?_, boundTo.rebuilt,
        boundTo.fresh, boundTo.bytesById, boundTo.generationById⟩
      · rw [owned_cons_same, boundTo.parts, List.cons_append]
      · intro bound member
        rw [List.mem_cons] at member
        cases member with
        | inl new => exact new ▸ ⟨rfl, build⟩
        | inr before => exact boundTo.answered bound before
    · obtain ⟨otherGeneration, first, rest, other_bound⟩ := h.bound bytes other found
      refine ⟨otherGeneration, first, rest, ?_, other_bound.nonempty, other_bound.answered,
        other_bound.rebuilt, other_bound.fresh, other_bound.bytesById, other_bound.generationById⟩
      rw [owned_cons_other own, other_bound.parts]

theorem Tracks.mint (h : paths.Tracks)
    (stale : ∀ id, paths.registry.idByKey (key read.bytes) = some id →
      paths.registry.generationById id ≠ some read.record.location.targetGeneration) :
    Tracks ⟨(paths.registry.mint read.record.worktreeId read.record.location.targetGeneration
        read.bytes).2, (read, mintedPathId (paths.registry.next + 1)) :: paths.bindings⟩ := by
  have unused : ∀ {id}, (∃ number ≤ paths.registry.next, id = mintedPathId number) →
      id ≠ mintedPathId (paths.registry.next + 1) := by
    rintro id ⟨number, within, rfl⟩ same
    have numbers := mintedPathId_injective same
    omega
  constructor
  · intro bound member
    rw [List.mem_cons] at member
    cases member with
    | inl new => exact ⟨paths.registry.next + 1, Nat.le_refl _, new ▸ rfl⟩
    | inr before =>
      obtain ⟨number, within, drawn⟩ := h.minted bound before
      exact ⟨number, Nat.le_succ_of_le within, drawn⟩
  · intro bytes free
    by_cases own : read.bytes = bytes
    · subst own
      simp [PathRegistry.mint, key] at free
    · rw [owned_cons_other own]
      apply h.unbound bytes
      rw [← free]
      exact (Function.update_of_ne (fun same => own (key_inj.mp same).symm) _ _).symm
  · intro bytes other found
    by_cases own : read.bytes = bytes
    · subst own
      obtain rfl : mintedPathId (paths.registry.next + 1) = other := by
        simpa [PathRegistry.mint, key] using found
      refine ⟨read.record.location.targetGeneration,
        [(read, mintedPathId (paths.registry.next + 1))], paths.owned read.bytes, ?_, by simp, ?_,
        ?_, ?_, Function.update_self _ _ _, Function.update_self _ _ _⟩
      · exact owned_cons_same read _
      · intro bound member
        rw [List.mem_singleton] at member
        exact member ▸ ⟨rfl, rfl⟩
      · intro bound newest
        cases held : paths.registry.idByKey (key read.bytes) with
        | none => simp [h.unbound _ held] at newest
        | some id =>
          obtain ⟨targetGeneration, block, older, boundTo⟩ := h.bound _ _ held
          obtain ⟨first, rest, parts⟩ := List.exists_cons_of_ne_nil boundTo.nonempty
          rw [boundTo.parts, parts, List.cons_append, List.head?_cons, Option.mem_some] at newest
          subst newest
          intro same
          apply stale id held
          rw [boundTo.generationById, ← same, (boundTo.answered first (by simp [parts])).2]
      · intro bound member
        exact unused (h.minted bound (List.mem_filter.mp member).1)
    · have kept : paths.registry.idByKey (key bytes) = some other := by
        rw [← found]
        exact (Function.update_of_ne (fun same => own (key_inj.mp same).symm) _ _).symm
      obtain ⟨targetGeneration, block, older, boundTo⟩ := h.bound bytes other kept
      have differs := unused (boundTo.minted h)
      refine ⟨targetGeneration, block, older, ?_, boundTo.nonempty, boundTo.answered,
        boundTo.rebuilt, boundTo.fresh, ?_, ?_⟩
      · rw [owned_cons_other own, boundTo.parts]
      · exact (Function.update_of_ne differs _ _).trans boundTo.bytesById
      · exact (Function.update_of_ne differs _ _).trans boundTo.generationById

theorem Tracks.bind (h : paths.Tracks) (read : PathRead) : (paths.bind read).1.Tracks := by
  unfold BoundPaths.bind PathRegistry.bind
  rw [show bindingKey read.record.worktreeId read.bytes = key read.bytes from rfl]
  cases held : paths.registry.idByKey (key read.bytes) with
  | none => exact h.mint (by simp [held])
  | some id =>
    dsimp only
    split
    · rename_i same
      exact h.reuse held same
    · rename_i differs
      refine h.mint fun other found => ?_
      rw [held, Option.some_inj] at found
      exact found ▸ differs

end

variable (reads : List PathRead)

theorem tracks_after : (binding.after {} reads).Tracks :=
  binding.invariant Tracks (fun _ read held => held.bind read) tracks_empty reads

theorem consistent_after : (binding.after {} reads).registry.Consistent "wt_1" :=
  binding.invariant (fun paths => paths.registry.Consistent "wt_1")
    (fun _ read held => held.bind read.record.location.targetGeneration read.bytes)
    (PathRegistry.consistent_empty "wt_1") reads

theorem bindings_after (paths : BoundPaths) (reads : List PathRead) :
    (binding.after paths reads).bindings.map Prod.fst =
      reads.reverse ++ paths.bindings.map Prod.fst := by
  induction reads generalizing paths with
  | nil => rfl
  | cons read rest ih =>
    rw [Machine.after_cons, ih]
    simp [Machine.next, binding, BoundPaths.bind]

theorem resolveIn_eq_some (registry : PathRegistry) {targetGeneration pathId : String}
    {bytes : Bytes} : registry.resolveIn "wt_1" targetGeneration pathId = some bytes ↔
      registry.generationById pathId = some targetGeneration ∧
        registry.bytesById pathId = some bytes ∧ registry.idByKey (key bytes) = some pathId := by
  unfold PathRegistry.resolveIn PathRegistry.resolve
  by_cases build : registry.generationById pathId = some targetGeneration
  · rw [if_pos build]
    cases held : registry.bytesById pathId with
    | none => simp
    | some found =>
      simp only [build, true_and, Option.some_inj, key]
      split
      · rename_i same
        rw [Option.some_inj]
        constructor
        · rintro rfl
          exact ⟨rfl, same⟩
        · exact And.left
      · rename_i differs
        constructor
        · intro none_some
          cases none_some
        · rintro ⟨rfl, same⟩
          exact absurd same differs
  · simp [build]

theorem takeWhile_block {α : Type} {test : α → Bool} {block older : List α}
    (holds : ∀ entry ∈ block, test entry = true) (stops : ∀ entry ∈ older.head?, test entry = false) :
    (block ++ older).takeWhile test = block := by
  rw [List.takeWhile_append_of_pos holds]
  cases older with
  | nil => simp
  | cons first rest => simp [stops first rfl]

theorem recent_after (targetGeneration : String) (bytes : Bytes) :
    recent reads targetGeneration bytes =
      (((binding.after {} reads).owned bytes).takeWhile fun bound =>
        generation bound = targetGeneration).map Prod.fst := by
  have order := bindings_after {} reads
  rw [List.map_nil, List.append_nil] at order
  rw [recent, ← order, List.filter_map, List.takeWhile_map]
  rfl

section
variable {reads : List PathRead} {bytes : Bytes} {id targetGeneration : String}
  {block older : List (PathRead × String)}

theorem BoundTo.recent
    (h : (binding.after {} reads).BoundTo bytes id targetGeneration block older) :
    recent reads targetGeneration bytes = block.map Prod.fst := by
  rw [recent_after, h.parts, takeWhile_block]
  · intro bound member
    simpa using (h.answered bound member).2
  · intro bound newest
    simpa using h.rebuilt bound newest

theorem BoundTo.recent_other
    (h : (binding.after {} reads).BoundTo bytes id targetGeneration block older)
    {other : String} (differs : targetGeneration ≠ other) :
    BoundPaths.recent reads other bytes = [] := by
  obtain ⟨first, rest, parts⟩ := List.exists_cons_of_ne_nil h.nonempty
  have build := (h.answered first (by simp [parts])).2
  rw [recent_after, h.parts, parts, List.cons_append, List.takeWhile_cons_of_neg (by
    simpa [build] using differs), List.map_nil]

end

/-- After any reads of any repositories, every path handle stays inside a repository if and
only if for all bytes that were last read on the repository's build, by whichever
repository, one of the reads since its last rebuild was its own. -/
theorem contained_iff (reads : List PathRead) (request : OpenRequest) (repositoryId : String) :
    let repository := (buildRecord request repositoryId).settled
    (binding.after {} reads).Contained repository ↔
      ∀ bytes, recent reads repository.location.targetGeneration bytes = [] ∨
        ∃ read ∈ recent reads repository.location.targetGeneration bytes,
          read.repositoryId = repositoryId := by
  intro repository
  have tracks := tracks_after reads
  constructor
  · intro contained bytes
    cases held : (binding.after {} reads).registry.idByKey (key bytes) with
    | none =>
      left
      rw [recent_after, tracks.unbound bytes held]
      rfl
    | some id =>
      obtain ⟨targetGeneration, block, older, boundTo⟩ := tracks.bound bytes id held
      by_cases build : targetGeneration = repository.location.targetGeneration
      · right
        subst build
        have resolves := (resolveIn_eq_some _).mpr
          ⟨boundTo.generationById, boundTo.bytesById, held⟩
        obtain ⟨read, member, rfl, own, -, -⟩ := contained id bytes resolves
        have in_owned : (read, id) ∈ (binding.after {} reads).owned read.bytes :=
          List.mem_filter.mpr ⟨member, by simp⟩
        rw [boundTo.parts, List.mem_append] at in_owned
        have in_block := in_owned.resolve_right fun late => boundTo.fresh _ late rfl
        rw [boundTo.recent]
        exact ⟨read, List.mem_map_of_mem in_block, own⟩
      · exact .inl (boundTo.recent_other build)
  · intro condition pathId bytes resolves
    obtain ⟨build, holds, held⟩ := (resolveIn_eq_some _).mp resolves
    obtain ⟨targetGeneration, block, older, boundTo⟩ := tracks.bound bytes pathId held
    obtain rfl : targetGeneration = repository.location.targetGeneration := by
      rw [boundTo.generationById, Option.some_inj] at build
      exact build
    have own := condition bytes
    rw [boundTo.recent] at own
    obtain ⟨read, member, same⟩ := own.resolve_left (by simpa using boundTo.nonempty)
    obtain ⟨⟨read, answered⟩, in_block, rfl⟩ := List.mem_map.mp member
    obtain ⟨rfl, builds⟩ := boundTo.answered _ in_block
    have in_owned : (read, answered) ∈ (binding.after {} reads).owned bytes := by
      rw [boundTo.parts]
      exact List.mem_append_left _ in_block
    obtain ⟨bound, bytes_same⟩ := List.mem_filter.mp in_owned
    exact ⟨read, bound, by simpa using bytes_same, same, rfl, builds⟩

/-- One repository read a path; another on the same build never did, and resolves the id
the first one was given, in a write and in a read. -/
theorem foreign_path_resolves :
    let read : PathRead := ⟨Registrations.exampleRequest "/repo" "gen_1", "repo_1", [0x61]⟩
    let paths := binding.after {} [read]
    let other :=
      (buildRecord (Registrations.exampleRequest "/other" "gen_1") "repo_2").settled
    paths.registry.resolvePaths other.worktreeId other.location.targetGeneration
        [mintedPathId 1] = .ok [⟨mintedPathId 1, [0x61]⟩] ∧
      ¬paths.Contained other := by
  intro read paths other
  have bound : paths = ⟨(PathRegistry.mint {} "wt_1" "gen_1" [0x61]).2, [(read, mintedPathId 1)]⟩ :=
    rfl
  have found : paths.registry.resolveIn "wt_1" "gen_1" (mintedPathId 1) = some [0x61] := by
    rw [resolveIn_eq_some, bound]
    simp [PathRegistry.mint, key]
  refine ⟨?_, fun contained => ?_⟩
  · simp only [PathRegistry.resolvePaths, List.mapM_cons, PathRegistry.resolvePath]
    rw [show other.worktreeId = "wt_1" from rfl,
      show other.location.targetGeneration = "gen_1" from rfl, found]
    rfl
  obtain ⟨reported, member, -, own, -, -⟩ := contained (mintedPathId 1) [0x61] found
  rw [bound, List.mem_singleton, Prod.mk.injEq] at member
  rw [member.1] at own
  revert own
  decide

end BoundPaths
end Refyard.Paths
