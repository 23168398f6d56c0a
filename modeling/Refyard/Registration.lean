import Refyard.Jobs.Identity
import Refyard.Foundation.Machine

/-! Registration: which repositories this host may address. A repository is identified by
its common Git directory on one target, and its record is filed under an id that is drawn
before the record is built. -/
namespace Refyard.Registration

/-- What `git rev-parse` reported about the layout. -/
structure RepositoryLayout where
  gitDir : String
  topLevel : Option String
  commonDir : String
  isBare : Bool
  objectFormat : String
  isShallow : Bool
  deriving DecidableEq

structure RepositoryLocation where
  targetId : String
  targetGeneration : String
  canonicalWorktree : String
  canonicalCommonDir : String

structure RepositoryRecord where
  repositoryId : String
  allowedRootId : String
  worktreeId : String
  displayName : String
  displayPath : String
  rootPath : String
  relativePath : String
  layout : RepositoryLayout
  location : RepositoryLocation

inductive ObjectFormat where
  | sha1
  | sha256

def objectFormatOf (record : RepositoryRecord) : ObjectFormat :=
  if record.layout.objectFormat = "sha256" then .sha256 else .sha1

/-- `Path::file_name`: the last component, unless it is `..`. Repeated separators and `.`
components do not count. -/
def fileName (path : String) : Option String :=
  let components := (path.toList.splitOn '/').filter fun component =>
    component ≠ [] ∧ component ≠ ['.']
  match components.getLast? with
  | none => none
  | some component => if component = ['.', '.'] then none else some (String.ofList component)

/-- Everything needed to open one directory as a repository, and the layout it was answered
with. -/
structure OpenRequest where
  layout : RepositoryLayout
  directory : String
  allowedRootId : String
  rootPath : String
  relativePath : String
  targetId : String
  targetGeneration : String

/-- Builds the record for one repository from the layout that was read for it. The path is
text already, so displaying it escapes nothing. -/
def buildRecord (request : OpenRequest) (repositoryId : String) : RepositoryRecord :=
  let canonicalWorktree := request.layout.topLevel.getD request.directory
  { repositoryId
    allowedRootId := request.allowedRootId
    worktreeId := "wt_1"
    displayName := (fileName canonicalWorktree).getD canonicalWorktree
    displayPath := canonicalWorktree
    rootPath := request.rootPath
    relativePath := request.relativePath
    layout := request.layout
    location :=
      { targetId := request.targetId
        targetGeneration := request.targetGeneration
        canonicalWorktree
        canonicalCommonDir := "" } }

def locationKey (targetId commonDir : String) : String := s!"{targetId}\x00{commonDir}"

def RepositoryRecord.key (record : RepositoryRecord) : String :=
  locationKey record.location.targetId record.layout.commonDir

def RepositoryRecord.settled (record : RepositoryRecord) : RepositoryRecord :=
  { record with location.canonicalCommonDir := record.layout.commonDir }

@[simp] theorem RepositoryRecord.repositoryId_settled (record : RepositoryRecord) :
    record.settled.repositoryId = record.repositoryId := rfl

structure RepositoryRegistry where
  next : Nat := 0
  order : List String := []
  byId : String → Option RepositoryRecord := fun _ => none
  idByLocation : String → Option String := fun _ => none

def mintedId (number : Nat) : String := s!"repo_{base36 number}"

namespace RepositoryRegistry

def nextId (registry : RepositoryRegistry) : String × RepositoryRegistry :=
  (mintedId (registry.next + 1), { registry with next := registry.next + 1 })

def revokeLocked (registry : RepositoryRegistry) (repositoryId : String) : RepositoryRegistry :=
  match registry.byId repositoryId with
  | none => registry
  | some record =>
      { registry with
        byId := Function.update registry.byId repositoryId none
        idByLocation := Function.update registry.idByLocation record.key none
        order := registry.order.filter fun id => id ≠ repositoryId }

/-- What `register` does once the location is free. -/
def file (registry : RepositoryRegistry) (record : RepositoryRecord) :
    RepositoryRecord × RepositoryRegistry :=
  (record.settled, { registry with
    idByLocation := Function.update registry.idByLocation record.key (some record.repositoryId)
    order := registry.order ++ [record.repositoryId]
    byId := Function.update registry.byId record.repositoryId (some record.settled) })

/-- Registers a record, returning the known one when this repository on this build of the
target is registered already. A record of an earlier build is replaced. -/
def register (registry : RepositoryRegistry) (record : RepositoryRecord) :
    RepositoryRecord × RepositoryRegistry :=
  match registry.idByLocation record.key with
  | none => registry.file record
  | some existing =>
      match registry.byId existing with
      | none => (registry.revokeLocked existing).file record
      | some known =>
          if known.location.targetGeneration = record.location.targetGeneration then
            (known, registry)
          else (registry.revokeLocked existing).file record

def get (registry : RepositoryRegistry) (repositoryId : String) : Option RepositoryRecord :=
  registry.byId repositoryId

def list (registry : RepositoryRegistry) : List RepositoryRecord :=
  registry.order.filterMap registry.byId

def revoke (registry : RepositoryRegistry) (repositoryId : String) : Bool × RepositoryRegistry :=
  match registry.byId repositoryId with
  | none => (false, registry)
  | some _ => (true, registry.revokeLocked repositoryId)

def onTarget (registry : RepositoryRegistry) (targetId : String) (repositoryId : String) : Bool :=
  match registry.byId repositoryId with
  | none => false
  | some record => record.location.targetId = targetId

def revokeTarget (registry : RepositoryRegistry) (targetId : String) :
    List String × RepositoryRegistry :=
  let doomed := registry.order.filter (registry.onTarget targetId)
  (doomed, doomed.foldl revokeLocked registry)

end RepositoryRegistry

/-- The registry and the records that were built for it and not registered yet. A record
is registered once, some time after its id was drawn. -/
structure Registrations where
  registry : RepositoryRegistry := {}
  opened : List RepositoryRecord := []

inductive RegistrationStep where
  | open (request : OpenRequest)
  | register (index : Nat)
  | revoke (repositoryId : String)
  | revokeTarget (targetId : String)

namespace Registrations

/-- `open_repository` or `open_remote_repository`, once the layout was answered. -/
def openRepository (registrations : Registrations) (request : OpenRequest) : Registrations :=
  let (repositoryId, registry) := registrations.registry.nextId
  { registry, opened := registrations.opened ++ [buildRecord request repositoryId] }

def register (registrations : Registrations) (index : Nat) :
    Registrations × Option RepositoryRecord :=
  match registrations.opened[index]? with
  | none => (registrations, none)
  | some record =>
      let (known, registry) := registrations.registry.register record
      ({ registry, opened := registrations.opened.eraseIdx index }, some known)

def revoke (registrations : Registrations) (repositoryId : String) : Registrations :=
  { registrations with registry := (registrations.registry.revoke repositoryId).2 }

def revokeTarget (registrations : Registrations) (targetId : String) : Registrations :=
  { registrations with registry := (registrations.registry.revokeTarget targetId).2 }

def registering : Machine Registrations RegistrationStep (Option RepositoryRecord) where
  step registrations input :=
    match input with
    | .open request => (registrations.openRepository request, none)
    | .register index => registrations.register index
    | .revoke repositoryId => (registrations.revoke repositoryId, none)
    | .revokeTarget targetId => (registrations.revokeTarget targetId, none)

end Registrations

theorem mintedId_injective {left right : Nat} (same : mintedId left = mintedId right) :
    left = right := by
  unfold mintedId at same
  apply base36_injective
  simpa [toString, String.toList_inj] using congrArg String.toList same

namespace RepositoryRegistry

structure Coherent (registry : RepositoryRegistry) : Prop where
  nodup : registry.order.Nodup
  listed : ∀ id, id ∈ registry.order ↔ (registry.byId id).isSome
  filed : ∀ id record, registry.byId id = some record → record.repositoryId = id
  located : ∀ key id, registry.idByLocation key = some id ↔
    ∃ record, registry.byId id = some record ∧ record.key = key

structure Fewer (before after : RepositoryRegistry) : Prop where
  next : after.next = before.next
  byId : ∀ id, after.byId id = before.byId id ∨ after.byId id = none

section
variable {registry before after last : RepositoryRegistry}

theorem Fewer.refl (registry : RepositoryRegistry) : Fewer registry registry :=
  ⟨rfl, fun _ => .inl rfl⟩

theorem Fewer.trans (first : Fewer before after) (second : Fewer after last) :
    Fewer before last := by
  refine ⟨second.next.trans first.next, fun id => ?_⟩
  cases second.byId id with
  | inl kept => exact kept ▸ first.byId id
  | inr gone => exact .inr gone

variable {id : String} {record : RepositoryRecord}

theorem Fewer.of_some (h : Fewer before after) (found : after.byId id = some record) :
    before.byId id = some record := by
  cases h.byId id with
  | inl kept => exact kept ▸ found
  | inr gone => simp [gone] at found

theorem coherent_empty : Coherent {} :=
  ⟨List.nodup_nil, by simp, by simp, by simp⟩

theorem Fewer.free (h : Fewer before after) (old : before.Coherent) (new : after.Coherent)
    {key : String} (free : before.idByLocation key = none) : after.idByLocation key = none := by
  cases found : after.idByLocation key with
  | none => rfl
  | some id =>
    obtain ⟨record, held, same⟩ := (new.located key id).mp found
    have was := (old.located key id).mpr ⟨record, h.of_some held, same⟩
    simp [free] at was

theorem Fewer.freed (h : Fewer before after) (old : before.Coherent) (new : after.Coherent)
    (was : before.byId id = some record) (gone : after.byId id = none) :
    after.idByLocation record.key = none := by
  cases found : after.idByLocation record.key with
  | none => rfl
  | some other =>
    obtain ⟨held, filed, same⟩ := (new.located _ other).mp found
    have first := (old.located record.key other).mpr ⟨held, h.of_some filed, same⟩
    have second := (old.located record.key id).mpr ⟨record, was, rfl⟩
    rw [first, Option.some_inj] at second
    simp [← second, filed] at gone

theorem byId_revokeLocked (registry : RepositoryRegistry) (repositoryId id : String) :
    (registry.revokeLocked repositoryId).byId id =
      if id = repositoryId then none else registry.byId id := by
  unfold revokeLocked
  split
  · rename_i missing
    split
    · rename_i same
      rw [same, missing]
    · rfl
  · exact Function.update_apply _ _ _ _

theorem fewer_revokeLocked (registry : RepositoryRegistry) (repositoryId : String) :
    Fewer registry (registry.revokeLocked repositoryId) := by
  constructor
  · unfold revokeLocked
    split <;> rfl
  · intro id
    rw [byId_revokeLocked]
    split
    · exact .inr rfl
    · exact .inl rfl

theorem Coherent.revokeLocked (h : registry.Coherent) (repositoryId : String) :
    (registry.revokeLocked repositoryId).Coherent := by
  cases found : registry.byId repositoryId with
  | none => rwa [RepositoryRegistry.revokeLocked, found]
  | some record =>
    have gone := byId_revokeLocked registry repositoryId
    simp only [RepositoryRegistry.revokeLocked, found] at gone ⊢
    constructor
    · exact h.nodup.filter _
    · intro id
      simp only [List.mem_filter, decide_eq_true_eq, h.listed, gone]
      split
      · simp_all
      · simp_all
    · intro id other held
      simp only [gone] at held
      split at held
      · cases held
      · exact h.filed id other held
    · intro key id
      simp only [Function.update_apply]
      split
      · rename_i same
        simp only [reduceCtorEq, false_iff, not_exists, not_and]
        intro other held elsewhere
        split at held
        · cases held
        · rename_i differs
          have first := (h.located key id).mpr ⟨other, held, elsewhere⟩
          have second := (h.located record.key repositoryId).mpr ⟨record, found, rfl⟩
          rw [← same, first, Option.some_inj] at second
          exact differs second
      · rename_i differs
        rw [h.located]
        split
        · rename_i same
          rw [same, found]
          simp [Ne.symm differs]
        · rfl

theorem Coherent.file (h : registry.Coherent) (fresh : registry.byId record.repositoryId = none)
    (free : registry.idByLocation record.key = none) : (registry.file record).2.Coherent := by
  unfold RepositoryRegistry.file
  constructor
  · have unlisted : record.repositoryId ∉ registry.order := by
      rw [h.listed, fresh]
      simp
    rw [List.nodup_append]
    refine ⟨h.nodup, List.pairwise_singleton _ _, ?_⟩
    intro id member other last same
    rw [List.mem_singleton] at last
    exact unlisted (last ▸ same ▸ member)
  · intro id
    simp only [List.mem_append, List.mem_singleton, h.listed, Function.update_apply]
    split
    · simp_all
    · simp_all
  · intro id other held
    simp only [Function.update_apply] at held
    split at held
    · rename_i same
      cases held
      exact same.symm
    · exact h.filed id other held
  · intro key id
    simp only [Function.update_apply]
    split
    · rename_i same
      rw [Option.some_inj]
      constructor
      · rintro rfl
        exact ⟨_, if_pos rfl, same.symm⟩
      · rintro ⟨other, held, elsewhere⟩
        split at held
        · rename_i renamed
          exact renamed.symm
        · have was := (h.located key id).mpr ⟨other, held, elsewhere⟩
          simp [same, free] at was
    · rename_i differs
      rw [h.located]
      split
      · rename_i same
        simp only [same, fresh, Option.some_inj, reduceCtorEq, false_and, exists_false, false_iff]
        rintro ⟨other, rfl, elsewhere⟩
        exact differs elsewhere.symm
      · rfl

/-- Registering answers with the record that is known, or files the new one where the
location is free by then. -/
theorem register_cases (h : registry.Coherent) (record : RepositoryRecord) :
    (∃ known, registry.byId known.repositoryId = some known ∧ known.key = record.key ∧
        known.location.targetGeneration = record.location.targetGeneration ∧
        registry.register record = (known, registry)) ∨
      ∃ freed, Fewer registry freed ∧ freed.Coherent ∧ freed.idByLocation record.key = none ∧
        registry.register record = freed.file record := by
  unfold register
  split
  · rename_i free
    exact .inr ⟨registry, .refl registry, h, free, rfl⟩
  · rename_i existing located
    obtain ⟨known, held, same⟩ := (h.located _ _).mp located
    obtain rfl := h.filed _ _ held
    rw [held]
    dsimp only
    split
    · rename_i generation
      exact .inl ⟨known, held, same, generation, rfl⟩
    · have fewer := fewer_revokeLocked registry known.repositoryId
      have coherent := h.revokeLocked known.repositoryId
      have gone : (registry.revokeLocked known.repositoryId).byId known.repositoryId = none := by
        rw [byId_revokeLocked, if_pos rfl]
      exact .inr ⟨_, fewer, coherent, same ▸ fewer.freed h coherent held gone, rfl⟩

theorem register_known (h : registry.Coherent) {known : RepositoryRecord}
    (held : registry.byId known.repositoryId = some known) (same : record.key = known.key)
    (generation : record.location.targetGeneration = known.location.targetGeneration) :
    registry.register record = (known, registry) := by
  have located := (h.located record.key known.repositoryId).mpr ⟨known, held, same.symm⟩
  unfold register
  rw [located]
  dsimp only
  rw [held]
  exact if_pos generation.symm

theorem revoke_eq (registry : RepositoryRegistry) (repositoryId : String) :
    (registry.revoke repositoryId).2 = registry.revokeLocked repositoryId := by
  unfold revoke revokeLocked
  split <;> simp_all

theorem foldl_revokeLocked (h : registry.Coherent) (ids : List String) :
    Fewer registry (ids.foldl revokeLocked registry) ∧ (ids.foldl revokeLocked registry).Coherent ∧
      ∀ id ∈ ids, (ids.foldl revokeLocked registry).byId id = none := by
  induction ids generalizing registry with
  | nil => exact ⟨.refl registry, h, by simp⟩
  | cons first rest ih =>
    obtain ⟨fewer, coherent, gone⟩ := ih (h.revokeLocked first)
    refine ⟨(fewer_revokeLocked registry first).trans fewer, coherent, ?_⟩
    intro id member
    rw [List.mem_cons] at member
    cases member with
    | inl same =>
      cases fewer.byId id with
      | inl kept =>
        rw [List.foldl_cons, kept, byId_revokeLocked, if_pos same]
      | inr gone => exact gone
    | inr later => exact gone id later

theorem revokeTarget_gone (h : registry.Coherent) (held : registry.byId id = some record) :
    (registry.revokeTarget record.location.targetId).2.byId id = none := by
  apply (foldl_revokeLocked h _).2.2
  rw [List.mem_filter, h.listed]
  simp [onTarget, held]

end
end RepositoryRegistry

namespace Registrations
open RepositoryRegistry

/-- Every id that is filed or waits to be filed was drawn, and no two records wait or are
filed under one id. -/
structure Sound (registrations : Registrations) : Prop where
  coherent : registrations.registry.Coherent
  drawn : ∀ record ∈ registrations.opened,
    ∃ number ≤ registrations.registry.next, record.repositoryId = mintedId number
  apart : (registrations.opened.map RepositoryRecord.repositoryId).Nodup
  filed : ∀ id, (registrations.registry.byId id).isSome →
    (∃ number ≤ registrations.registry.next, id = mintedId number) ∧
      id ∉ registrations.opened.map RepositoryRecord.repositoryId

structure Spent (registrations : Registrations) (id : String) : Prop where
  drawn : ∃ number ≤ registrations.registry.next, id = mintedId number
  absent : id ∉ registrations.opened.map RepositoryRecord.repositoryId

variable {registrations : Registrations} {id : String}

/-- What one step does to the registry: it registers nothing, or files one record that
waited. -/
theorem step_cases (h : registrations.Sound) (input : RegistrationStep) :
    let next := registering.next registrations input
    (∃ request, input = .open request ∧ next = registrations.openRepository request) ∨
      (∃ opened, opened.Sublist registrations.opened ∧ next.opened = opened ∧
        Fewer registrations.registry next.registry ∧ next.registry.Coherent) ∨
      ∃ index record freed, input = .register index ∧ registrations.opened[index]? = some record ∧
        next.opened = registrations.opened.eraseIdx index ∧
        Fewer registrations.registry freed ∧ freed.Coherent ∧
        freed.idByLocation record.key = none ∧ next.registry = (freed.file record).2 := by
  intro next
  cases input with
  | «open» request => exact .inl ⟨request, rfl, rfl⟩
  | register index =>
    cases waiting : registrations.opened[index]? with
    | none =>
      have same : next = registrations := by
        simp only [next, Machine.next, registering, register, waiting]
      rw [same]
      exact .inr (.inl ⟨_, .refl _, rfl, .refl _, h.coherent⟩)
    | some record =>
      have moves : next = ⟨(registrations.registry.register record).2,
          registrations.opened.eraseIdx index⟩ := by
        simp only [next, Machine.next, registering, register, waiting]
      rw [moves]
      rcases register_cases h.coherent record with
        ⟨known, held, same, generation, answered⟩ | ⟨freed, fewer, coherent, free, answered⟩
      · rw [answered]
        exact .inr (.inl ⟨_, List.eraseIdx_sublist _ _, rfl, .refl _, h.coherent⟩)
      · rw [answered]
        exact .inr (.inr ⟨index, record, freed, rfl, waiting, rfl, fewer, coherent, free, rfl⟩)
  | revoke repositoryId =>
    have moves : next.registry = registrations.registry.revokeLocked repositoryId :=
      revoke_eq registrations.registry repositoryId
    rw [moves]
    exact .inr (.inl ⟨_, .refl _, rfl, fewer_revokeLocked _ _, h.coherent.revokeLocked _⟩)
  | revokeTarget targetId =>
    obtain ⟨fewer, coherent, -⟩ := foldl_revokeLocked h.coherent
      (registrations.registry.order.filter (registrations.registry.onTarget targetId))
    exact .inr (.inl ⟨_, .refl _, rfl, fewer, coherent⟩)

theorem sound_empty : Sound {} :=
  ⟨coherent_empty, by simp, by simp, by simp⟩

theorem drawn_openRepository (registrations : Registrations) (request : OpenRequest)
    (h : ∃ number ≤ registrations.registry.next, id = mintedId number) :
    (∃ number ≤ (registrations.openRepository request).registry.next, id = mintedId number) ∧
      id ≠ (buildRecord request registrations.registry.nextId.1).repositoryId := by
  obtain ⟨number, within, rfl⟩ := h
  refine ⟨⟨number, Nat.le_succ_of_le within, rfl⟩, ?_⟩
  intro same
  have numbers : number = registrations.registry.next + 1 := mintedId_injective same
  omega

theorem Sound.openRepository (h : registrations.Sound) (request : OpenRequest) :
    (registrations.openRepository request).Sound := by
  have ids : (registrations.openRepository request).opened.map RepositoryRecord.repositoryId =
      registrations.opened.map RepositoryRecord.repositoryId ++
        [mintedId (registrations.registry.next + 1)] := by
    simp [Registrations.openRepository, buildRecord, nextId]
  constructor
  · exact ⟨h.coherent.nodup, h.coherent.listed, h.coherent.filed, h.coherent.located⟩
  · intro record member
    rw [Registrations.openRepository, List.mem_append, List.mem_singleton] at member
    cases member with
    | inl before => exact (drawn_openRepository registrations request (h.drawn record before)).1
    | inr new => exact ⟨registrations.registry.next + 1, Nat.le_refl _, new ▸ rfl⟩
  · rw [ids, List.nodup_append]
    refine ⟨h.apart, List.pairwise_singleton _ _, ?_⟩
    intro id member other last same
    rw [List.mem_singleton] at last
    obtain ⟨record, waits, rfl⟩ := List.mem_map.mp member
    exact (drawn_openRepository registrations request (h.drawn record waits)).2
      (same.trans last)
  · intro id held
    obtain ⟨drawn, absent⟩ := h.filed id held
    obtain ⟨still, differs⟩ := drawn_openRepository registrations request drawn
    refine ⟨still, ?_⟩
    rw [ids, List.mem_append, List.mem_singleton, not_or]
    exact ⟨absent, differs⟩

theorem Sound.waiting (h : registrations.Sound) {index : Nat} {record : RepositoryRecord}
    (found : registrations.opened[index]? = some record) : record.repositoryId ∉
      (registrations.opened.eraseIdx index).map RepositoryRecord.repositoryId := by
  intro member
  obtain ⟨other, later, same⟩ := List.mem_map.mp member
  obtain ⟨place, differs, holds⟩ := List.mem_eraseIdx_iff_getElem?.mp later
  have within : place < (registrations.opened.map RepositoryRecord.repositoryId).length := by
    rw [List.length_map]
    exact (List.getElem?_eq_some_iff.mp holds).1
  apply differs
  apply (List.getElem?_inj within h.apart).mp
  rw [List.getElem?_map, List.getElem?_map, holds, found, Option.map_some, Option.map_some, same]

theorem Sound.step (h : registrations.Sound) (input : RegistrationStep) :
    (registering.next registrations input).Sound := by
  rcases step_cases h input with ⟨request, rfl, moves⟩ | ⟨opened, sublist, waits, fewer, coherent⟩ |
    ⟨index, record, freed, rfl, found, waits, fewer, coherent, free, files⟩
  · rw [moves]
    exact h.openRepository request
  · have ids := sublist.map RepositoryRecord.repositoryId
    constructor
    · exact coherent
    · intro record member
      rw [fewer.next]
      exact h.drawn record (sublist.subset (waits ▸ member))
    · rw [waits]
      exact h.apart.sublist ids
    · intro id held
      obtain ⟨record, holds⟩ := Option.isSome_iff_exists.mp held
      obtain ⟨drawn, absent⟩ := h.filed id (by rw [fewer.of_some holds]; rfl)
      rw [fewer.next, waits]
      exact ⟨drawn, fun member => absent (ids.subset member)⟩
  · have sublist := List.eraseIdx_sublist registrations.opened index
    have ids := sublist.map RepositoryRecord.repositoryId
    have member := List.mem_of_getElem? found
    have fresh : freed.byId record.repositoryId = none := by
      cases held : freed.byId record.repositoryId with
      | none => rfl
      | some other =>
        exact absurd (List.mem_map_of_mem member)
          (h.filed _ (by rw [fewer.of_some held]; rfl)).2
    constructor
    · rw [files]
      exact coherent.file fresh free
    · intro other later
      rw [files]
      exact fewer.next ▸ h.drawn other (sublist.subset (waits ▸ later))
    · rw [waits]
      exact h.apart.sublist ids
    · intro id held
      rw [files] at held ⊢
      rw [waits]
      simp only [RepositoryRegistry.file, Function.update_apply] at held ⊢
      rw [fewer.next]
      split at held
      · rename_i same
        exact same ▸ ⟨h.drawn record member, h.waiting found⟩
      · obtain ⟨other, holds⟩ := Option.isSome_iff_exists.mp held
        obtain ⟨drawn, absent⟩ := h.filed id (by rw [fewer.of_some holds]; rfl)
        exact ⟨drawn, fun later => absent (ids.subset later)⟩

theorem Spent.step (h : registrations.Sound) (spent : registrations.Spent id)
    (input : RegistrationStep) : (registering.next registrations input).Spent id ∧
      ((registering.next registrations input).registry.byId id = registrations.registry.byId id ∨
        (registering.next registrations input).registry.byId id = none) := by
  rcases step_cases h input with ⟨request, rfl, moves⟩ | ⟨opened, sublist, waits, fewer, coherent⟩ |
    ⟨index, record, freed, rfl, found, waits, fewer, coherent, free, files⟩
  · obtain ⟨still, differs⟩ := drawn_openRepository registrations request spent.drawn
    rw [moves]
    refine ⟨⟨still, ?_⟩, .inl rfl⟩
    rw [openRepository, List.map_append, List.mem_append, List.map_singleton, List.mem_singleton,
      not_or]
    exact ⟨spent.absent, differs⟩
  · refine ⟨⟨fewer.next ▸ spent.drawn, ?_⟩, fewer.byId id⟩
    rw [waits]
    exact fun member => spent.absent ((sublist.map _).subset member)
  · have sublist := List.eraseIdx_sublist registrations.opened index
    constructor
    · constructor
      · rw [files]
        exact fewer.next ▸ spent.drawn
      · rw [waits]
        exact fun member => spent.absent ((sublist.map _).subset member)
    · have other : id ≠ record.repositoryId := fun same =>
        spent.absent (same ▸ List.mem_map_of_mem (List.mem_of_getElem? found))
      rw [files, RepositoryRegistry.file]
      dsimp only
      rw [Function.update_of_ne other]
      exact fewer.byId id

def RegistersAt (key : String) (registrations : Registrations) : RegistrationStep → Prop
  | .register index => ∃ record, registrations.opened[index]? = some record ∧ record.key = key
  | _ => False

theorem free_step (h : registrations.Sound) {key : String}
    (free : registrations.registry.idByLocation key = none) {input : RegistrationStep}
    (elsewhere : ¬registrations.RegistersAt key input) :
    (registering.next registrations input).registry.idByLocation key = none := by
  rcases step_cases h input with ⟨request, rfl, moves⟩ | ⟨opened, sublist, waits, fewer, coherent⟩ |
    ⟨index, record, freed, rfl, found, waits, fewer, coherent, vacant, files⟩
  · rw [moves]
    exact free
  · exact fewer.free h.coherent coherent free
  · have differs : key ≠ record.key := fun same => elsewhere ⟨record, found, same.symm⟩
    rw [files, RepositoryRegistry.file]
    dsimp only
    rw [Function.update_of_ne differs]
    exact fewer.free h.coherent coherent free

theorem Sound.registered (h : registrations.Sound) {index : Nat} {first known : RepositoryRecord}
    (found : registrations.opened[index]? = some first)
    (answered : registering.output registrations (.register index) = some known) :
    (registering.next registrations (.register index)).registry.byId known.repositoryId =
        some known ∧ known.key = first.key ∧
      known.location.targetGeneration = first.location.targetGeneration := by
  simp only [Machine.output, Machine.next, registering, register, found, Option.some_inj]
    at answered ⊢
  rcases register_cases h.coherent first with
    ⟨other, held, same, generation, known_again⟩ | ⟨freed, fewer, coherent, free, files⟩
  · rw [known_again] at answered ⊢
    subst answered
    exact ⟨held, same, generation⟩
  · rw [files] at answered ⊢
    dsimp only [RepositoryRegistry.file] at answered ⊢
    subst answered
    refine ⟨?_, rfl, rfl⟩
    rw [RepositoryRecord.repositoryId_settled, Function.update_self]

theorem sound_after (steps : List RegistrationStep) : (registering.after {} steps).Sound :=
  registering.invariant Sound (fun _ input held => held.step input) sound_empty steps

structure Built (registrations : Registrations) : Prop where
  opened : ∀ record ∈ registrations.opened, ∃ request,
    record = buildRecord request record.repositoryId
  filed : ∀ id record, registrations.registry.byId id = some record → ∃ request,
    record = (buildRecord request record.repositoryId).settled

theorem Built.step (h : registrations.Built) (sound : registrations.Sound)
    (input : RegistrationStep) : (registering.next registrations input).Built := by
  rcases step_cases sound input with ⟨request, rfl, moves⟩ | ⟨opened, sublist, waits, fewer, -⟩ |
    ⟨index, record, freed, rfl, found, waits, fewer, -, -, files⟩
  · rw [moves]
    refine ⟨fun record member => ?_, h.filed⟩
    rcases List.mem_append.mp member with before | last
    · exact h.opened record before
    · obtain rfl := List.mem_singleton.mp last
      exact ⟨request, rfl⟩
  · refine ⟨fun record member => ?_, fun id record held => h.filed id record (fewer.of_some held)⟩
    rw [waits] at member
    exact h.opened record (sublist.subset member)
  · refine ⟨fun other member => ?_, fun id other held => ?_⟩
    · rw [waits] at member
      exact h.opened other (List.mem_of_mem_eraseIdx member)
    · rw [files, RepositoryRegistry.file] at held
      dsimp only at held
      rw [Function.update_apply] at held
      split at held
      · obtain rfl := Option.some.inj held
        obtain ⟨request, built⟩ := h.opened record (List.mem_of_getElem? found)
        exact ⟨request, congrArg RepositoryRecord.settled built⟩
      · exact h.filed id other (fewer.of_some held)

theorem built_after (steps : List RegistrationStep) : (registering.after {} steps).Built :=
  (registering.invariant (fun state => state.Sound ∧ state.Built)
    (fun _ input held => ⟨held.1.step input, held.2.step held.1 input⟩)
    ⟨sound_empty, by simp, by simp⟩ steps).2

/-- Along a run a spent id keeps its record or has none. -/
theorem spent_after (h : registrations.Sound) (spent : registrations.Spent id)
    (later : List RegistrationStep) : (registering.after registrations later).Spent id ∧
      ((registering.after registrations later).registry.byId id = registrations.registry.byId id ∨
        (registering.after registrations later).registry.byId id = none) := by
  have run := registering.invariant (fun state => state.Sound ∧ state.Spent id ∧
    (state.registry.byId id = registrations.registry.byId id ∨ state.registry.byId id = none))
    (fun state input held => by
      obtain ⟨sound, spent, kept⟩ := held
      obtain ⟨still, moved⟩ := spent.step sound input
      refine ⟨sound.step input, still, ?_⟩
      cases moved with
      | inl same => exact same ▸ kept
      | inr gone => exact .inr gone) ⟨h, spent, .inl rfl⟩ later
  exact run.2

theorem free_after (h : registrations.Sound) {key : String}
    (free : registrations.registry.idByLocation key = none) {later : List RegistrationStep}
    (elsewhere : registering.Meets (fun state input => ¬state.RegistersAt key input)
      registrations later) :
    (registering.after registrations later).registry.idByLocation key = none :=
  (registering.invariant_of_step
    (fun state => state.Sound ∧ state.registry.idByLocation key = none)
    (fun _ input held meets => ⟨held.1.step input, free_step held.1 held.2 meets⟩) ⟨h, free⟩
    elsewhere).2

def SameRepository (left right : RepositoryRecord) : Prop :=
  left.location.targetId = right.location.targetId ∧ left.layout.commonDir = right.layout.commonDir

/-- Whatever happens between two registrations of one repository: while the first is still
registered, the second is answered with its record, if both are on one build of the target.
A record of another build takes the place of the first under its own id. -/
def IdentityKept (registrations : Registrations) : Prop :=
  ∀ index first known, registrations.opened[index]? = some first →
    registering.output registrations (.register index) = some known → ∀ later again second,
      let now := registering.after (registering.next registrations (.register index)) later
      now.opened[again]? = some second → (now.registry.get known.repositoryId).isSome →
      SameRepository second first → registering.output now (.register again) =
        some (if second.location.targetGeneration = first.location.targetGeneration then known
          else second.settled)

/-- After a repository was revoked, alone or with its target, its id is never found again,
and its location is not found before a record is registered there. -/
def RevocationLasts (registrations : Registrations) : Prop :=
  ∀ id record, registrations.registry.get id = some record →
    ∀ removal, removal = .revoke id ∨ removal = .revokeTarget record.location.targetId → ∀ later,
      let revoked := registering.next registrations removal
      (registering.after revoked later).registry.get id = none ∧
        (registering.Meets (fun state input => ¬state.RegistersAt record.key input) revoked later →
          (registering.after revoked later).registry.idByLocation record.key = none)

theorem Sound.identityKept (h : registrations.Sound) : registrations.IdentityKept := by
  intro index first known found answered later again second now waits stays same
  have sound := h.step (.register index)
  obtain ⟨held, place, generation⟩ := h.registered found answered
  obtain ⟨drawn, absent⟩ := sound.filed known.repositoryId (by rw [held]; rfl)
  have still : now.registry.byId known.repositoryId = some known := by
    cases (spent_after sound ⟨drawn, absent⟩ later).2 with
    | inl kept => exact kept.trans held
    | inr gone =>
      rw [show now.registry.get known.repositoryId = none from gone] at stays
      cases stays
  have soundNow : now.Sound := registering.invariant Sound (fun _ input held => held.step input)
    sound later
  have key : second.key = known.key := by
    rw [place, RepositoryRecord.key, RepositoryRecord.key, same.1, same.2]
  simp only [Machine.output, registering, register, waits, Option.some_inj]
  rw [← generation]
  split
  · rename_i build
    rw [register_known soundNow.coherent still key build]
  · rename_i rebuilt
    rcases register_cases soundNow.coherent second with
      ⟨other, filed, elsewhere, build, answers⟩ | ⟨freed, fewer, coherent, free, files⟩
    · -- the record that is known at this location is the first one, on the first build
      have at_key := (soundNow.coherent.located second.key other.repositoryId).mpr
        ⟨other, filed, elsewhere⟩
      rw [(soundNow.coherent.located second.key known.repositoryId).mpr ⟨known, still, key.symm⟩,
        Option.some_inj] at at_key
      rw [← at_key, still, Option.some_inj] at filed
      exact absurd (filed ▸ build).symm rebuilt
    · rw [files, RepositoryRegistry.file]

theorem Sound.revocationLasts (h : registrations.Sound) : registrations.RevocationLasts := by
  intro id record held removal removes later revoked
  have sound : revoked.Sound := h.step removal
  have filed : registrations.registry.byId id = some record := held
  have spent : revoked.Spent id := by
    obtain ⟨drawn, absent⟩ := h.filed id (by rw [filed]; rfl)
    exact (Spent.step h ⟨drawn, absent⟩ removal).1
  obtain ⟨gone, fewer⟩ : revoked.registry.byId id = none ∧
      Fewer registrations.registry revoked.registry := by
    rcases removes with rfl | rfl
    · have moves : revoked.registry = registrations.registry.revokeLocked id := revoke_eq _ _
      rw [moves]
      exact ⟨by rw [byId_revokeLocked, if_pos rfl], fewer_revokeLocked _ _⟩
    · exact ⟨revokeTarget_gone h.coherent held, (foldl_revokeLocked h.coherent _).1⟩
  have free := fewer.freed h.coherent sound.coherent held gone
  refine ⟨?_, fun elsewhere => free_after sound free elsewhere⟩
  cases (spent_after sound spent later).2 with
  | inl kept => exact kept.trans gone
  | inr gone => exact gone

/-- In every state a run of registrations and revocations reaches, the indexes of the
registry describe one set of repositories, a repository keeps its identity for as long as
it is registered on one build of its target, and a revoked one is not found again. -/
theorem registry_coherent (steps : List RegistrationStep) :
    let registrations := registering.after {} steps
    registrations.registry.Coherent ∧ registrations.IdentityKept ∧ registrations.RevocationLasts :=
  ⟨(sound_after steps).coherent, (sound_after steps).identityKept,
    (sound_after steps).revocationLasts⟩

def exampleRequest (directory targetGeneration : String) : OpenRequest where
  layout :=
    { gitDir := directory ++ "/.git", topLevel := some directory
      commonDir := directory ++ "/.git", isBare := false, objectFormat := "sha1"
      isShallow := false }
  directory
  allowedRootId := "root_1"
  rootPath := directory
  relativePath := ""
  targetId := "tgt_local"
  targetGeneration

/-- The target was rebuilt between two registrations of one directory: the second is
answered with another id. -/
theorem rebuilt_target_changes_identity :
    ∃ first second, registering.outputs {} [.open (exampleRequest "/repo" "gen_1"), .register 0,
        .open (exampleRequest "/repo" "gen_2"), .register 0] =
          [none, some first, none, some second] ∧
      SameRepository first second ∧ first.repositoryId ≠ second.repositoryId := by
  refine ⟨(buildRecord (exampleRequest "/repo" "gen_1") (mintedId 1)).settled,
    (buildRecord (exampleRequest "/repo" "gen_2") (mintedId 2)).settled, rfl, ⟨rfl, rfl⟩, ?_⟩
  intro same
  exact absurd (mintedId_injective same) (by decide)

end Registrations
end Refyard.Registration
