import Refyard.Foundation.Fallible
import Refyard.Http.Router

/-! What each handler can do to the repositories and which calls it makes to the pairing
store. -/
namespace Refyard.Http
open Registration Auth

section
variable {registry : RepositoryRegistry}

def Drawn (registry : RepositoryRegistry) (id : String) : Prop :=
  ∃ number ≤ registry.next, id = mintedId number

variable {id : String} {record : Registration.RepositoryRecord}

theorem Drawn.mono {other : RepositoryRegistry} (h : Drawn registry id)
    (more : registry.next ≤ other.next) : Drawn other id := by
  obtain ⟨number, within, named⟩ := h
  exact ⟨number, within.trans more, named⟩

def Settled (registry : RepositoryRegistry) : Prop :=
  Registrations.Sound { registry }

theorem settled_empty : Settled {} := Registrations.sound_empty

theorem Settled.drawn (h : Settled registry) (held : registry.byId id = some record) :
    Drawn registry id :=
  (h.filed id (by rw [held]; rfl)).1

theorem Settled.named (h : Settled registry) (held : registry.byId id = some record) :
    record.repositoryId = id :=
  h.coherent.filed id record held

theorem Settled.mem_list (h : Settled registry) :
    record ∈ registry.list ↔ registry.byId record.repositoryId = some record := by
  unfold RepositoryRegistry.list
  rw [List.mem_filterMap]
  constructor
  · rintro ⟨id, -, held⟩
    rw [h.named held]
    exact held
  · intro held
    refine ⟨record.repositoryId, ?_, held⟩
    rw [h.coherent.listed, held]
    rfl

theorem Settled.find?_list (h : Settled registry) (id : String) :
    registry.list.find? (fun record => record.repositoryId = id) = registry.byId id := by
  cases found : registry.list.find? (fun record => record.repositoryId = id) with
  | none =>
    cases held : registry.byId id with
    | none => rfl
    | some record =>
      have same := h.named held
      rw [List.find?_eq_none] at found
      exact absurd same (by simpa using found record (h.mem_list.mpr (same.symm ▸ held)))
  | some record =>
    have named := List.find?_some found
    rw [decide_eq_true_iff] at named
    have member := h.mem_list.mp (List.mem_of_find?_eq_some found)
    rw [named] at member
    exact member.symm

theorem Settled.openAndRegister (h : Settled registry) (request : OpenRequest) :
    Settled (ApplicationService.openAndRegister registry request).2 := by
  have opened : Registrations.Sound _ := Registrations.Sound.step h (.open request)
  exact opened.step (.register 0)

theorem openAndRegister_cases (h : Settled registry) (request : OpenRequest) :
    let record := buildRecord request (mintedId (registry.next + 1))
    (∃ known, registry.byId known.repositoryId = some known ∧ known.key = record.key ∧
        known.location.targetGeneration = request.targetGeneration ∧
        ApplicationService.openAndRegister registry request =
          (known, { registry with next := registry.next + 1 })) ∨
      ∃ freed, RepositoryRegistry.Fewer { registry with next := registry.next + 1 } freed ∧
        freed.idByLocation record.key = none ∧
        ApplicationService.openAndRegister registry request = freed.file record := by
  intro record
  have coherent : RepositoryRegistry.Coherent { registry with next := registry.next + 1 } :=
    ⟨h.coherent.nodup, h.coherent.listed, h.coherent.filed, h.coherent.located⟩
  obtain ⟨known, held, same, generation, answered⟩ | ⟨freed, fewer, -, free, answered⟩ :=
    RepositoryRegistry.register_cases coherent record
  · exact .inl ⟨known, held, same, generation, answered⟩
  · exact .inr ⟨freed, fewer, free, answered⟩

theorem next_openAndRegister (h : Settled registry) (request : OpenRequest) :
    (ApplicationService.openAndRegister registry request).2.next = registry.next + 1 := by
  obtain ⟨known, -, -, -, answered⟩ | ⟨freed, fewer, -, answered⟩ := openAndRegister_cases h request
  · rw [answered]
  · rw [answered]
    exact fewer.next

theorem byId_openAndRegister (h : Settled registry) (request : OpenRequest)
    (held : (ApplicationService.openAndRegister registry request).2.byId id = some record) :
    registry.byId id = some record ∨ id = mintedId (registry.next + 1) := by
  obtain ⟨known, -, -, -, answered⟩ | ⟨freed, fewer, -, answered⟩ := openAndRegister_cases h request
  · rw [answered] at held
    exact .inl held
  · rw [answered] at held
    simp only [RepositoryRegistry.file, Function.update_apply] at held
    split at held
    · rename_i same
      exact .inr same
    · exact .inl (fewer.of_some held)

theorem Settled.revokeLocked (h : Settled registry) (repositoryId : String) :
    Settled (registry.revokeLocked repositoryId) := by
  have revoked : Registrations.Sound _ := Registrations.Sound.step h (.revoke repositoryId)
  rw [← RepositoryRegistry.revoke_eq]
  exact revoked

end

namespace ApplicationService

variable (service : ApplicationService)

theorem approve_registry (body : RegisterBody) (opening : Opening) :
    (service.approve body opening).2.registry = service.registry := by
  unfold approve
  split
  · rfl
  · split
    · rfl
    · split
      · unfold approveLocal
        split
        · rfl
        · rfl
        · rfl
        · split <;> rfl
      · unfold approveRemote
        split
        · rfl
        · split <;> rfl

theorem file_cases (approved : Approved) (answer : LayoutAnswer) :
    (∃ problem, service.file approved answer = (.error problem, service)) ∨
      ∃ layout, answer = .opened layout ∧
        let opened := openAndRegister service.registry (approved.request layout)
        service.file approved answer =
          (.ok (opened.1, opened.2.list), { service with registry := opened.2 }) := by
  cases answer with
  | opened layout => exact .inr ⟨layout, rfl, rfl⟩
  | failed exitCode diagnostic => exact .inl ⟨_, rfl⟩
  | refused problem => exact .inl ⟨_, rfl⟩

theorem revokeRepository_cases (heads : Heads) (repositoryId : String) :
    (∃ problem, service.revokeRepository heads repositoryId = (.error problem, service)) ∨
      ∃ record, service.registry.byId repositoryId = some record ∧
        let next := { service with registry := service.registry.revokeLocked repositoryId }
        service.revokeRepository heads repositoryId = (.ok (next.repositories heads), next) := by
  unfold revokeRepository RepositoryRegistry.revoke
  cases service.registry.byId repositoryId with
  | none => exact .inl ⟨_, rfl⟩
  | some record => exact .inr ⟨record, rfl, rfl⟩

end ApplicationService

namespace HttpState
variable {state : HttpState}

theorem repositoryRootOf_eq (h : Settled state.service.registry) (heads : Heads) (id : String) :
    state.repositoryRootOf heads id =
      (state.service.registry.byId id).map Registration.RepositoryRecord.allowedRootId := by
  unfold repositoryRootOf ApplicationService.repositories ApplicationService.respond
  rw [List.find?_map, Option.map_map, ← h.find?_list id]
  rfl

theorem requireRepositoryGrant_ok (h : Settled state.service.registry) {heads : Heads}
    {session : Session} {id : String} :
    state.requireRepositoryGrant heads session id = .ok () ↔
      id ∈ session.grants.repositoryIds ∨ ∃ record, state.service.registry.byId id = some record ∧
        record.allowedRootId ∈ session.grants.allowedRootIds := by
  unfold requireRepositoryGrant AuthStore.allowsRepository
  rw [repositoryRootOf_eq h]
  split
  · rename_i direct
    simp [List.contains_iff_mem.mp direct]
  · rename_i direct
    cases held : state.service.registry.byId id with
    | none => simp_all
    | some record => simp_all

/-- Opening a repository is refused, and then no more than a root is new, or its record is
registered and the session is granted rows of the answer. -/
theorem registerRepository_cases (state : HttpState) (surroundings : Surroundings)
    (authorization : Option String) (body : Except Problem RegisterBody) (opening : Opening) :
    (∃ problem service, service.registry = state.service.registry ∧
        state.registerRepository surroundings authorization body opening =
          (.error problem, [], service)) ∨
      ∃ listed, ∃ approved : ApplicationService.Approved, ∃ layout service,
        let opened := ApplicationService.openAndRegister state.service.registry
          (approved.request layout)
        let answered := ({ state with service } : HttpState).answerRegister surroundings.heads
          (listed.filed opened.1 opened.2.list)
        state.beginRegister surroundings authorization body = .ok listed ∧
        service.registry = opened.2 ∧
        state.registerRepository surroundings authorization body opening =
          (.ok answered.1, answered.2, service) := by
  unfold registerRepository
  cases began : state.beginRegister surroundings authorization body with
  | error problem => exact .inl ⟨problem, _, rfl, rfl⟩
  | ok listed =>
    have kept := state.service.approve_registry listed.body opening
    dsimp only
    cases approval : state.service.approve listed.body opening with
    | mk approved service =>
      rw [approval] at kept
      cases approved with
      | error problem => exact .inl ⟨problem, service, kept, rfl⟩
      | ok approved =>
        dsimp only
        obtain ⟨problem, answered⟩ | ⟨layout, -, answered⟩ :=
          service.file_cases approved opening.layout
        · rw [answered]
          exact .inl ⟨problem, service, kept, rfl⟩
        · rw [answered, kept]
          exact .inr ⟨listed, approved, layout, _, rfl, rfl, rfl⟩

theorem mem_answerRegister {heads : Heads} {filed : Filed} {call : AuthCall}
    (h : call ∈ (state.answerRegister heads filed).2) :
    ∃ record ∈ filed.records, (filed.before.contains record.repositoryId = false ∨
        record.displayPath = filed.path) ∧
      call = .grant filed.sessionId record.allowedRootId record.repositoryId := by
  unfold answerRegister ApplicationService.respond at h
  obtain ⟨summary, member, rfl⟩ := List.mem_map.mp h
  rw [List.mem_filter, List.mem_map] at member
  obtain ⟨⟨record, listed, rfl⟩, taken⟩ := member
  refine ⟨record, listed, ?_, rfl⟩
  rw [opens, Bool.or_eq_true, Bool.not_eq_true', decide_eq_true_eq] at taken
  exact taken

/-- Revoking is refused, or takes one repository away and tells the pairing store, which
keeps the root where the service still lists it. -/
theorem revokeRepository_cases (h : Settled state.service.registry) (surroundings : Surroundings)
    (authorization : Option String) (body : Except Problem String) :
    (∃ problem, state.revokeRepository surroundings authorization body =
        (.error problem, [], state.service)) ∨ ∃ repositoryId record, body = .ok repositoryId ∧
        state.service.registry.byId repositoryId = some record ∧
        let next := { state.service with
          registry := state.service.registry.revokeLocked repositoryId }
        state.revokeRepository surroundings authorization body =
          (.ok (next.repositories surroundings.heads),
            [.revokeRepository repositoryId record.allowedRootId
              (state.service.roots.roots.any fun root => root.1 = record.allowedRootId)], next) := by
  unfold revokeRepository
  dsimp only
  split
  · rename_i problem refused
    exact .inl ⟨problem, rfl⟩
  · rename_i repositoryId accepted
    obtain ⟨session, -, rest⟩ := bind_eq_ok.mp accepted
    obtain ⟨-, -, asked⟩ := bind_eq_ok.mp rest
    obtain ⟨problem, answered⟩ | ⟨record, held, answered⟩ :=
      state.service.revokeRepository_cases surroundings.heads repositoryId
    · rw [answered]
      exact .inl ⟨problem, rfl⟩
    · rw [answered, repositoryRootOf_eq h, held]
      refine .inr ⟨repositoryId, record, asked, held, ?_⟩
      simp only [Option.map_some, ApplicationService.repositories, ApplicationService.respond,
        List.any_map]
      rfl

end HttpState
end Refyard.Http
