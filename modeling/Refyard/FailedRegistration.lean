import Refyard.HostNode.LoneApproval
import Refyard.Http.RouterSteps
import Refyard.Http.Targets

/-! What a failed registration leaves behind, in either host. An id that was drawn is no trace:
the numbers come from outside the registries. -/
namespace Refyard

namespace Approvals
open ApprovalHost

structure NoTrace (before after : Registry) : Prop where
  roots : after.roots.values = before.roots.values
  repositories : after.records.values = before.records.values
  contains : ∀ path, after.containingRoot path = before.containingRoot path
  answers : ∀ (homedir : String) (others : ApprovalHost) (later : List ApprovalStep),
    (managing homedir).outputs { others with registry := after } later =
      (managing homedir).outputs { others with registry := before } later

theorem noTrace_refl (registry : Registry) : NoTrace registry registry :=
  ⟨rfl, rfl, fun _ => rfl, fun _ _ _ => rfl⟩

variable {origin : Nat → String × String} {before : ApprovalHost} {homedir path : String}
  {findings : Findings}

theorem roots_widened (sound : Sound origin before) (path granted : String) :
    (before.widened path granted).roots.values =
      before.registry.roots.values ++ [⟨mintedRootId (before.rootNumber + 1), path, true, []⟩] := by
  apply InsertionMap.values_set_of_fresh
  cases found : before.registry.roots.get? (mintedRootId (before.rootNumber + 1)) with
  | none => rfl
  | some root =>
    obtain ⟨member, same⟩ := InsertionMap.get?_eq_some.mp found
    obtain ⟨drawn, within, named⟩ := sound.registry.roots root member
    have equal := mintedRootId_injective (named.symm.trans same)
    omega

theorem Ground.noTrace_iff {registry : Registry}
    (ground : Ground before homedir path findings registry) (sound : Sound origin before) :
    NoTrace before.registry registry ↔ ¬ NewRoot before homedir path findings := by
  cases ground with
  | old keeps => exact iff_of_true (noTrace_refl before.registry) keeps
  | widened found granted new =>
    refine iff_of_false ?_ (not_not_intro new)
    intro noTrace
    have roots := noTrace.roots
    rw [roots_widened sound] at roots
    simp at roots

theorem refused_noTrace_iff {steps : List ApprovalStep} {problem : Problem}
    (refused : (((managing homedir).after {} steps).registerAlone homedir path findings).2 =
      some (.refused problem)) : NoTrace ((managing homedir).after {} steps).registry
        (((managing homedir).after {} steps).registerAlone homedir path findings).1.registry ↔
      ¬ NewRoot ((managing homedir).after {} steps) homedir path findings := by
  obtain ⟨origin, sound⟩ := sound_after homedir steps
  have taken := taken_register sound homedir path findings
  generalize ((managing homedir).after {} steps).registerAlone homedir path findings = outcome
    at taken refused
  cases taken with
  | goesOn alone fewer => cases fewer
  | refused problem ground => exact ground.noTrace_iff sound
  | registered state approval => cases refused

def plainDirectory : Findings where
  realPath := some "/work/plain"
  directory := .ok ("/work/plain", true)
  granted := .ok ("/work/plain", true)
  root := .intact
  layout :=
    { handle := "dir_1"
      resolved := .ok ("/work/plain", true)
      layout := .error (.handle .notFound "not a Git repository")
      commonDirRead := true }
  reconciled := .ok ()
  worktrees := .ok []
  written := .ok ()

/-- It is refused, and from then on it is an approved root for the paths below it. -/
theorem refused_directory_contains :
    (∃ problem, (({} : ApprovalHost).registerAlone "/home/user" "/work/plain" plainDirectory).2 =
      some (.refused problem)) ∧ ({} : Registry).containingRoot "/work/plain/notes" = none ∧
      (({} : ApprovalHost).registerAlone "/home/user" "/work/plain"
          plainDirectory).1.registry.containingRoot "/work/plain/notes" =
        some ⟨"root_1", "/work/plain", true, []⟩ :=
  ⟨⟨_, rfl⟩, rfl, by decide +kernel⟩

end Approvals

namespace Http
open Registration

namespace ApplicationService

/-- `register_repository_on` while no other call comes in between. -/
def registerRepositoryOn (service : ApplicationService) (heads : Heads) (body : RegisterBody)
    (opening : Opening) : Except Problem RepositoriesResponse × ApplicationService :=
  match service.approve body opening with
  | (.error problem, service) => (.error problem, service)
  | (.ok approved, service) =>
      match service.file approved opening.layout with
      | (.error problem, service) => (.error problem, service)
      | (.ok (_, records), service) => (.ok (service.respond heads records), service)

def localRoot (target : TargetRecord) (opening : Opening) : Option RootKey :=
  match opening.canonical, opening.isDirectory, executor target with
  | some canonical, some true, .ok .local => some (.local canonical)
  | _, _, _ => none

def remoteRoot (target : TargetRecord) (path : String) : Option RootKey :=
  match path.toList.head?, executor target with
  | some '/', .ok .sshConfig => some (.remote path)
  | _, _ => none

def wantedRoot (service : ApplicationService) (body : RegisterBody) (opening : Opening) :
    Option RootKey :=
  match service.requireTarget (body.targetId.getD service.targetId) with
  | .error _ => none
  | .ok target =>
      if !target.ready then none
      else
        match target.kind with
        | .local => localRoot target opening
        | .sshConfig => remoteRoot target body.path

def approving (service : ApplicationService) : Option RootKey → ApplicationService
  | none => service
  | some key => { service with roots := (service.roots.approve key).2 }

variable (service : ApplicationService)
variable (target : TargetRecord)

theorem approveLocal_service (path : String) (opening : Opening) :
    (service.approveLocal target path opening).2 =
      service.approving (localRoot target opening) := by
  unfold approveLocal localRoot
  cases opening.canonical with
  | none => rfl
  | some canonical =>
    cases opening.isDirectory with
    | none => rfl
    | some isDirectory =>
      cases isDirectory with
      | false => rfl
      | true =>
        cases executor target with
        | error problem => rfl
        | ok kind => cases kind <;> rfl

theorem approveRemote_service (path : String) :
    (service.approveRemote target path).2 = service.approving (remoteRoot target path) := by
  unfold approveRemote remoteRoot
  split
  · rename_i differs
    split
    · rename_i same _
      exact absurd same differs
    · rfl
  · rename_i same
    rw [not_not.mp same]
    cases executor target with
    | error problem => rfl
    | ok kind => cases kind <;> rfl

theorem approve_service (body : RegisterBody) (opening : Opening) :
    (service.approve body opening).2 = service.approving (service.wantedRoot body opening) := by
  unfold approve wantedRoot
  cases service.requireTarget (body.targetId.getD service.targetId) with
  | error problem => rfl
  | ok target =>
    dsimp only
    split
    · rfl
    · cases target.kind with
      | «local» => exact approveLocal_service service target body.path opening
      | sshConfig => exact approveRemote_service service target body.path

structure NoTrace (before after : ApplicationService) : Prop where
  roots : after.roots.roots = before.roots.roots
  repositories : after.registry.list = before.registry.list
  answers : ∀ (digest : String → String) (others : ServiceRun) (later : List ServiceStep),
    (ServiceRun.serving digest).outputs { others with service := after } later =
      (ServiceRun.serving digest).outputs { others with service := before } later

theorem noTrace_refl : NoTrace service service :=
  ⟨rfl, rfl, fun _ _ _ => rfl⟩

theorem approving_noTrace_iff (key? : Option RootKey) : NoTrace service (service.approving key?) ↔
      ∀ key ∈ key?, key ∈ service.roots.roots.map Prod.snd := by
  cases key? with
  | none => exact iff_of_true (noTrace_refl service) nofun
  | some key =>
    unfold approving RootState.approve
    dsimp only
    cases found : service.roots.roots.find? fun root => root.2 = key with
    | some root =>
      refine iff_of_true (noTrace_refl service) ?_
      rintro other ⟨⟩
      exact List.mem_map.mpr ⟨root, List.mem_of_find?_eq_some found, by
        simpa using List.find?_some found⟩
    | none =>
      refine iff_of_false ?_ ?_
      · intro noTrace
        simpa using noTrace.roots
      · intro approved
        obtain ⟨root, member, same⟩ := List.mem_map.mp (approved key rfl)
        rw [List.find?_eq_none] at found
        exact found root member (by simpa using same)

theorem failed_service {service : ApplicationService} {heads : Heads} {body : RegisterBody}
    {opening : Opening} {problem : Problem}
    (failed : (service.registerRepositoryOn heads body opening).1 = .error problem) :
    (service.registerRepositoryOn heads body opening).2 =
      service.approving (service.wantedRoot body opening) := by
  rw [← approve_service]
  unfold registerRepositoryOn at failed ⊢
  generalize service.approve body opening = outcome at failed ⊢
  obtain ⟨approval, next⟩ := outcome
  cases approval with
  | error refusal => rfl
  | ok approved =>
    dsimp only at failed ⊢
    obtain ⟨refusal, same⟩ | ⟨layout, -, same⟩ := next.file_cases approved opening.layout
    · rw [same]
    · rw [same] at failed
      cases failed

end ApplicationService

end Http

/-- In either host a registration that fails leaves no trace where it approved no new root. -/
theorem failed_registration_traces (homedir path : String) (steps : List Approvals.ApprovalStep)
    (findings : Approvals.Findings) (service : Http.ApplicationService) (heads : Http.Heads)
    (body : Http.RegisterBody) (opening : Http.Opening) : (∀ problem,
      (((Approvals.ApprovalHost.managing homedir).after {} steps).registerAlone homedir path
          findings).2 = some (.refused problem) →
        (Approvals.NoTrace ((Approvals.ApprovalHost.managing homedir).after {} steps).registry
            (((Approvals.ApprovalHost.managing homedir).after {} steps).registerAlone homedir path
              findings).1.registry ↔
          ¬ Approvals.NewRoot ((Approvals.ApprovalHost.managing homedir).after {} steps) homedir
            path findings)) ∧
      ∀ problem, (service.registerRepositoryOn heads body opening).1 = .error problem →
        (Http.ApplicationService.NoTrace service
            (service.registerRepositoryOn heads body opening).2 ↔
          ∀ key ∈ service.wantedRoot body opening, key ∈ service.roots.roots.map Prod.snd) := by
  constructor
  · intro problem refused
    exact Approvals.refused_noTrace_iff refused
  · intro problem failed
    rw [Http.ApplicationService.failed_service failed]
    exact Http.ApplicationService.approving_noTrace_iff service (service.wantedRoot body opening)

end Refyard
