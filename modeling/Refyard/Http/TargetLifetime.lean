import Refyard.Http.RouterSteps
import Refyard.Http.Targets

/-! No repository outlives its target, as long as no registration that was overtaken by a
disconnect files its record. -/
namespace Refyard.Http
open Registration

def ApplicationService.Holds (service : ApplicationService) (targetId : String) : Prop :=
  ∃ target, (service.targets.find? fun target => target.targetId = targetId) = some target

/-- A repository that can be read or written: its target is there, in the build it was opened
on. -/
def ApplicationService.Addressable (service : ApplicationService) (repositoryId : String) : Prop :=
  ∃ record, service.registry.get repositoryId = some record ∧ (service.targetFor record).isOk = true

namespace ServiceRun

def RegistersOn (run : ServiceRun) (call : Nat) (targetId : String) : Prop :=
  ∃ held, run.calls call = some held ∧ held.registersOn = some targetId

def TargetsHeld (run : ServiceRun) : Prop :=
  (∀ call, run.calls call = none) → ∀ id record, run.service.registry.get id = some record →
    run.service.Holds record.location.targetId

def Files (digest : String → String) (run : ServiceRun) (call : Nat) (answer : LayoutAnswer)
    (record : Registration.RepositoryRecord) : Prop :=
  run.service.registry.get record.repositoryId = none ∧
    ((serving digest).next run (.laidOut call answer)).service.registry.get record.repositoryId =
      some record

/-- After a target was disconnected, no repository of it that a registration begun before has
filed, or files later on, can be read or written. -/
def DisconnectLasts (digest : String → String) (start : ServiceRun) (steps : List ServiceStep) :
    Prop :=
  let after := (serving digest).after start
  ∀ front targetId back, steps = front ++ .disconnectTarget targetId :: back →
    ((after front).service.disconnectTarget targetId).1 = .ok () →
    ∀ earlier call answer later record, steps = earlier ++ .laidOut call answer :: later →
      Files digest (after earlier) call answer record → record.location.targetId = targetId →
      call < (after front).begun → ¬ (after steps).service.Addressable record.repositoryId

/-- The repository is registered already, on the build of the target the call began with. -/
def Known (run : ServiceRun) (approved : ApplicationService.Approved) (layout : RepositoryLayout) :
    Prop :=
  ∃ known ∈ run.service.registry.list, known.key = locationKey approved.targetId layout.commonDir ∧
      known.location.targetGeneration = approved.targetGeneration

/-- A layout that is answered comes before the target is disconnected, or brings nothing new. -/
def InTime (run : ServiceRun) : ServiceStep → Prop
  | .laidOut call (.opened layout) => ∀ approved, run.calls call = some (.opening approved) →
      approved.targetId ∉ run.since call ∨ run.Known approved layout
  | _ => True

/-! What one step does. -/

/-- Calls go on where they are, and one that begins on a target begins while it is held. -/
structure Keeps (run next : ServiceRun) : Prop where
  begun : run.begun ≤ next.begun
  calls : ∀ call targetId, next.RegistersOn call targetId →
    (run.RegistersOn call targetId ∧ next.seen call = run.seen call) ∨
      (call = run.begun ∧ next.seen call = run.disconnects.length ∧ run.service.Holds targetId)

section Keeping
variable {run : ServiceRun}

theorem Keeps.same {next : ServiceRun} (begun : run.begun ≤ next.begun)
    (calls : next.calls = run.calls) (seen : next.seen = run.seen) : Keeps run next := by
  refine ⟨begun, fun call targetId registers => .inl ⟨?_, congrFun seen call⟩⟩
  obtain ⟨held, found, on⟩ := registers
  exact ⟨held, by rw [← calls, found], on⟩

variable {call : Nat} {service : ApplicationService} {target : TargetRecord} {path : String}
  {approved : ApplicationService.Approved}

theorem Keeps.ends {next : ServiceRun} (begun : run.begun ≤ next.begun)
    (calls : next.calls = Function.update run.calls call none) (seen : next.seen = run.seen) :
    Keeps run next := by
  refine ⟨begun, ?_⟩
  rintro other targetId ⟨held, found, on⟩
  rw [calls, Function.update_apply] at found
  split at found
  · cases found
  · exact .inl ⟨⟨held, found, on⟩, congrFun seen other⟩

variable {held : Call}

theorem Keeps.goesOn {next : ServiceRun} (begun : run.begun ≤ next.begun)
    (calls : next.calls = Function.update run.calls call (some held)) (seen : next.seen = run.seen)
    (on : ∀ targetId, held.registersOn = some targetId → run.RegistersOn call targetId) :
    Keeps run next := by
  refine ⟨begun, ?_⟩
  rintro other targetId ⟨found, holds, registers⟩
  rw [calls, Function.update_apply] at holds
  split at holds
  · rename_i same
    obtain rfl := Option.some.inj holds
    exact .inl ⟨same ▸ on targetId registers, congrFun seen other⟩
  · exact .inl ⟨⟨found, holds, registers⟩, congrFun seen other⟩

theorem Keeps.begins {next : ServiceRun} (begun : run.begun ≤ next.begun)
    (calls : next.calls = Function.update run.calls run.begun (some held))
    (seen : next.seen = Function.update run.seen run.begun run.disconnects.length)
    (on : ∀ targetId, held.registersOn = some targetId → run.service.Holds targetId) :
    Keeps run next := by
  refine ⟨begun, ?_⟩
  rintro other targetId ⟨found, holds, registers⟩
  rw [calls, Function.update_apply] at holds
  rw [seen, Function.update_apply]
  split at holds
  · rename_i same
    obtain rfl := Option.some.inj holds
    exact .inr ⟨same, if_pos same, on targetId registers⟩
  · rename_i differs
    exact .inl ⟨⟨found, holds, registers⟩, if_neg differs⟩

theorem holds_of_requireTarget {targetId : String}
    (found : service.requireTarget targetId = .ok target) : service.Holds target.targetId := by
  unfold ApplicationService.requireTarget at found
  cases held : service.targets.find? fun target => target.targetId = targetId with
  | none =>
    rw [held] at found
    cases found
  | some other =>
    rw [held] at found
    obtain rfl := Except.ok.inj found
    have named : other.targetId = targetId := by simpa using List.find?_some held
    exact ⟨other, named ▸ held⟩

theorem approveLocal_target {next : ApplicationService} {opening : Opening}
    (ok : service.approveLocal target path opening = (.ok approved, next)) :
    approved.targetId = target.targetId := by
  unfold ApplicationService.approveLocal at ok
  dsimp only at ok
  split at ok
  · cases ok
  · cases ok
  · cases ok
  · split at ok
    · cases ok
    · cases ok
    · obtain ⟨same, -⟩ := Prod.mk.inj ok
      rw [← Except.ok.inj same]
      rfl

theorem approveRemote_target {next : ApplicationService}
    (ok : service.approveRemote target path = (.ok approved, next)) :
    approved.targetId = target.targetId := by
  unfold ApplicationService.approveRemote at ok
  split at ok
  · cases ok
  · split at ok
    · cases ok
    · cases ok
    · obtain ⟨same, -⟩ := Prod.mk.inj ok
      rw [← Except.ok.inj same]

theorem keeps_records (call : Nat) (target : TargetRecord) :
    Keeps run (run.records call target).1 :=
  .ends (Nat.le_refl _) rfl rfl

theorem keeps_begin_opening (held : run.service.Holds target.targetId)
    (ok : run.service.approveRemote target path = (.ok approved, service)) :
    Keeps run ({ run with service }.begins (.opening approved)) := by
  refine .begins (Nat.le_succ _) rfl rfl ?_
  rintro targetId ⟨⟩
  rwa [approveRemote_target ok]

theorem keeps_registerRepositoryOn (body : RegisterBody) :
    Keeps run (run.registerRepositoryOn body).1 := by
  unfold registerRepositoryOn
  cases required : run.service.requireTarget (body.targetId.getD run.service.targetId) with
  | error problem => exact .same (Nat.le_succ _) rfl rfl
  | ok target =>
    have held := holds_of_requireTarget required
    dsimp only
    split
    · exact .same (Nat.le_succ _) rfl rfl
    · cases target.kind with
      | «local» =>
        refine .begins (Nat.le_succ _) rfl rfl ?_
        rintro targetId ⟨⟩
        exact held
      | sshConfig =>
        dsimp only
        split
        · exact .same (Nat.le_succ _) rfl rfl
        · rename_i approved service ok
          exact keeps_begin_opening held ok

theorem keeps_listed (digest : String → String) {hostId : String}
    (listing : Except Problem SshHostListing) (provider : Except Problem Unit) :
    Keeps run (run.listed digest call hostId listing provider).1 := by
  unfold listed
  split
  · exact .ends (Nat.le_refl _) rfl rfl
  · split
    · exact .ends (Nat.le_refl _) rfl rfl
    · split
      · exact .goesOn (Nat.le_refl _) rfl rfl nofun
      · split
        · exact .ends (Nat.le_refl _) rfl rfl
        · exact keeps_records call _

theorem keeps_located (opening : Opening) (waits : run.calls call = some (.locating path target)) :
    Keeps run (run.located call path target opening).1 := by
  unfold located
  split
  · exact .ends (Nat.le_refl _) rfl rfl
  · rename_i approved service ok
    refine .goesOn (Nat.le_refl _) rfl rfl ?_
    rintro targetId ⟨⟩
    exact ⟨_, waits, congrArg some (approveLocal_target ok).symm⟩

theorem keeps_laidOut (answer : LayoutAnswer) : Keeps run (run.laidOut call approved answer).1 := by
  unfold laidOut
  split
  · exact .ends (Nat.le_refl _) rfl rfl
  · exact .goesOn (Nat.le_refl _) rfl rfl nofun

theorem keeps_next (run : ServiceRun) (digest : String → String) (step : ServiceStep) :
    Keeps run ((serving digest).next run step) := by
  unfold Machine.next serving
  cases step with
  | createTarget request =>
    cases request with
    | «local» =>
      dsimp only [createTarget]
      split
      · exact .same (Nat.le_succ _) rfl rfl
      · exact .same (Nat.le_succ _) rfl rfl
    | sshConfig hostId => exact .begins (Nat.le_succ _) rfl rfl nofun
  | registerRepositoryOn body => exact keeps_registerRepositoryOn body
  | revokeRepository repositoryId =>
    dsimp only [revokeRepository]
    split
    · exact .same (Nat.le_succ _) rfl rfl
    · exact .begins (Nat.le_succ _) rfl rfl nofun
  | disconnectTarget targetId =>
    dsimp only [disconnectTarget]
    split
    · exact .same (Nat.le_succ _) rfl rfl
    · exact .same (Nat.le_succ _) rfl rfl
  | listed call listing provider =>
    dsimp only
    split
    · exact keeps_listed digest listing provider
    · exact .same (Nat.le_refl _) rfl rfl
  | probed call version =>
    dsimp only
    split
    · cases version with
      | ok version => exact keeps_records call _
      | error problem => exact keeps_records call _
    · exact .same (Nat.le_refl _) rfl rfl
  | located call opening =>
    dsimp only
    split
    · rename_i path target waits
      exact keeps_located opening waits
    · exact .same (Nat.le_refl _) rfl rfl
  | laidOut call answer =>
    dsimp only
    split
    · exact keeps_laidOut answer
    · exact .same (Nat.le_refl _) rfl rfl
  | answered call heads =>
    dsimp only
    split
    · exact .ends (Nat.le_refl _) rfl rfl
    · exact .same (Nat.le_refl _) rfl rfl

end Keeping

/-! What a step does to the registries. -/

structure Spares (run next : ServiceRun) : Prop where
  registry : next.service.registry = run.service.registry
  holds : ∀ targetId, run.service.Holds targetId → next.service.Holds targetId
  disconnects : next.disconnects = run.disconnects

section Changing
variable {run : ServiceRun}

theorem Spares.of_service {next : ServiceRun}
    (registry : next.service.registry = run.service.registry)
    (targets : next.service.targets = run.service.targets)
    (disconnects : next.disconnects = run.disconnects) : Spares run next := by
  refine ⟨registry, fun targetId held => ?_, disconnects⟩
  unfold ApplicationService.Holds
  rw [targets]
  exact held

theorem spares_records (call : Nat) (target : TargetRecord) :
    Spares run (run.records call target).1 := by
  refine ⟨rfl, ?_, rfl⟩
  rintro targetId ⟨other, found⟩
  change ∃ target_1, (InsertionMap.setIn TargetRecord.targetId target
    run.service.targets).find? _ = some target_1
  rw [InsertionMap.find?_setIn]
  split
  · exact ⟨target, rfl⟩
  · exact ⟨other, found⟩

variable (service : ApplicationService)

theorem approveLocal_service (target : TargetRecord) (path : String) (opening : Opening) :
    (service.approveLocal target path opening).2.registry = service.registry ∧
      (service.approveLocal target path opening).2.targets = service.targets := by
  unfold ApplicationService.approveLocal
  split
  · exact ⟨rfl, rfl⟩
  · exact ⟨rfl, rfl⟩
  · exact ⟨rfl, rfl⟩
  · split
    · exact ⟨rfl, rfl⟩
    · exact ⟨rfl, rfl⟩
    · exact ⟨rfl, rfl⟩

theorem approveRemote_service (target : TargetRecord) (path : String) :
    (service.approveRemote target path).2.registry = service.registry ∧
      (service.approveRemote target path).2.targets = service.targets := by
  unfold ApplicationService.approveRemote
  split
  · exact ⟨rfl, rfl⟩
  · split
    · exact ⟨rfl, rfl⟩
    · exact ⟨rfl, rfl⟩
    · exact ⟨rfl, rfl⟩

theorem spares_registerRepositoryOn (body : RegisterBody) :
    Spares run (run.registerRepositoryOn body).1 := by
  unfold registerRepositoryOn
  split
  · exact .of_service rfl rfl rfl
  · rename_i target required
    split
    · exact .of_service rfl rfl rfl
    · split
      · exact .of_service rfl rfl rfl
      · obtain ⟨registry, targets⟩ := approveRemote_service run.service target body.path
        split
        · rename_i problem service answered
          rw [answered] at registry targets
          exact .of_service registry targets rfl
        · rename_i approved service answered
          rw [answered] at registry targets
          exact .of_service registry targets rfl

theorem spares_located (call : Nat) (path : String) (target : TargetRecord) (opening : Opening) :
    Spares run (run.located call path target opening).1 := by
  obtain ⟨registry, targets⟩ := approveLocal_service run.service target path opening
  unfold located
  split
  · rename_i problem service answered
    rw [answered] at registry targets
    exact .of_service registry targets rfl
  · rename_i approved service answered
    rw [answered] at registry targets
    exact .of_service registry targets rfl

theorem spares_listed (digest : String → String) (call : Nat) (hostId : String)
    (listing : Except Problem SshHostListing) (provider : Except Problem Unit) :
    Spares run (run.listed digest call hostId listing provider).1 := by
  unfold listed
  split
  · exact .of_service rfl rfl rfl
  · split
    · exact .of_service rfl rfl rfl
    · split
      · exact .of_service rfl rfl rfl
      · split
        · exact .of_service rfl rfl rfl
        · exact spares_records call _

structure Opens (run next : ServiceRun) (step : ServiceStep) (call : Nat)
    (approved : ApplicationService.Approved) (layout : RepositoryLayout) : Prop where
  step : step = .laidOut call (.opened layout)
  waits : run.calls call = some (.opening approved)
  targets : next.service.targets = run.service.targets
  registry : next.service.registry =
    (ApplicationService.openAndRegister run.service.registry (approved.request layout)).2
  disconnects : next.disconnects = run.disconnects

structure Drops (run next : ServiceRun) (step : ServiceStep) (targetId : String) : Prop where
  step : step = .disconnectTarget targetId
  accepted : (run.service.disconnectTarget targetId).1 = .ok ()
  targets : next.service.targets =
    run.service.targets.eraseP fun target => target.targetId = targetId
  registry : next.service.registry = (run.service.registry.revokeTarget targetId).2
  disconnects : next.disconnects = run.disconnects ++ [targetId]

theorem laidOut_cases (run : ServiceRun) (digest : String → String) (call : Nat) (answer : LayoutAnswer) :
    let next := (serving digest).next run (.laidOut call answer)
    Spares run next ∨
      ∃ approved layout, Opens run next (.laidOut call answer) call approved layout := by
  dsimp only [Machine.next, serving]
  split
  · rename_i approved waits
    unfold laidOut
    obtain ⟨problem, filed⟩ | ⟨layout, rfl, filed⟩ := run.service.file_cases approved answer
    · rw [filed]
      exact .inl (.of_service rfl rfl rfl)
    · rw [filed]
      exact .inr ⟨approved, layout, rfl, waits, rfl, rfl, rfl⟩
  · exact .inl (.of_service rfl rfl rfl)

theorem disconnectTarget_cases (run : ServiceRun) (digest : String → String) (targetId : String) :
    let next := (serving digest).next run (.disconnectTarget targetId)
    Spares run next ∨ Drops run next (.disconnectTarget targetId) targetId := by
  dsimp only [Machine.next, serving, disconnectTarget]
  cases found : run.service.targets.find? fun target => target.targetId = targetId with
  | none =>
    have refused : run.service.disconnectTarget targetId =
        (.error (.new .notFound s!"unknown execution target {targetId}"), run.service) := by
      rw [ApplicationService.disconnectTarget, found]
    rw [refused]
    exact .inl (.of_service rfl rfl rfl)
  | some target =>
    cases kind : target.kind with
    | «local» =>
      obtain ⟨problem, refused⟩ : ∃ problem, run.service.disconnectTarget targetId =
          (.error problem, run.service) := by
        rw [ApplicationService.disconnectTarget, found]
        dsimp only
        rw [kind]
        exact ⟨_, rfl⟩
      rw [refused]
      exact .inl (.of_service rfl rfl rfl)
    | sshConfig =>
      have dropped : run.service.disconnectTarget targetId = (.ok (), { run.service with
          targets := run.service.targets.eraseP fun target => target.targetId = targetId
          registry := (run.service.registry.revokeTarget targetId).2 }) := by
        rw [ApplicationService.disconnectTarget, found]
        dsimp only
        rw [kind]
      rw [dropped]
      exact .inr ⟨rfl, by rw [dropped], rfl, rfl, rfl⟩

theorem next_cases (run : ServiceRun) (digest : String → String) (step : ServiceStep) :
    let next := (serving digest).next run step
    Spares run next ∨ (∃ call approved layout, Opens run next step call approved layout) ∨
      (∃ repositoryId, next.service =
          { run.service with registry := run.service.registry.revokeLocked repositoryId } ∧
        next.disconnects = run.disconnects) ∨
      ∃ targetId, Drops run next step targetId := by
  intro next
  cases step with
  | createTarget request =>
    cases request with
    | «local» =>
      left
      dsimp only [next, Machine.next, serving, createTarget]
      split
      · exact .of_service rfl rfl rfl
      · exact .of_service rfl rfl rfl
    | sshConfig hostId => exact .inl (.of_service rfl rfl rfl)
  | registerRepositoryOn body => exact .inl (spares_registerRepositoryOn body)
  | revokeRepository repositoryId =>
    have revoked := run.service.registry.revoke_eq repositoryId
    dsimp only [next, Machine.next, serving, revokeRepository]
    split
    · exact .inl (.of_service rfl rfl rfl)
    · rename_i registry answered
      rw [answered] at revoked
      exact .inr (.inr (.inl ⟨repositoryId, by rw [← revoked]; rfl, rfl⟩))
  | disconnectTarget targetId =>
    obtain spares | drops := disconnectTarget_cases run digest targetId
    · exact .inl spares
    · exact .inr (.inr (.inr ⟨targetId, drops⟩))
  | listed call listing provider =>
    left
    dsimp only [next, Machine.next, serving]
    split
    · exact spares_listed digest call _ listing provider
    · exact .of_service rfl rfl rfl
  | probed call version =>
    left
    dsimp only [next, Machine.next, serving]
    split
    · cases version with
      | ok version => exact spares_records call _
      | error problem => exact spares_records call _
    · exact .of_service rfl rfl rfl
  | located call opening =>
    left
    dsimp only [next, Machine.next, serving]
    split
    · exact spares_located call _ _ opening
    · exact .of_service rfl rfl rfl
  | laidOut call answer =>
    obtain spares | ⟨approved, layout, opens⟩ := laidOut_cases run digest call answer
    · exact .inl spares
    · exact .inr (.inl ⟨call, approved, layout, opens⟩)
  | answered call heads =>
    left
    dsimp only [next, Machine.next, serving]
    split
    · exact .of_service rfl rfl rfl
    · exact .of_service rfl rfl rfl

end Changing

/-! What holds along a run. -/

section Running
variable {run : ServiceRun}

/-- A target that is held while a registration on it is in progress, unless it was disconnected
since. -/
structure Sound (run : ServiceRun) : Prop where
  settled : Settled run.service.registry
  stamps : ∀ call targetId, run.RegistersOn call targetId → run.seen call ≤ run.disconnects.length
  pending : ∀ call targetId, run.RegistersOn call targetId → targetId ∉ run.since call →
    run.service.Holds targetId

def Housed (run : ServiceRun) : Prop :=
  ∀ id record, run.service.registry.byId id = some record →
    run.service.Holds record.location.targetId

variable {service : ApplicationService} {targetId id : String} {call : Nat}
  {record : Registration.RepositoryRecord} {digest : String → String}

variable {other : String} {approved : ApplicationService.Approved} {layout : RepositoryLayout}
  {base : ServiceRun}

theorem holds_eraseP {next : ApplicationService}
    (dropped : next.targets = service.targets.eraseP fun target => target.targetId = targetId)
    (differs : other ≠ targetId) (held : service.Holds other) : next.Holds other := by
  unfold ApplicationService.Holds at held ⊢
  rw [dropped]
  obtain ⟨target, found⟩ := held
  refine ⟨target, ?_⟩
  rw [← found]
  generalize service.targets = targets
  induction targets with
  | nil => rfl
  | cons first rest ih =>
    by_cases here : first.targetId = targetId
    · rw [List.eraseP_cons_of_pos (by simpa using here), List.find?_cons_of_neg]
      rw [decide_eq_true_iff, here]
      exact Ne.symm differs
    · rw [List.eraseP_cons_of_neg (by simpa using here), List.find?_cons, List.find?_cons, ih]

theorem Holds.of_targets {next : ApplicationService} (targets : next.targets = service.targets)
    (held : service.Holds targetId) : next.Holds targetId := by
  unfold ApplicationService.Holds at held ⊢
  rwa [targets]

theorem settled_next (digest : String → String) (step : ServiceStep)
    (settled : Settled run.service.registry) :
    Settled ((serving digest).next run step).service.registry := by
  obtain spares | ⟨call, approved, layout, opens⟩ | ⟨repositoryId, service, -⟩ | ⟨targetId, drops⟩ :=
    next_cases run digest step
  · rw [spares.registry]
    exact settled
  · rw [opens.registry]
    exact settled.openAndRegister _
  · rw [service]
    exact settled.revokeLocked repositoryId
  · have revoked : Registrations.Sound _ :=
      Registrations.Sound.step settled (.revokeTarget targetId)
    rw [drops.registry]
    exact revoked

theorem disconnects_next (run : ServiceRun) (digest : String → String) (step : ServiceStep) :
    ∃ more, ((serving digest).next run step).disconnects = run.disconnects ++ more := by
  obtain spares | ⟨call, approved, layout, opens⟩ | ⟨repositoryId, -, same⟩ | ⟨targetId, drops⟩ :=
    next_cases run digest step
  · exact ⟨[], by rw [spares.disconnects, List.append_nil]⟩
  · exact ⟨[], by rw [opens.disconnects, List.append_nil]⟩
  · exact ⟨[], by rw [same, List.append_nil]⟩
  · exact ⟨[targetId], drops.disconnects⟩

theorem since_next {next : ServiceRun} {more : List String}
    (grown : next.disconnects = run.disconnects ++ more)
    (seen : next.seen call ≤ run.disconnects.length) :
    next.since call = run.disconnects.drop (next.seen call) ++ more := by
  rw [since, grown, List.drop_append_of_le_length seen]

theorem Sound.next (h : run.Sound) (digest : String → String) (step : ServiceStep) :
    ((serving digest).next run step).Sound := by
  have keeps := keeps_next run digest step
  have stamped : ∀ call targetId, ((serving digest).next run step).RegistersOn call targetId →
      ((serving digest).next run step).seen call ≤ run.disconnects.length := by
    intro call targetId registers
    obtain ⟨was, seen⟩ | ⟨-, seen, -⟩ := keeps.calls call targetId registers
    · rw [seen]
      exact h.stamps call targetId was
    · exact seen.le
  -- a call that was in progress, or begins, had its target held before the step
  have held : ∀ call targetId, ((serving digest).next run step).RegistersOn call targetId →
      targetId ∉ run.disconnects.drop (((serving digest).next run step).seen call) →
      run.service.Holds targetId := by
    intro call targetId registers absent
    obtain ⟨was, seen⟩ | ⟨-, -, held⟩ := keeps.calls call targetId registers
    · rw [seen] at absent
      exact h.pending call targetId was absent
    · exact held
  refine ⟨settled_next digest step h.settled, ?_, ?_⟩
  · intro call targetId registers
    obtain ⟨more, grown⟩ := disconnects_next run digest step
    rw [grown, List.length_append]
    exact (stamped call targetId registers).trans (Nat.le_add_right _ _)
  · intro call targetId registers absent
    have before := held call targetId registers
    obtain spares | ⟨_, approved, layout, opens⟩ | ⟨repositoryId, service, same⟩ |
        ⟨dropped, drops⟩ := next_cases run digest step
    · rw [since, spares.disconnects] at absent
      exact spares.holds targetId (before absent)
    · rw [since, opens.disconnects] at absent
      exact Holds.of_targets opens.targets (before absent)
    · rw [since, same] at absent
      exact Holds.of_targets (by rw [service]) (before absent)
    · rw [since_next drops.disconnects (stamped call targetId registers), List.mem_append,
        List.mem_singleton, not_or] at absent
      exact holds_eraseP drops.targets absent.2 (before absent.1)

theorem openAndRegister_known (settled : Settled run.service.registry)
    (known : run.Known approved layout) :
    (ApplicationService.openAndRegister run.service.registry (approved.request layout)).2.byId =
      run.service.registry.byId := by
  obtain ⟨record, member, key, generation⟩ := known
  have held := settled.mem_list.mp member
  have coherent : RepositoryRegistry.Coherent
      { run.service.registry with next := run.service.registry.next + 1 } :=
    ⟨settled.coherent.nodup, settled.coherent.listed, settled.coherent.filed,
      settled.coherent.located⟩
  let built := buildRecord (approved.request layout) (mintedId (run.service.registry.next + 1))
  have same : built.key = record.key := key.symm
  have answered := RepositoryRegistry.register_known coherent held same generation.symm
  change (RepositoryRegistry.register
    { run.service.registry with next := run.service.registry.next + 1 } _).2.byId = _
  rw [answered]

theorem byId_opened (settled : Settled run.service.registry)
    (found : (ApplicationService.openAndRegister run.service.registry
      (approved.request layout)).2.byId id = some record) :
    run.service.registry.byId id = some record ∨ record.location.targetId = approved.targetId := by
  obtain ⟨known, -, -, -, answered⟩ | ⟨freed, fewer, -, answered⟩ :=
    openAndRegister_cases settled (approved.request layout)
  · rw [answered] at found
    exact .inl found
  · rw [answered, RepositoryRegistry.file] at found
    dsimp only at found
    rw [Function.update_apply] at found
    split at found
    · obtain rfl := Option.some.inj found
      exact .inr rfl
    · exact .inl (fewer.of_some found)

theorem Housed.next (housed : run.Housed) (h : run.Sound) (digest : String → String)
    {step : ServiceStep} (inTime : run.InTime step) : ((serving digest).next run step).Housed := by
  intro id record found
  obtain spares | ⟨call, approved, layout, opens⟩ | ⟨repositoryId, service, -⟩ | ⟨dropped, drops⟩ :=
    next_cases run digest step
  · rw [spares.registry] at found
    exact spares.holds _ (housed id record found)
  · apply Holds.of_targets opens.targets
    rw [opens.registry] at found
    rw [opens.step] at inTime
    obtain absent | known := inTime approved opens.waits
    · obtain before | same := byId_opened h.settled found
      · exact housed id record before
      · rw [same]
        exact h.pending call approved.targetId ⟨_, opens.waits, rfl⟩ absent
    · rw [openAndRegister_known h.settled known] at found
      exact housed id record found
  · rw [service] at found ⊢
    exact housed id record ((RepositoryRegistry.fewer_revokeLocked _ _).of_some found)
  · rw [drops.registry] at found
    have before := (RepositoryRegistry.foldl_revokeLocked h.settled.coherent
      (run.service.registry.order.filter (run.service.registry.onTarget dropped))).1.of_some found
    refine holds_eraseP drops.targets ?_ (housed id record before)
    rintro same
    have gone := RepositoryRegistry.revokeTarget_gone h.settled.coherent before
    rw [same, found] at gone
    cases gone

theorem sound_started (targets : List TargetRecord) (targetId : String) :
    (started targets targetId).Sound := by
  refine ⟨settled_empty, ?_, ?_⟩
  · rintro call other ⟨held, waits, -⟩
    cases waits
  · rintro call other ⟨held, waits, -⟩
    cases waits

theorem sound_after (digest : String → String) (targets : List TargetRecord) (targetId : String)
    (steps : List ServiceStep) : ((serving digest).after (started targets targetId) steps).Sound :=
  (serving digest).invariant Sound (fun _ step held => held.next digest step)
    (sound_started targets targetId) steps

theorem housed_after (digest : String → String) (targets : List TargetRecord) (targetId : String)
    {steps : List ServiceStep}
    (inTime : (serving digest).Meets InTime (started targets targetId) steps) :
    ((serving digest).after (started targets targetId) steps).Housed :=
  ((serving digest).invariant_of_step (fun run => run.Sound ∧ run.Housed)
    (fun _ step held inTime => ⟨held.1.next digest step, held.2.next held.1 digest inTime⟩)
    ⟨sound_started targets targetId, fun _ _ found => by cases found⟩ inTime).2

/-! Ids that were drawn, and calls that were overtaken. -/

theorem byId_next (settled : Settled run.service.registry) (drawn : Drawn run.service.registry id)
    (digest : String → String) (step : ServiceStep) :
    let next := (serving digest).next run step
    Drawn next.service.registry id ∧ (next.service.registry.byId id = run.service.registry.byId id ∨
        next.service.registry.byId id = none) := by
  intro next
  have spent : Registrations.Spent { registry := run.service.registry } id :=
    ⟨drawn, List.not_mem_nil⟩
  obtain spares | ⟨call, approved, layout, opens⟩ | ⟨repositoryId, service, -⟩ | ⟨targetId, drops⟩ :=
    next_cases run digest step
  · rw [spares.registry]
    exact ⟨drawn, .inl rfl⟩
  · rw [opens.registry]
    obtain ⟨opened, same⟩ := spent.step settled (.open (approved.request layout))
    obtain ⟨filed, kept⟩ := opened.step (Registrations.Sound.step settled _) (.register 0)
    refine ⟨filed.drawn, ?_⟩
    obtain same | none := kept
    · exact .inl same
    · exact .inr none
  · rw [service]
    have fewer := RepositoryRegistry.fewer_revokeLocked run.service.registry repositoryId
    exact ⟨drawn.mono fewer.next.ge, fewer.byId id⟩
  · rw [drops.registry]
    obtain ⟨fewer, -, -⟩ := RepositoryRegistry.foldl_revokeLocked settled.coherent
      (run.service.registry.order.filter (run.service.registry.onTarget targetId))
    exact ⟨drawn.mono fewer.next.ge, fewer.byId id⟩

theorem byId_after (h : run.Sound) (drawn : Drawn run.service.registry id)
    (digest : String → String) (steps : List ServiceStep) :
    let last := (serving digest).after run steps
    Drawn last.service.registry id ∧ (last.service.registry.byId id = run.service.registry.byId id ∨
        last.service.registry.byId id = none) := by
  have kept := (serving digest).invariant (fun other => other.Sound ∧
      Drawn other.service.registry id ∧
      (other.service.registry.byId id = run.service.registry.byId id ∨
        other.service.registry.byId id = none))
    (fun other step held => by
      obtain ⟨sound, drawn, was⟩ := held
      obtain ⟨still, now⟩ := byId_next sound.settled drawn digest step
      refine ⟨sound.next digest step, still, ?_⟩
      cases now with
      | inl same => exact same ▸ was
      | inr gone => exact .inr gone)
    ⟨h, drawn, .inl rfl⟩ steps
  exact kept.2

structure Behind (base : ServiceRun) (targetId : String) (run : ServiceRun) : Prop where
  begun : base.begun ≤ run.begun
  grown : ∃ more, run.disconnects = base.disconnects ++ targetId :: more
  seen : ∀ call other, run.RegistersOn call other → call < base.begun →
    run.seen call ≤ base.disconnects.length

theorem Behind.next (h : Behind base targetId run) (digest : String → String) (step : ServiceStep) :
    Behind base targetId ((serving digest).next run step) := by
  have keeps := keeps_next run digest step
  refine ⟨h.begun.trans keeps.begun, ?_, ?_⟩
  · obtain ⟨more, grown⟩ := h.grown
    obtain ⟨last, same⟩ := disconnects_next run digest step
    exact ⟨more ++ last, by rw [same, grown, List.append_assoc, List.cons_append]⟩
  · intro call other registers before
    obtain ⟨was, seen⟩ | ⟨rfl, -, -⟩ := keeps.calls call other registers
    · rw [seen]
      exact h.seen call other was before
    · exact absurd h.begun (Nat.not_le.mpr before)

theorem behind_disconnect (h : run.Sound)
    (drops : Drops run ((serving digest).next run (.disconnectTarget targetId))
      (.disconnectTarget targetId) targetId) :
    Behind run targetId ((serving digest).next run (.disconnectTarget targetId)) := by
  have keeps := keeps_next run digest (.disconnectTarget targetId)
  refine ⟨keeps.begun, ⟨[], drops.disconnects⟩, ?_⟩
  intro call other registers before
  obtain ⟨was, seen⟩ | ⟨rfl, -, -⟩ := keeps.calls call other registers
  · rw [seen]
    exact h.stamps call other was
  · exact absurd before (Nat.lt_irrefl _)

theorem Behind.overtaken (h : Behind base targetId run) (registers : run.RegistersOn call other)
    (before : call < base.begun) : targetId ∈ run.since call := by
  obtain ⟨more, grown⟩ := h.grown
  rw [since, grown, List.drop_append_of_le_length (h.seen call other registers before)]
  exact List.mem_append_right _ List.mem_cons_self

theorem Files.opening {answer : LayoutAnswer} (files : Files digest run call answer record)
    (h : run.Sound) :
    ∃ approved layout, answer = .opened layout ∧ run.calls call = some (.opening approved) ∧
      record.location.targetId = approved.targetId ∧ ¬ run.Known approved layout := by
  obtain ⟨fresh, filed⟩ := files
  obtain spares | ⟨approved, layout, opens⟩ := laidOut_cases run digest call answer
  · rw [spares.registry, fresh] at filed
    cases filed
  · have answered := ServiceStep.laidOut.inj opens.step
    rw [opens.registry, RepositoryRegistry.get] at filed
    refine ⟨approved, layout, answered.2, opens.waits, ?_, ?_⟩
    · obtain before | same := byId_opened h.settled filed
      · rw [RepositoryRegistry.get, before] at fresh
        cases fresh
      · exact same
    · intro known
      rw [openAndRegister_known h.settled known, ← RepositoryRegistry.get, fresh] at filed
      cases filed

theorem gone_behind (h : run.Sound)
    (drops : Drops run ((serving digest).next run (.disconnectTarget targetId))
      (.disconnectTarget targetId) targetId)
    (drawn : Drawn run.service.registry record.repositoryId)
    (was : run.service.registry.byId record.repositoryId = some record ∨
      run.service.registry.byId record.repositoryId = none)
    (on : record.location.targetId = targetId) (back : List ServiceStep) :
    ((serving digest).after run (.disconnectTarget targetId :: back)).service.registry.byId
      record.repositoryId = none := by
  have dropped : ((serving digest).next run (.disconnectTarget targetId)).service.registry.byId
      record.repositoryId = none := by
    rw [drops.registry]
    obtain held | none := was
    · rw [← on]
      exact RepositoryRegistry.revokeTarget_gone h.settled.coherent held
    · have fewer := (RepositoryRegistry.foldl_revokeLocked h.settled.coherent
        (run.service.registry.order.filter (run.service.registry.onTarget targetId))).1
      exact (fewer.byId _).elim (fun same => same.trans none) id
  obtain ⟨still, -⟩ := byId_next h.settled drawn digest (.disconnectTarget targetId)
  obtain ⟨-, same | none⟩ := byId_after (h.next digest (.disconnectTarget targetId)) still digest back
  · rw [Machine.after_cons, same, dropped]
  · exact none

theorem not_addressable {repositoryId : String} (gone : service.registry.byId repositoryId = none) :
    ¬ service.Addressable repositoryId := by
  rintro ⟨record, found, -⟩
  rw [RepositoryRegistry.get, gone] at found
  cases found

theorem drops_of_accepted (digest : String → String)
    (accepted : (run.service.disconnectTarget targetId).1 = .ok ()) :
    Drops run ((serving digest).next run (.disconnectTarget targetId))
      (.disconnectTarget targetId) targetId := by
  obtain spares | drops := disconnectTarget_cases run digest targetId
  · exfalso
    have same := spares.disconnects
    have answered : run.service.disconnectTarget targetId =
        (.ok (), (run.service.disconnectTarget targetId).2) := by rw [← accepted]
    dsimp only [Machine.next, serving, disconnectTarget] at same
    rw [answered] at same
    simpa using congrArg List.length same
  · exact drops

end Running

/-- As long as every layout is answered in time, no repository outlives its target. -/
theorem repositories_follow_targets (digest : String → String) (targets : List TargetRecord)
    (targetId : String) (steps : List ServiceStep)
    (inTime : (serving digest).Meets InTime (started targets targetId) steps) :
    ((serving digest).after (started targets targetId) steps).TargetsHeld ∧
      DisconnectLasts digest (started targets targetId) steps := by
  refine ⟨fun _ => housed_after digest targets targetId inTime, ?_⟩
  intro front dropped back split accepted earlier call answer later record cut files on before
  have sound := sound_after digest targets targetId
  have drops := drops_of_accepted digest accepted
  have same := split.symm.trans cut
  obtain ⟨middle, rfl, rest⟩ | ⟨middle, rfl, rest⟩ := List.append_eq_append_iff.mp same
  · -- the layout is answered behind the disconnect, so the call was overtaken
    cases middle with
    | nil =>
      obtain ⟨other, -⟩ := List.cons.inj rest
      cases other
    | cons first middle =>
      obtain ⟨rfl, -⟩ := List.cons.inj rest
      exfalso
      obtain ⟨approved, layout, rfl, waits, targeted, fresh⟩ := files.opening (sound _)
      have behind := (serving digest).invariant
        (Behind ((serving digest).after (started targets targetId) front) dropped)
        (fun _ step held => held.next digest step) (behind_disconnect (sound front) drops) middle
      rw [← Machine.after_cons, ← Machine.after_append] at behind
      rw [cut] at inTime
      have now := ((serving digest).meets_append.mp inTime).2.1
      obtain absent | known := now approved waits
      · rw [← targeted, on] at absent
        exact absent (behind.overtaken ⟨_, waits, rfl⟩ before)
      · exact fresh known
  · -- the record was filed before the disconnect, which takes it away
    cases middle with
    | nil =>
      obtain ⟨other, -⟩ := List.cons.inj rest
      cases other
    | cons first middle =>
      obtain ⟨rfl, -⟩ := List.cons.inj rest
      have filed := files.2
      rw [RepositoryRegistry.get] at filed
      have settled := (sound earlier).next digest (.laidOut call answer)
      obtain ⟨still, kept⟩ := byId_after settled (settled.settled.drawn filed) digest middle
      rw [filed, ← Machine.after_cons, ← Machine.after_append] at kept
      rw [← Machine.after_cons, ← Machine.after_append] at still
      apply not_addressable
      rw [split, Machine.after_append]
      exact gone_behind (sound _) drops still kept on back

def thisMachine : TargetRecord where
  targetId := "tgt_local"
  kind := .local
  label := "This machine"
  ready := true
  generation := "gen_1"
  executor := some .local
  unavailable := none

def production : SshHostCandidate := ⟨"host_1", "source_1", "prod", "prod"⟩

/-- The half of SHA-256 that the code keeps, of the two texts it digests here. -/
def shortDigest (text : String) : String :=
  if text = "source_1\x00prod" then "86f0e02736ba7dfb69f7a74dddf8f50f"
  else "d462001c8fad327c86febcdfd060eb49"

def productionId : String := sshTargetId shortDigest "source_1" "prod"

def createProduction (call : Nat) : List ServiceStep :=
  [.createTarget (.sshConfig "host_1"), .listed call (.ok ⟨[production], "rev_1"⟩) (.ok ()),
    .probed call (.ok "2.50.0")]

def remoteLayout : RepositoryLayout :=
  ⟨"/srv/app/.git", some "/srv/app", "/srv/app/.git", false, "sha1", false⟩

def unbornHeads : Heads := fun _ => ⟨.unborn, none, none, false⟩

def openRemote : ServiceStep := .registerRepositoryOn ⟨"/srv/app", some productionId⟩

def timely : List ServiceStep :=
  createProduction 0 ++ [openRemote, .laidOut 1 (.opened remoteLayout), .answered 1 unbornHeads,
    .disconnectTarget productionId]

theorem repositories_follow_targets_timely :
    (serving shortDigest).Meets InTime (started [thisMachine] "tgt_local") timely ∧
      ((serving shortDigest).after (started [thisMachine] "tgt_local") timely).TargetsHeld ∧
      DisconnectLasts shortDigest (started [thisMachine] "tgt_local") timely := by
  have inTime : (serving shortDigest).Meets InTime (started [thisMachine] "tgt_local") timely := by
    refine ⟨trivial, trivial, trivial, trivial, ?_, trivial, trivial, trivial⟩
    intro approved _
    exact .inl List.not_mem_nil
  exact ⟨inTime, repositories_follow_targets shortDigest [thisMachine] "tgt_local" timely inTime⟩

def overtaken : List ServiceStep :=
  createProduction 0 ++ [openRemote, .disconnectTarget productionId,
    .laidOut 1 (.opened remoteLayout), .answered 1 unbornHeads]

def approvedRemote : ApplicationService.Approved where
  directory := "/srv/app"
  allowedRootId := "root_1"
  targetId := productionId
  targetGeneration :=
    sshTargetGeneration shortDigest "source_1" "rev_1" "prod" "shell=ok;git=2.50.0"

def remoteRecord : Registration.RepositoryRecord :=
  (buildRecord (approvedRemote.request remoteLayout) "repo_1").settled

/-- The repository stands without its target, and can be read once the target is back. -/
theorem overtaken_registration_revives :
    ¬ ((serving shortDigest).after (started [thisMachine] "tgt_local") overtaken).TargetsHeld ∧
      ¬ DisconnectLasts shortDigest (started [thisMachine] "tgt_local")
        (overtaken ++ createProduction 3) := by
  constructor
  · intro held
    obtain ⟨target, found⟩ := held (fun call => by rcases call with _ | _ | call <;> rfl) "repo_1" remoteRecord rfl
    cases found
  · intro lasts
    have withdrawn := lasts (createProduction 0 ++ [openRemote]) productionId
      ([.laidOut 1 (.opened remoteLayout), .answered 1 unbornHeads] ++ createProduction 3) rfl rfl
      (createProduction 0 ++ [openRemote, .disconnectTarget productionId]) 1 (.opened remoteLayout)
      (.answered 1 unbornHeads :: createProduction 3) remoteRecord rfl ⟨rfl, rfl⟩ rfl (by decide)
    exact withdrawn ⟨remoteRecord, rfl, rfl⟩

end ServiceRun
end Refyard.Http
