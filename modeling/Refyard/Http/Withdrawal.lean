import Refyard.AuthGrants
import Refyard.Http.RouterSteps

/-! Withdrawn approval: what sessions still reach once the last repository of an approved
root was revoked. -/
namespace Refyard.Http
open Registration Auth

structure Approval where
  service : ApplicationService
  allowedRootIds : List String := []
  repositoryIds : List String := []

namespace Approval

def note (before : List String) (approval : Approval) (record : Registration.RepositoryRecord) :
    Approval :=
  if before.contains record.repositoryId then approval
  else
    { approval with
      allowedRootIds := Grants.pushNew approval.allowedRootIds record.allowedRootId
      repositoryIds := Grants.pushNew approval.repositoryIds record.repositoryId }

/-- One path of the command line. A path that cannot be approved ends the process. -/
def approvePath (approval : Approval) (path : String × Opening) : Except Problem Approval :=
  match approval.service.approve { path := path.1, targetId := none } path.2 with
  | (.error problem, _) => .error problem
  | (.ok approved, service) =>
      match service.file approved path.2.layout with
      | (.error problem, _) => .error problem
      | (.ok (_, records), service) =>
          let before := approval.service.registry.list.map Registration.RepositoryRecord.repositoryId
          .ok (records.foldl (note before) { approval with service })

end Approval

structure Startup where
  targets : List TargetRecord
  targetId : String
  serviceInstanceId : String
  ticketTtlSeconds : Nat
  allowedOrigins : List String
  paths : List (String × Opening)

def defaultSessionTtlSeconds : Nat := 8 * 60 * 60

/-- `start_http_host` over the service the command line has approved paths on. -/
def startHttpHost (startup : Startup) : Except Problem HttpState := do
  let approval ← startup.paths.foldlM Approval.approvePath
    { service := { targets := startup.targets, targetId := startup.targetId } }
  pure {
    service := approval.service
    auth := { store :=
      .withTtl startup.serviceInstanceId startup.ticketTtlSeconds defaultSessionTtlSeconds }
    serviceInstanceId := startup.serviceInstanceId
    allowedOrigins := startup.allowedOrigins
    grants := .forRepositories approval.allowedRootIds approval.repositoryIds }

/-- What comes to the boundary: the process prints a pairing URL, or a client sends a request.
A body or a query that is refused comes with its problem. -/
inductive Visit where
  /-- `pairing_url` for an origin, `machine_pairing_url` without one. -/
  | pairingUrl (origin : Option String)
  | exchange (ticket origin : String)
  | register (authorization : Option String) (body : Except Problem RegisterBody)
      (opening : Opening)
  | revoke (authorization : Option String) (body : Except Problem String)
  /-- A read of the repository the query names, up to its grant check. -/
  | read (authorization : Option String) (query : Except Problem String)

inductive VisitAnswer where
  | ticket (answer : Except Problem BootstrapTicket)
  | session (answer : Except Problem Session)
  | repositories (answer : Except Problem RepositoriesResponse)
  | admitted (answer : Except Problem Unit)

namespace HttpState

def pairingUrl (state : HttpState) (moment : Moment) (origin : Option String) :
    Except Problem BootstrapTicket × List AuthCall :=
  match origin with
  | some origin =>
      if origin ∈ state.allowedOrigins then
        ((state.auth.store.mintTicket moment origin "cli" state.grants).1,
          [.mintTicket origin "cli" state.grants])
      else
        (.error (.new .forbidden s!"{origin} is not an origin this service answers on"), [])
  | none =>
      ((state.auth.store.mintTicket moment "" "cli" state.grants).1,
        [.mintTicket "" "cli" state.grants])

def readGuard (state : HttpState) (surroundings : Surroundings) (authorization : Option String)
    (query : Except Problem String) : Except Problem Unit := do
  let session ← state.authorize surroundings.moment authorization
  requireScope session Scope.read
  let repositoryId ← query
  state.requireRepositoryGrant surroundings.heads session repositoryId

/-- One visit: its answer, the calls it makes to the pairing store, and the service behind it. -/
def visit (state : HttpState) (surroundings : Surroundings) :
    Visit → VisitAnswer × List AuthCall × ApplicationService
  | .pairingUrl origin =>
      let (answer, calls) := state.pairingUrl surroundings.moment origin
      (.ticket answer, calls, state.service)
  | .exchange ticket origin =>
      (.session (state.auth.store.exchange surroundings.moment ticket origin
          state.serviceInstanceId).1,
        [.exchange ticket origin state.serviceInstanceId], state.service)
  | .register authorization body opening =>
      let (answer, calls, service) :=
        state.registerRepository surroundings authorization body opening
      (.repositories answer, calls, service)
  | .revoke authorization body =>
      let (answer, calls, service) := state.revokeRepository surroundings authorization body
      (.repositories answer, calls, service)
  | .read authorization query =>
      (.admitted (state.readGuard surroundings authorization query), [], state.service)

def made (state : HttpState) (input : Surroundings × Visit) : List (Moment × AuthCall) :=
  (state.visit input.1 input.2).2.1.map fun call => (input.1.moment, call)

def visiting : Machine HttpState (Surroundings × Visit) VisitAnswer where
  step state input :=
    ({ state with
        service := (state.visit input.1 input.2).2.2
        auth := AuthRun.pairing.after state.auth (state.made input) },
      (state.visit input.1 input.2).1)

def madeBy (state : HttpState) : List (Surroundings × Visit) → List (Moment × AuthCall)
  | [] => []
  | input :: rest => state.made input ++ madeBy (visiting.next state input) rest

def RevokesLast (state : HttpState) (input : Surroundings × Visit)
    (repositoryId allowedRootId : String) : Prop :=
  (∃ authorization, input.2 = .revoke authorization (.ok repositoryId)) ∧
    (∃ answer, visiting.output state input = .repositories (.ok answer)) ∧
    state.repositoryRootOf input.1.heads repositoryId = some allowedRootId ∧
    ∀ record ∈ state.service.registry.list, record.allowedRootId = allowedRootId →
      record.repositoryId = repositoryId

/-- After the approval was withdrawn: whoever passes the check, for the repository that was
revoked or for one that lives in the root now, was granted it since. -/
def Withdrawn (revoked final : HttpState) (later : List (Moment × AuthCall))
    (repositoryId allowedRootId : String) : Prop :=
  ∀ heads session other, final.auth.store.sessions.get? session.token = some session →
    (other = repositoryId ∨ final.repositoryRootOf heads other = some allowedRootId) →
    final.requireRepositoryGrant heads session other = .ok () →
      AuthRun.GrantedSince revoked.auth final.auth later session other allowedRootId

/-- No session holds the root when its last repository is revoked, and no pending ticket
holds the root or the repository. -/
def RevokesUnheld (state : HttpState) (input : Surroundings × Visit) : Prop :=
  ∀ repositoryId allowedRootId, state.RevokesLast input repositoryId allowedRootId →
    (∀ token session, state.auth.store.sessions.get? token = some session →
      allowedRootId ∉ session.grants.allowedRootIds) ∧
    ∀ ticket record, state.auth.store.tickets.get? ticket = some record →
      ¬record.grants.Reach repositoryId allowedRootId

structure Sound (state : HttpState) : Prop where
  settled : Settled state.service.registry
  auth : state.auth.Sound
  granted : ∀ id ∈ state.grants.repositoryIds, Drawn state.service.registry id
  named : state.auth.OnlyNames (Drawn state.service.registry)

variable (state : HttpState)

theorem visit_registry (h : Settled state.service.registry) (input : Surroundings × Visit) :
    let registry := (visiting.next state input).service.registry
    registry = state.service.registry ∨
      (∃ request, registry = (ApplicationService.openAndRegister state.service.registry request).2) ∨
      ∃ repositoryId, registry = state.service.registry.revokeLocked repositoryId := by
  intro registry
  obtain ⟨surroundings, visit⟩ := input
  cases visit with
  | pairingUrl | exchange | read => exact .inl rfl
  | register authorization body opening =>
    obtain ⟨problem, service, kept, answered⟩ | ⟨listed, approved, layout, service, -, filed, answered⟩ :=
      state.registerRepository_cases surroundings authorization body opening
    · left
      simp only [registry, Machine.next, visiting, HttpState.visit, answered]
      exact kept
    · right; left
      refine ⟨approved.request layout, ?_⟩
      simp only [registry, Machine.next, visiting, HttpState.visit, answered]
      exact filed
  | revoke authorization body =>
    obtain ⟨problem, answered⟩ | ⟨repositoryId, record, -, -, answered⟩ :=
      revokeRepository_cases h surroundings authorization body
    · left
      simp only [registry, Machine.next, visiting, HttpState.visit, answered]
    · right; right
      refine ⟨repositoryId, ?_⟩
      simp only [registry, Machine.next, visiting, HttpState.visit, answered]

theorem next_revokeLocked (registry : RepositoryRegistry) (repositoryId : String) :
    (registry.revokeLocked repositoryId).next = registry.next :=
  (RepositoryRegistry.fewer_revokeLocked registry repositoryId).next

theorem visit_settled (h : Settled state.service.registry) (input : Surroundings × Visit) :
    Settled (visiting.next state input).service.registry ∧
      state.service.registry.next ≤ (visiting.next state input).service.registry.next := by
  obtain kept | ⟨request, opened⟩ | ⟨repositoryId, revoked⟩ := state.visit_registry h input
  · rw [kept]
    exact ⟨h, Nat.le_refl _⟩
  · rw [opened, next_openAndRegister h]
    exact ⟨h.openAndRegister request, Nat.le_succ _⟩
  · rw [revoked, next_revokeLocked]
    exact ⟨h.revokeLocked repositoryId, Nat.le_refl _⟩

theorem Sound.made_names {state : HttpState} (h : state.Sound) (input : Surroundings × Visit)
    {call : Moment × AuthCall} (member : call ∈ state.made input) {id : String}
    (names : call.2.names id = true) : Drawn (visiting.next state input).service.registry id := by
  obtain ⟨surroundings, visit⟩ := input
  obtain ⟨made, listed, rfl⟩ := List.mem_map.mp member
  cases visit with
  | pairingUrl origin =>
    have granted : ∀ place, made = .mintTicket place "cli" state.grants →
        Drawn state.service.registry id := by
      rintro place rfl
      exact h.granted id (List.contains_iff_mem.mp names)
    simp only [HttpState.visit, HttpState.pairingUrl] at listed
    split at listed
    · split at listed
      · exact granted _ (List.mem_singleton.mp listed)
      · cases listed
    · exact granted _ (List.mem_singleton.mp listed)
  | exchange ticket origin =>
    cases List.mem_singleton.mp listed
    cases names
  | register authorization body opening =>
    obtain ⟨problem, service, kept, answered⟩ | ⟨asked, approved, layout, service, -, filed, answered⟩ :=
      state.registerRepository_cases surroundings authorization body opening
    · simp only [HttpState.visit, answered, List.not_mem_nil] at listed
    · simp only [HttpState.visit, answered] at listed
      obtain ⟨record, row, -, rfl⟩ := mem_answerRegister listed
      have settled := h.settled.openAndRegister (approved.request layout)
      have drawn := settled.drawn (settled.mem_list.mp row)
      have same : record.repositoryId = id := by simpa [AuthCall.names] using names
      simp only [Machine.next, visiting, HttpState.visit, answered, filed]
      exact same ▸ drawn
  | revoke authorization body =>
    obtain ⟨problem, answered⟩ | ⟨repositoryId, record, -, -, answered⟩ :=
      revokeRepository_cases h.settled surroundings authorization body
    · simp only [HttpState.visit, answered, List.not_mem_nil] at listed
    · simp only [HttpState.visit, answered, List.mem_singleton] at listed
      rw [listed] at names
      cases names
  | read authorization query => cases listed

theorem Sound.step {state : HttpState} (h : state.Sound) (input : Surroundings × Visit) :
    (visiting.next state input).Sound := by
  obtain ⟨settled, more⟩ := state.visit_settled h.settled input
  constructor
  · exact settled
  · exact h.auth.after (state.made input)
  · exact fun id member => (h.granted id member).mono more
  · have before : state.auth.OnlyNames (Drawn (visiting.next state input).service.registry) :=
      ⟨fun token session held id member => (h.named.sessions token session held id member).mono more,
        fun ticket record held id member => (h.named.tickets ticket record held id member).mono more⟩
    exact before.after h.auth (state.made input) fun call member id names =>
      h.made_names input member names

theorem after_auth (inputs : List (Surroundings × Visit)) :
    (visiting.after state inputs).auth = AuthRun.pairing.after state.auth (state.madeBy inputs) := by
  induction inputs generalizing state with
  | nil => rfl
  | cons input rest ih =>
    rw [Machine.after_cons, ih, madeBy, Machine.after_append]
    rfl

/-- Since the base nothing was filed but under ids drawn since, neither in the root nor under
the id of the repository that was revoked. -/
structure FiledSince (base : HttpState) (repositoryId allowedRootId : String) (state : HttpState) :
    Prop where
  settled : Settled state.service.registry
  more : base.service.registry.next ≤ state.service.registry.next
  gone : state.service.registry.byId repositoryId = none
  rooted : ∀ id record, state.service.registry.byId id = some record →
    record.allowedRootId = allowedRootId →
      ∃ number, base.service.registry.next < number ∧ id = mintedId number

theorem FiledSince.step {base state : HttpState} {repositoryId allowedRootId : String}
    (h : FiledSince base repositoryId allowedRootId state)
    (drawn : Drawn base.service.registry repositoryId) (input : Surroundings × Visit) :
    FiledSince base repositoryId allowedRootId (visiting.next state input) := by
  obtain ⟨settled, more⟩ := state.visit_settled h.settled input
  have kept : ∀ id record, (visiting.next state input).service.registry.byId id = some record →
      state.service.registry.byId id = some record ∨
        id = mintedId (state.service.registry.next + 1) := by
    intro id record held
    obtain same | ⟨request, opened⟩ | ⟨other, revoked⟩ := state.visit_registry h.settled input
    · rw [same] at held
      exact .inl held
    · rw [opened] at held
      exact byId_openAndRegister h.settled request held
    · rw [revoked] at held
      exact .inl ((RepositoryRegistry.fewer_revokeLocked _ other).of_some held)
  have new := Nat.lt_succ_of_le h.more
  constructor
  · exact settled
  · exact h.more.trans more
  · cases held : (visiting.next state input).service.registry.byId repositoryId with
    | none => rfl
    | some record =>
      obtain before | minted := kept repositoryId record held
      · rw [h.gone] at before
        cases before
      · obtain ⟨number, within, named⟩ := drawn
        have same := mintedId_injective (named.symm.trans minted)
        omega
  · intro id record held rooted
    obtain before | minted := kept id record held
    · exact h.rooted id record before rooted
    · exact ⟨_, new, minted⟩

end HttpState

theorem Approval.foldl_note (before : List String) (records : List Registration.RepositoryRecord)
    (approval : Approval) :
    let noted := records.foldl (note before) approval
    noted.service = approval.service ∧ ∀ id ∈ noted.repositoryIds,
      id ∈ approval.repositoryIds ∨ ∃ record ∈ records, record.repositoryId = id := by
  induction records generalizing approval with
  | nil => exact ⟨rfl, fun id member => .inl member⟩
  | cons record rest ih =>
    obtain ⟨service, named⟩ := ih (note before approval record)
    constructor
    · rw [List.foldl_cons, service]
      unfold note
      split <;> rfl
    · intro id member
      obtain earlier | ⟨other, listed, same⟩ := named id member
      · unfold note at earlier
        split at earlier
        · exact .inl earlier
        · cases Grants.mem_pushNew.mp earlier with
          | inl held => exact .inl held
          | inr now => exact .inr ⟨record, List.mem_cons_self, now.symm⟩
      · exact .inr ⟨other, List.mem_cons_of_mem _ listed, same⟩

structure Approval.Sound (approval : Approval) : Prop where
  settled : Settled approval.service.registry
  granted : ∀ id ∈ approval.repositoryIds, Drawn approval.service.registry id

variable {approval : Approval} {state : HttpState}

theorem Approval.Sound.approvePath {next : Approval} (h : approval.Sound) {path : String × Opening}
    (approved : approval.approvePath path = .ok next) : next.Sound := by
  have kept := approval.service.approve_registry { path := path.1, targetId := none } path.2
  unfold Approval.approvePath at approved
  split at approved
  · cases approved
  · rename_i held service answered
    rw [answered] at kept
    obtain ⟨problem, filed⟩ | ⟨layout, -, filed⟩ := service.file_cases held path.2.layout
    · rw [filed] at approved
      cases approved
    · rw [filed, kept] at approved
      cases approved
      obtain ⟨same, named⟩ := Approval.foldl_note
        (approval.service.registry.list.map Registration.RepositoryRecord.repositoryId)
        (ApplicationService.openAndRegister approval.service.registry (held.request layout)).2.list
        { approval with service := { service with
          registry := (ApplicationService.openAndRegister approval.service.registry
            (held.request layout)).2 } }
      have settled := h.settled.openAndRegister (held.request layout)
      constructor
      · rw [same]
        exact settled
      · intro id member
        rw [same]
        obtain earlier | ⟨record, listed, rfl⟩ := named id member
        · refine (h.granted id earlier).mono ?_
          rw [next_openAndRegister h.settled]
          exact Nat.le_succ _
        · exact settled.drawn (settled.mem_list.mp listed)

theorem Approval.Sound.foldlM {last : Approval} (h : approval.Sound)
    {paths : List (String × Opening)}
    (approved : paths.foldlM Approval.approvePath approval = .ok last) : last.Sound := by
  induction paths generalizing approval with
  | nil =>
    cases approved
    exact h
  | cons path rest ih =>
    obtain ⟨next, first, behind⟩ := bind_eq_ok.mp approved
    exact ih (h.approvePath first) behind

theorem sound_startHttpHost {startup : Startup} {host : HttpState}
    (started : startHttpHost startup = .ok host) : host.Sound := by
  obtain ⟨approval, approved, built⟩ := bind_eq_ok.mp started
  cases built
  have sound := Approval.Sound.foldlM ⟨settled_empty, by simp⟩ approved
  constructor
  · exact sound.settled
  · exact AuthRun.sound_start _ rfl rfl
  · exact sound.granted
  · exact ⟨by simp [AuthStore.withTtl], by simp [AuthStore.withTtl]⟩

namespace HttpState

variable {state : HttpState} {input : Surroundings × Visit} {repositoryId allowedRootId : String}

/-- Right after such a revocation nobody reaches the root, the repository that was revoked, or
a repository that is yet to be drawn. -/
theorem Sound.revoked_held (h : state.Sound)
    (revokes : state.RevokesLast input repositoryId allowedRootId)
    (unheld : state.RevokesUnheld input) {other : String}
    (fresh : other = repositoryId ∨ ¬Drawn state.service.registry other) :
    (visiting.next state input).auth.HeldByNobody other allowedRootId := by
  obtain ⟨noSession, noTicket⟩ := unheld repositoryId allowedRootId revokes
  obtain ⟨surroundings, visit⟩ := input
  obtain ⟨⟨authorization, rfl⟩, ⟨answer, answered⟩, rooted, -⟩ := revokes
  rw [repositoryRootOf_eq h.settled] at rooted
  obtain ⟨problem, done⟩ | ⟨asked, record, body, held, done⟩ :=
    revokeRepository_cases h.settled surroundings authorization (.ok repositoryId)
  · simp [Machine.output, visiting, HttpState.visit, done] at answered
  · cases body
    rw [held, Option.map_some, Option.some_inj] at rooted
    have after : (visiting.next state (surroundings, .revoke authorization (.ok repositoryId))).auth =
        AuthRun.pairing.next state.auth (surroundings.moment, .revokeRepository repositoryId
          record.allowedRootId
          (state.service.roots.roots.any fun root => root.1 = record.allowedRootId)) := by
      simp only [Machine.next, visiting, made, HttpState.visit, done]
      rfl
    rw [after]
    constructor
    · intro token session found reach
      simp only [Machine.next, AuthRun.pairing, AuthStore.revokeRepository] at found
      rw [Table.get?_update, Option.map_eq_some_iff] at found
      obtain ⟨old, before, rfl⟩ := found
      cases reach with
      | inl named =>
        obtain ⟨member, differs⟩ := List.mem_filter.mp named
        cases fresh with
        | inl same => exact of_decide_eq_true differs same
        | inr undrawn => exact undrawn (h.named.sessions token old before other member)
      | inr rooted =>
        have within := Grants.within_removeRepository old.grants repositoryId record.allowedRootId
          (state.service.roots.roots.any fun root => root.1 = record.allowedRootId)
        exact noSession token old before (within.1 rooted)
    · intro ticket pending found reach
      have before : state.auth.store.tickets.get? ticket = some pending := found
      cases reach with
      | inl named =>
        cases fresh with
        | inl same => exact noTicket ticket pending before (.inl (same ▸ named))
        | inr undrawn => exact undrawn (h.named.tickets ticket pending before other named)
      | inr rooted => exact noTicket ticket pending before (.inr rooted)

theorem Sound.revoked_filed (h : state.Sound)
    (revokes : state.RevokesLast input repositoryId allowedRootId) :
    Drawn state.service.registry repositoryId ∧
      FiledSince (visiting.next state input) repositoryId allowedRootId (visiting.next state input) ∧
      (visiting.next state input).service.registry.next = state.service.registry.next := by
  obtain ⟨surroundings, visit⟩ := input
  obtain ⟨⟨authorization, rfl⟩, ⟨answer, answered⟩, -, last⟩ := revokes
  obtain ⟨problem, done⟩ | ⟨asked, record, body, held, done⟩ :=
    revokeRepository_cases h.settled surroundings authorization (.ok repositoryId)
  · simp [Machine.output, visiting, HttpState.visit, done] at answered
  · cases body
    have after : (visiting.next state (surroundings,
        .revoke authorization (.ok repositoryId))).service.registry =
          state.service.registry.revokeLocked repositoryId := by
      simp only [Machine.next, visiting, HttpState.visit, done]
    have settled := h.settled.revokeLocked repositoryId
    refine ⟨h.settled.drawn held, ⟨?_, Nat.le_refl _, ?_, ?_⟩, ?_⟩
    · rw [after]
      exact settled
    · rw [after, RepositoryRegistry.byId_revokeLocked, if_pos rfl]
    · intro id other found rooted
      rw [after] at found
      have same := settled.named found
      rw [RepositoryRegistry.byId_revokeLocked] at found
      split at found
      · cases found
      · rename_i differs
        have listed := h.settled.mem_list.mpr (same.symm ▸ found)
        exact absurd (same.symm.trans (last other listed rooted)) differs
    · rw [after, next_revokeLocked]

end HttpState
open HttpState

/-- Where nobody holds a root when its last repository is revoked, the approval is withdrawn
in every later state: whoever reaches the root or the repository again was granted it since. -/
theorem withdrawn_approval_stays_withdrawn {startup : Startup} {host : HttpState}
    (started : startHttpHost startup = .ok host) {inputs : List (Surroundings × Visit)}
    (meets : visiting.Meets RevokesUnheld host inputs) :
    ∀ earlier input later repositoryId allowedRootId, inputs = earlier ++ input :: later →
      (visiting.after host earlier).RevokesLast input repositoryId allowedRootId →
      let revoked := visiting.after host (earlier ++ [input])
      Withdrawn revoked (visiting.after host inputs) (revoked.madeBy later) repositoryId
        allowedRootId := by
  rintro earlier input later repositoryId allowedRootId rfl revokes revoked
  have sound : ∀ inputs, (visiting.after host inputs).Sound := fun inputs =>
    visiting.invariant Sound (fun _ input held => held.step input) (sound_startHttpHost started) inputs
  have state := sound earlier
  have unheld : (visiting.after host earlier).RevokesUnheld input :=
    ((visiting.meets_append).mp meets).2.1
  have next : revoked = visiting.next (visiting.after host earlier) input := by
    simp only [revoked, Machine.after_append, Machine.after_cons, Machine.after_nil]
  have final : visiting.after host (earlier ++ input :: later) = visiting.after revoked later := by
    rw [next, Machine.after_append, Machine.after_cons]
  obtain ⟨drawn, filed, counted⟩ := state.revoked_filed revokes
  rw [← next] at filed counted
  have kept : FiledSince revoked repositoryId allowedRootId (visiting.after revoked later) := by
    refine visiting.invariant (FiledSince revoked repositoryId allowedRootId) ?_ filed later
    exact fun held input since => since.step (drawn.mono (Nat.le_of_eq counted.symm)) input
  rw [final]
  intro heads session other live named passed
  rw [repositoryRootOf_eq kept.settled, Option.map_eq_some_iff] at named
  -- what lives in the root now was drawn since
  have fresh : other = repositoryId ∨ ¬Drawn (visiting.after host earlier).service.registry other := by
    refine named.imp id ?_
    rintro ⟨record, held, rooted⟩ ⟨number, within, same⟩
    obtain ⟨later, above, minted⟩ := kept.rooted other record held rooted
    have numbers := mintedId_injective (same.symm.trans minted)
    omega
  have reach : session.grants.Reach other allowedRootId := by
    obtain direct | ⟨record, held, rooted⟩ := (requireRepositoryGrant_ok kept.settled).mp passed
    · exact .inl direct
    · right
      obtain same | ⟨found, filed, root⟩ := named
      · rw [same, kept.gone] at held
        cases held
      · rw [filed, Option.some_inj] at held
        rw [← root, held]
        exact rooted
  have nobody : revoked.auth.HeldByNobody other allowedRootId :=
    next ▸ state.revoked_held revokes unheld fresh
  have since := nobody.since.after (next ▸ (state.step input).auth) (revoked.madeBy later)
  have auth := after_auth revoked later
  rw [auth] at live ⊢
  exact since.sessions session.token session live reach

def VisitAnswer.granted : VisitAnswer → Bool
  | .repositories (.ok _) => true
  | _ => false

theorem VisitAnswer.exists_of_granted {answer : VisitAnswer} (h : answer.granted = true) :
    ∃ response, answer = .repositories (.ok response) := by
  unfold granted at h
  split at h
  · exact ⟨_, rfl⟩
  · cases h

def sampleTarget : TargetRecord where
  targetId := "tgt_local"
  kind := .local
  label := "This machine"
  ready := true
  generation := "gen_1"
  executor := some .local
  unavailable := none

def sampleStartup : Startup where
  targets := [sampleTarget]
  targetId := "tgt_local"
  serviceInstanceId := "srvc_1"
  ticketTtlSeconds := 60
  allowedOrigins := []
  paths := []

def sampleHost : HttpState where
  service := { targets := [sampleTarget], targetId := "tgt_local" }
  auth := { store := .withTtl "srvc_1" 60 defaultSessionTtlSeconds }
  serviceInstanceId := "srvc_1"
  allowedOrigins := []
  grants := .forRepositories [] []

theorem sampleHost_started : startHttpHost sampleStartup = .ok sampleHost := rfl

def samplePlace (nowMs : Int) (secret : String) : Surroundings where
  moment := {
    nowMs
    ticketWalk := .byKey
    sessionWalk := .byKey
    randomSecret := secret
    randomId := secret }
  heads := fun _ => ⟨.unborn, none, none, false⟩

def sampleLayout : RepositoryLayout :=
  ⟨"/work/a/.git", some "/work/a", "/work/a/.git", false, "sha1", false⟩

def sampleOpening : Opening where
  canonical := some "/work/a"
  isDirectory := some true
  layout := .opened sampleLayout

def samplePaired (nowMs : Int) (secret : String) : List (Surroundings × Visit) :=
  [(samplePlace nowMs secret, .pairingUrl none), (samplePlace nowMs secret, .exchange secret "")]

def sampleRegister (nowMs : Int) (secret : String) : Surroundings × Visit :=
  (samplePlace nowMs "",
    .register (some ("Bearer rfs_" ++ secret)) (.ok ⟨"/work/a", none⟩) sampleOpening)

def sampleRevoke (nowMs : Int) (secret repositoryId : String) : Surroundings × Visit :=
  (samplePlace nowMs "", .revoke (some ("Bearer rfs_" ++ secret)) (.ok repositoryId))

theorem revokesLast_of_checks {surroundings : Surroundings} {authorization : Option String}
    {repositoryId allowedRootId : String} (answered : (visiting.output state
      (surroundings, .revoke authorization (.ok repositoryId))).granted = true)
    (rooted : state.repositoryRootOf surroundings.heads repositoryId = some allowedRootId)
    (last : (state.service.registry.list.all fun record =>
      record.allowedRootId ≠ allowedRootId || record.repositoryId = repositoryId) = true) :
    state.RevokesLast (surroundings, .revoke authorization (.ok repositoryId)) repositoryId
      allowedRootId := by
  refine ⟨⟨authorization, rfl⟩, VisitAnswer.exists_of_granted answered, rooted, ?_⟩
  intro record listed same
  simpa [same] using List.all_eq_true.mp last record listed

def revokesUnheld (state : HttpState) (input : Surroundings × Visit) : Bool :=
  match input.2 with
  | .revoke _ (.ok repositoryId) =>
      match state.repositoryRootOf input.1.heads repositoryId with
      | none => true
      | some root =>
          (state.auth.store.sessions.values.all fun session =>
              root ∉ session.grants.allowedRootIds) &&
            state.auth.store.tickets.values.all fun record =>
              ¬record.grants.Reach repositoryId root
  | _ => true

theorem revokesUnheld_sound {input : Surroundings × Visit} (h : revokesUnheld state input = true) :
    state.RevokesUnheld input := by
  obtain ⟨surroundings, visit⟩ := input
  rintro repositoryId allowedRootId ⟨⟨authorization, rfl⟩, -, rooted, -⟩
  unfold revokesUnheld at h
  dsimp only at h rooted
  rw [rooted] at h
  rw [Bool.and_eq_true, List.all_eq_true, List.all_eq_true] at h
  constructor
  · intro token session held
    exact of_decide_eq_true (h.1 session (Table.mem_values_of_get? held))
  · intro ticket record held
    exact of_decide_eq_true (h.2 record (Table.mem_values_of_get? held))

/-- The session that registered has expired when the ticket of the next one is minted. -/
def expiredRun : List (Surroundings × Visit) :=
  samplePaired 0 "a" ++ sampleRegister 1 "a" :: samplePaired 28800001 "b"

theorem expired_approval_stays_withdrawn :
    let inputs := expiredRun ++ sampleRevoke 28800002 "b" "repo_1" :: [sampleRegister 28800003 "b"]
    let revoked := visiting.after sampleHost (expiredRun ++ [sampleRevoke 28800002 "b" "repo_1"])
    visiting.Meets RevokesUnheld sampleHost inputs ∧
      (visiting.after sampleHost expiredRun).RevokesLast (sampleRevoke 28800002 "b" "repo_1")
        "repo_1" "root_1" ∧ Withdrawn revoked (visiting.after sampleHost inputs)
        (revoked.madeBy [sampleRegister 28800003 "b"]) "repo_1" "root_1" := by
  intro inputs revoked
  have checked : visiting.Meets (fun state input => revokesUnheld state input = true) sampleHost
      inputs := by decide +kernel
  have meets : visiting.Meets RevokesUnheld sampleHost inputs :=
    visiting.meets_of_step (fun _ => True) (fun _ _ _ _ => trivial)
      (fun _ _ _ unheld => revokesUnheld_sound unheld) trivial checked
  have revokes : (visiting.after sampleHost expiredRun).RevokesLast
      (sampleRevoke 28800002 "b" "repo_1") "repo_1" "root_1" :=
    revokesLast_of_checks (by decide +kernel) (by decide +kernel) (by decide +kernel)
  exact ⟨meets, revokes, withdrawn_approval_stays_withdrawn sampleHost_started meets
    expiredRun _ _ _ _ rfl revokes⟩
def beforeRevocation : List (Surroundings × Visit) :=
  samplePaired 0 "a" ++ sampleRegister 1 "a" :: samplePaired 2 "b"

/-- A session keeps the root of what it revoked, and reaches what another session registers
there. -/
theorem approval_outlives_revocation :
    let inputs := beforeRevocation ++ sampleRevoke 3 "a" "repo_1" :: [sampleRegister 4 "b"]
    let revoked := visiting.after sampleHost (beforeRevocation ++ [sampleRevoke 3 "a" "repo_1"])
    startHttpHost sampleStartup = .ok sampleHost ∧
      (visiting.after sampleHost beforeRevocation).RevokesLast (sampleRevoke 3 "a" "repo_1")
        "repo_1" "root_1" ∧
      ¬Withdrawn revoked (visiting.after sampleHost inputs) (revoked.madeBy [sampleRegister 4 "b"])
        "repo_1" "root_1" := by
  intro inputs revoked
  refine ⟨rfl, revokesLast_of_checks ?_ ?_ ?_, ?_⟩
  · decide +kernel
  · decide +kernel
  · decide +kernel
  · intro withdrawn
    have live : ((visiting.after sampleHost inputs).auth.store.sessions.get? "rfs_a").any
        (fun session => session.token = "rfs_a" ∧ session.sessionId = "sess_a" ∧
          (visiting.after sampleHost inputs).requireRepositoryGrant (samplePlace 5 "").heads session
            "repo_2" = .ok ()) = true := by decide +kernel
    have rooted : (visiting.after sampleHost inputs).repositoryRootOf (samplePlace 5 "").heads
        "repo_2" = some "root_1" := by decide +kernel
    have others : ((revoked.madeBy [sampleRegister 4 "b"]).all fun call =>
        match call.2 with
        | .grant sessionId _ _ => sessionId = "sess_b"
        | _ => true) = true := by decide +kernel
    have none : (visiting.after sampleHost inputs).auth.exchanged.drop
        revoked.auth.exchanged.length = [] := by decide +kernel
    obtain ⟨session, held, checked⟩ := (Option.any_eq_true _ _).mp live
    rw [decide_eq_true_iff] at checked
    obtain ⟨token, id, passed⟩ := checked
    obtain ⟨moment, root, granted, member, -⟩ | ⟨exchange, member, -⟩ :=
      withdrawn _ session "repo_2" (token ▸ held) (.inr rooted) passed
    · have same := List.all_eq_true.mp others _ member
      rw [id, decide_eq_true_iff] at same
      exact absurd same (by decide)
    · rw [none] at member
      cases member

end Refyard.Http
