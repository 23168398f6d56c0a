import Refyard.HostNode.ApprovalIdentity
import Refyard.HostNode.QueueKept

/-! What approvals answer, and what their identities mean for the queue, over whole runs. -/
namespace Refyard.Approvals
open ApprovalHost HostNode

/-- An approval names the root that the returned record has, and a revocation that leaves its
root without repositories says so. -/
structure AnswersTruly (homedir : String) (approvals : ApprovalHost) (step : ApprovalStep) :
    Prop where
  returned : ∀ approval, (managing homedir).output approvals step = some (.registered approval) →
    ∃ call found held record, step = .resume call found ∧ approvals.calls call = some held ∧
      held.record? = some record ∧ approval.repositoryId = record.repositoryId ∧
        approval.allowedRootId = record.allowedRootId
  root : ∀ approval, (managing homedir).output approvals step = some (.registered approval) →
    ∀ record ∈ approvals.stands, record.repositoryId = approval.repositoryId →
      record.allowedRootId = approval.allowedRootId
  remaining : ∀ repositoryId allowedRootId rootHasRepositories,
    (managing homedir).output approvals step =
        some (.revoked repositoryId allowedRootId rootHasRepositories) →
      (∀ record ∈ ((managing homedir).next approvals step).stands,
        record.allowedRootId ≠ allowedRootId) → rootHasRepositories = false

def writersOn {J : Type} (approvals : ApprovalHost) (tickets : List (QueueTicket J))
    (commonDir : String) : Nat :=
  tickets.countP fun ticket => ticket.mode = .write &&
    approvals.stands.any fun record =>
      record.repositoryId = ticket.repositoryId && record.commonDir = commonDir

variable {approvals : ApprovalHost}

theorem Identified.writersOn_le {J : Type} (identified : Identified approvals)
    (tickets : List (QueueTicket J)) (commonDir : String) :
    ∃ key, writersOn approvals tickets commonDir ≤ writersIn tickets key := by
  by_cases stands : ∃ record ∈ approvals.stands, record.commonDir = commonDir
  · obtain ⟨record, member, lives⟩ := stands
    use record.repositoryId
    apply List.countP_mono_left
    intro ticket _ counted
    simp only [Bool.and_eq_true, List.any_eq_true, decide_eq_true_eq] at counted ⊢
    obtain ⟨writes, other, also, same, there⟩ := counted
    exact ⟨writes, same.symm.trans (identified.one other also record member
      (there.trans lives.symm))⟩
  · use ""
    suffices none : writersOn approvals tickets commonDir = 0 by
      rw [none]
      exact Nat.zero_le _
    apply List.countP_eq_zero.mpr
    intro ticket _ counted
    simp only [Bool.and_eq_true, List.any_eq_true, decide_eq_true_eq] at counted
    obtain ⟨-, record, member, -, there⟩ := counted
    exact stands ⟨record, member, there⟩

section Answering

def Answer.Settles : Answer → Prop
  | .registered _ | .revoked .. => True
  | _ => False

def Unsettled (outcome : ApprovalHost × Option Answer) : Prop :=
  ∀ answer, outcome.2 = some answer → ¬ answer.Settles

variable {approvals : ApprovalHost} {call : Nat}

theorem unsettled_goesOn (held : Call) : Unsettled (approvals.goesOn call held) := by
  intro answer told
  cases told

variable {answer : Answer} (asker : Asker) (resolvedPath : String)

theorem unsettled_ends (no : ¬ answer.Settles) : Unsettled (approvals.ends call answer) := by
  intro other told
  obtain rfl := Option.some.inj told
  exact no

theorem unsettled_refused (problem : Problem) :
    Unsettled (approvals.ends call (.refused problem)) :=
  unsettled_ends id

theorem unsettled_throws (thrown : Thrown) : Unsettled (approvals.throws call asker thrown) := by
  cases asker with
  | approval resolvedPath root before => exact unsettled_refused _
  | direct => exact unsettled_ends id

variable (record : RepositoryRecord) (root : RootRecord)

theorem unsettled_answers : Unsettled (approvals.answers call asker record) := by
  cases asker with
  | approval resolvedPath root before => exact unsettled_goesOn _
  | direct => exact unsettled_ends id

theorem unsettled_registersIn : Unsettled (approvals.registersIn call resolvedPath root) := by
  unfold ApprovalHost.registersIn
  split
  · exact unsettled_throws _ _
  · exact unsettled_goesOn _

theorem unsettled_resolved (path requestedPath : String) (found : Option String) :
    Unsettled (approvals.resolved call path requestedPath found) := by
  unfold ApprovalHost.resolved
  split
  · exact unsettled_refused _
  · split
    · exact unsettled_registersIn _ _
    · split
      · exact unsettled_goesOn _
      · exact unsettled_refused _

theorem unsettled_approving (found : Except Thrown (String × Bool)) :
    Unsettled (approvals.approving call resolvedPath found) := by
  unfold ApprovalHost.approving
  split
  · exact unsettled_refused _
  · exact unsettled_refused _
  · dsimp only
    split
    · exact unsettled_goesOn _
    · exact unsettled_refused _

theorem unsettled_granting (resolvedPath path allowedRootId : String)
    (found : Except Thrown (String × Bool)) :
    Unsettled (approvals.granting call resolvedPath path allowedRootId found) := by
  unfold ApprovalHost.granting
  split
  · exact unsettled_refused _
  · exact unsettled_refused _
  · exact unsettled_goesOn _

theorem unsettled_checkedRoot (relativePath : String) (state : DirectoryState) :
    Unsettled (approvals.checkedRoot call asker root relativePath state) := by
  unfold ApprovalHost.checkedRoot
  split
  · exact unsettled_throws _ _
  · exact unsettled_throws _ _
  · split
    · exact unsettled_throws _ _
    · split
      · exact unsettled_throws _ _
      · exact unsettled_goesOn _

theorem unsettled_readLayout (allowedRootId rootPath : String) (found : LayoutRead) :
    Unsettled (approvals.readLayout call asker allowedRootId rootPath found) := by
  unfold ApprovalHost.readLayout
  split
  · exact unsettled_throws _ _
  · split
    · exact unsettled_goesOn _
    · exact unsettled_goesOn _

theorem unsettled_reconciled (existing : RepositoryRecord) (found : Except Thrown Unit) :
    Unsettled (approvals.reconciled call asker existing found) := by
  cases found with
  | error thrown => exact unsettled_throws _ _
  | ok done => exact unsettled_answers _ _

theorem unsettled_readWorktrees (found : Except Thrown (List HostWorktree)) :
    Unsettled (approvals.readWorktrees call asker record found) := by
  unfold ApprovalHost.readWorktrees
  cases found with
  | error thrown => exact unsettled_throws _ _
  | ok worktrees =>
    dsimp only
    split
    · exact unsettled_throws _ _
    · exact unsettled_answers _ _

theorem unsettled_answered (before : List String) (record : RepositoryRecord) :
    Unsettled (approvals.answered call resolvedPath root before record) := by
  unfold ApprovalHost.answered
  split
  · exact unsettled_refused _
  · exact unsettled_goesOn _

theorem resume_settles {found : Found} (told : (approvals.resume call found).2 = some answer)
    (settles : answer.Settles) : found = .journaled (.ok ()) ∧ ((∃ resolvedPath root record,
          approvals.calls call = some (.journaling resolvedPath root record) ∧ answer = .registered
              ⟨record.repositoryId, root.allowedRootId, resolvedPath⟩) ∨
        ∃ record remaining, approvals.calls call = some (.revoking record remaining) ∧
          answer = .revoked record.repositoryId record.allowedRootId remaining) := by
  unfold ApprovalHost.resume at told
  split at told
  · exact absurd settles (unsettled_resolved _ _ _ _ told)
  · exact absurd settles (unsettled_approving _ _ _ told)
  · exact absurd settles (unsettled_granting _ _ _ _ _ told)
  · exact absurd settles (unsettled_goesOn _ _ told)
  · exact absurd settles (unsettled_registersIn _ _ _ told)
  · exact absurd settles (unsettled_checkedRoot _ _ _ _ _ told)
  · exact absurd settles (unsettled_readLayout _ _ _ _ _ told)
  · exact absurd settles (unsettled_reconciled _ _ _ _ told)
  · exact absurd settles (unsettled_goesOn _ _ told)
  · exact absurd settles (unsettled_readWorktrees _ _ _ _ told)
  · exact absurd settles (unsettled_answered _ _ _ _ _ told)
  · rename_i resolvedPath root record written waits
    cases written with
    | error message => exact absurd settles (unsettled_refused _ _ told)
    | ok done =>
      exact ⟨rfl, .inl ⟨resolvedPath, root, record, waits, (Option.some.inj told).symm⟩⟩
  · rename_i record remaining written waits
    cases written with
    | error message => exact absurd settles (unsettled_refused _ _ told)
    | ok done => exact ⟨rfl, .inr ⟨record, remaining, waits, (Option.some.inj told).symm⟩⟩
  · cases told

theorem output_settles {homedir : String} {step : ApprovalStep}
    (told : (managing homedir).output approvals step = some answer) (settles : answer.Settles) :
    ∃ call found, step = .resume call found := by
  unfold Machine.output managing at told
  cases step with
  | register path =>
    dsimp only [register] at told
    split at told
    · cases told
    · obtain rfl := Option.some.inj told
      cases settles
  | registerIn allowedRootId relativePath =>
    dsimp only [registerIn] at told
    split at told
    · obtain rfl := Option.some.inj told
      cases settles
    · cases told
  | revoke repositoryId =>
    dsimp only [revoke] at told
    split at told
    · obtain rfl := Option.some.inj told
      cases settles
    · cases told
  | unregister repositoryId => cases told
  | drawId => cases told
  | resume call found => exact ⟨call, found, rfl⟩

end Answering

theorem mem_values_unregister {registry : Registry} {repositoryId : String}
    {record : RepositoryRecord} (member : record ∈ registry.records.values)
    (other : record.repositoryId ≠ repositoryId) :
    record ∈ (registry.unregister repositoryId).records.values := by
  unfold Registry.unregister
  cases found : registry.records.get? repositoryId with
  | none => exact member
  | some removed =>
    rw [(records_detachRepository _ _ _).1]
    have named := (InsertionMap.get?_eq_some.mp found).2
    exact InsertionMap.mem_values_erase.mpr ⟨member, named ▸ other⟩

theorem Kept.answersTruly {origin : Nat → String × String} (h : Kept approvals)
    (sound : Sound origin approvals) (homedir : String) {step : ApprovalStep}
    (inTurn : InTurn approvals step) : AnswersTruly homedir approvals step := by
  constructor
  · intro approval told
    obtain ⟨call, found, rfl⟩ := output_settles told trivial
    obtain ⟨-, ⟨resolvedPath, root, record, waits, same⟩ | ⟨_, _, _, ⟨⟩⟩⟩ :=
      resume_settles told trivial
    obtain rfl := Answer.registered.inj same
    exact ⟨call, found, _, record, rfl, waits, rfl, rfl, (h.fits call _ waits).symm⟩
  · intro approval told stored member named
    obtain ⟨call, found, rfl⟩ := output_settles told trivial
    obtain ⟨-, ⟨resolvedPath, root, record, waits, same⟩ | ⟨_, _, _, ⟨⟩⟩⟩ :=
      resume_settles told trivial
    obtain rfl := Answer.registered.inj same
    have lives : record.allowedRootId = root.allowedRootId := h.fits call _ waits
    exact ((sound.registry.stored stored member).agree (sound.held call _ record waits rfl)
      named).1.trans lives
  · intro repositoryId allowedRootId rootHasRepositories told nobody
    obtain ⟨call, found, rfl⟩ := output_settles told trivial
    obtain ⟨rfl, ⟨_, _, _, _, ⟨⟩⟩ | ⟨record, remaining, waits, same⟩⟩ :=
      resume_settles told trivial
    obtain ⟨rfl, rfl, rfl⟩ := Answer.revoked.inj same
    cases rootHasRepositories with
    | false => rfl
    | true =>
      obtain ⟨other, member, differs, shares⟩ := inTurn record waits
      have left : ((managing homedir).next approvals
          (.resume call (.journaled (.ok ())))).registry =
            approvals.registry.unregister record.repositoryId := by
        unfold Machine.next managing
        dsimp only
        unfold ApprovalHost.resume
        rw [waits]
        rfl
      refine absurd shares (nobody other ?_)
      unfold ApprovalHost.stands
      rw [left]
      exact mem_values_unregister member differs

theorem kept_start : Kept ({} : ApprovalHost) where
  bound _ member := absurd member List.not_mem_nil
  fits _ _ := nofun

/-- Over every run in turn a directory has one identity, the answers are true, and the queue has
one writer for each common directory. -/
theorem one_identity (homedir : String) (steps : List ApprovalStep)
    (inTurn : (managing homedir).Meets InTurn {} steps) :
    Identified ((managing homedir).after {} steps) ∧
      (managing homedir).Meets (AnswersTruly homedir) {} steps ∧
      ∀ (setting : Setting) (opening : Opening setting) (inputs : List CoordinatorInput)
        (commonDir : String), writersOn ((managing homedir).after {} steps)
          ((Coordinator.machine setting).after opening.coordinator inputs).runningTickets commonDir ≤ 1 := by
  have keeps : ∀ approvals step, ((∃ origin, Sound origin approvals) ∧ Kept approvals) →
      InTurn approvals step → (∃ origin, Sound origin ((managing homedir).next approvals step)) ∧
        Kept ((managing homedir).next approvals step) := by
    rintro approvals step ⟨⟨origin, sound⟩, h⟩ inTurn
    exact ⟨sound.next homedir step, h.next sound homedir inTurn⟩
  have start : (∃ origin, Sound origin ({} : ApprovalHost)) ∧ Kept ({} : ApprovalHost) :=
    ⟨⟨fun _ => ("", ""), sound_start _⟩, kept_start⟩
  obtain ⟨-, kept⟩ := (managing homedir).invariant_of_step _ keeps start inTurn
  refine ⟨kept.identified, ?_, ?_⟩
  · apply (managing homedir).meets_of_step _ keeps ?_ start inTurn
    rintro approvals step ⟨⟨origin, sound⟩, h⟩ inTurn
    exact h.answersTruly sound homedir inTurn
  · intro setting opening inputs commonDir
    have tracked := (Coordinator.machine setting).invariant (fun coordinator => coordinator.Tracked setting)
      (fun _ input held => held.next input) opening.tracked inputs
    obtain ⟨key, le⟩ := kept.identified.writersOn_le
      ((Coordinator.machine setting).after opening.coordinator inputs).runningTickets commonDir
    apply le.trans
    unfold Coordinator.runningTickets
    rw [← writersIn_perm tracked.running]
    exact tracked.queue.tables.oneWriter key

section Runs

/-- A repository whose Git directory is the shared one, and one with a directory of its own. -/
def sampleLayout (gitDir : String) : LayoutFacts where
  gitDir
  commonDir := "/work/app/.git"
  objectFormat := "sha1"
  bare := false
  shallow := false

/-- A call gets a new root for its path and reads the layout of the directory there. -/
def readsLayout (call : Nat) (path gitDir : String) : List ApprovalStep :=
  [.register path, .resume call (.realPath (some path)),
    .resume call (.directory (.ok (path, true))), .resume call (.directory (.ok (path, true))),
    .resume call .pinned, .resume call .resumed, .resume call (.checked .intact),
    .resume call (.read
      { handle := "dir_1"
        resolved := .ok (path, true)
        layout := .ok (sampleLayout gitDir)
        commonDirRead := true })]

/-- A second path to a common directory is approved once the first is filed, and is refused; then
the repository is revoked. -/
def sharedDirectory : List ApprovalStep :=
  readsLayout 0 "/work/app" "/work/app/.git" ++ .resume 0 .pinned ::
    readsLayout 1 "/work/tree" "/work/app/.git/worktrees/tree" ++
      [.resume 0 (.worktrees (.ok [⟨"wt_1", "/work/app", true⟩])), .resume 1 (.reconciled (.ok ())),
        .resume 0 .resumed, .resume 1 .resumed, .resume 0 (.journaled (.ok ())),
        .revoke "repo_1", .resume 2 (.journaled (.ok ()))]

def racedRegistrations : List ApprovalStep :=
  readsLayout 0 "/work/app" "/work/app/.git" ++
    readsLayout 1 "/work/tree" "/work/app/.git/worktrees/tree" ++
      [.resume 0 .pinned, .resume 1 .pinned]

theorem one_identity_shared_directory :
    Identified ((managing "/home/user").after {} sharedDirectory) ∧
      (managing "/home/user").Meets (AnswersTruly "/home/user") {} sharedDirectory ∧
      ∀ (setting : Setting) (opening : Opening setting) (inputs : List CoordinatorInput)
        (commonDir : String), writersOn ((managing "/home/user").after {} sharedDirectory)
          ((Coordinator.machine setting).after opening.coordinator inputs).runningTickets
          commonDir ≤ 1 := by
  apply one_identity
  refine ⟨trivial, trivial, trivial, trivial, ?_, trivial, trivial, ?_, ?_, trivial, trivial,
    trivial, trivial, ?_, trivial, trivial, ?_, ?_, trivial, trivial, trivial, ?_, trivial, ?_,
    trivial⟩
  · rintro _ _ ⟨⟩
  · rintro _ _ _ _ _ ⟨⟩ _ _ existing ⟨⟩ ⟨⟩
  · rintro _ _ ⟨⟩
    rfl
  · rintro _ _ ⟨⟩
  · rintro _ _ _ _ _ ⟨⟩ _ _ existing ⟨⟩ ⟨⟩
    exact .inl List.mem_cons_self
  · rintro _ _ ⟨⟩
    exact .inl ⟨_, List.mem_cons_self, rfl⟩
  · rintro _ ⟨⟩
  · rintro _ ⟨⟩

/-- Both find the directory free before either is filed, and it gets two identities. -/
theorem raced_registrations_divide :
    ¬ Identified ((managing "/home/user").after {} racedRegistrations) := by
  intro identified
  have stands : ((managing "/home/user").after {} racedRegistrations).stands.map
      (fun record => (record.repositoryId, record.commonDir)) =
        [("repo_1", "/work/app/.git"), ("repo_2", "/work/app/.git")] := by
    decide +kernel
  obtain ⟨first, member, one⟩ := List.mem_map.mp (stands ▸ List.mem_cons_self)
  obtain ⟨second, also, two⟩ :=
    List.mem_map.mp (stands ▸ List.mem_cons_of_mem _ List.mem_cons_self)
  obtain ⟨firstId, firstDir⟩ := Prod.mk.inj one
  obtain ⟨secondId, secondDir⟩ := Prod.mk.inj two
  have same := identified.one first member second also (firstDir.trans secondDir.symm)
  rw [firstId, secondId] at same
  exact absurd same (by decide)

end Runs

end Refyard.Approvals
