import Refyard.Writes.Interrupted

/-! What is reported of writes that run several commands, once one of them changed something. -/
namespace Refyard

open Interaction

def CleanAnswer (answer : GitAnswer) : Prop :=
  ∃ outcome, answer = .ok outcome ∧ cleanExit outcome = true

theorem cleanAnswer_ok {outcome : RunOutcome} :
    CleanAnswer (.ok outcome) ↔ cleanExit outcome = true := by
  constructor
  · rintro ⟨_, same, clean⟩
    cases same
    exact clean
  · exact fun clean => ⟨outcome, rfl, clean⟩

theorem not_cleanAnswer_error (problem : Problem) : ¬ CleanAnswer (.error problem) := by
  rintro ⟨_, other, -⟩
  cases other

def ChangedSomething (exchanges : Exchanges) : Prop :=
  ∃ exchange ∈ exchanges, ¬ OnlyReads exchange.1 ∧ CleanAnswer exchange.2

def PartReported (transcript : EffectRun) : Prop :=
  ChangedSomething transcript.exchanges →
    (∃ result, reported transcript.ending = .succeeded result) ∨
      Uncertain (reported transcript.ending)

theorem partReported_of_reads : IdleOnReads PartReported := by
  rintro transcript reads ⟨exchange, member, changes, -⟩
  exact absurd (reads exchange member) changes

/-- Every command behind a clean one is planned and gets an outcome from the executor. -/
def Unbroken (answers : Nat → GitAnswer) :
    List (Except CoreError GitPlan) → Bool → Nat → Prop
  | [], _, _ => True
  | plan :: rest, changed, n =>
      (changed = true → plan.isOk = true ∧ (answers n).isOk = true) ∧
        (plan.isOk = true → CleanAnswer (answers n) → Unbroken answers rest true (n + 1))

section Chains
variable {answers : Nat → GitAnswer} {operationId : String} {target : WriteTarget}
variable {front : Exchanges}

theorem changedSomething_append_single {command : GitCommand} {answer : GitAnswer} :
    ChangedSomething (front ++ [(command, answer)]) ↔
      ChangedSomething front ∨ ¬ OnlyReads command ∧ CleanAnswer answer := by
  constructor
  · rintro ⟨exchange, member, changed⟩
    rw [List.mem_append, List.mem_singleton] at member
    obtain early | rfl := member
    · exact .inl ⟨exchange, early, changed⟩
    · exact .inr changed
  · rintro (⟨exchange, early, changed⟩ | changed)
    · exact ⟨exchange, List.mem_append_left _ early, changed⟩
    · exact ⟨(command, answer), List.mem_append_right _ (List.mem_singleton_self _), changed⟩

theorem partReported_failed {problem : Problem} {ending : Except EffectOutcome EffectOutcome}
    (failed : reported ending = .failed problem) :
    PartReported ⟨front, ending⟩ ↔ ¬ ChangedSomething front := by
  unfold PartReported
  rw [failed]
  constructor
  · intro held changed
    obtain ⟨_, other⟩ | ⟨_, _, other⟩ | ⟨_, other⟩ := held changed <;> cases other
  · exact fun unchanged changed => absurd changed unchanged

/-- A row whose later commands report what was left behind, and which succeeds where all of them
do, is honest exactly if it is unbroken. The induction carries what was changed so far. -/
theorem chain_partReported_iff {steps : List ChainStep}
    {behind : List RunOutcome → Effect EffectOutcome}
    (changes : ∀ step ∈ steps, ∀ plan, step.plan = .ok plan → plan.readOnly = false)
    (admits : ∀ step ∈ steps.tail, ∀ earlier outcome, earlier ≠ [] →
      Uncertain (step.unclean earlier outcome)) (succeeds : ∀ outcomes m, ∃ exchanges result,
      run answers (behind outcomes) m = ⟨exchanges, .ok (.succeeded result)⟩)
    {earlier : List RunOutcome} {n : Nat} (next : earlier ≠ [] → ∀ step ∈ steps.head?, ∀ outcome,
      Uncertain (step.unclean earlier outcome)) (begun : ChangedSomething front ↔ earlier ≠ []) :
    PartReported
        ((run answers (chain operationId target steps earlier >>= behind) n).prepend front) ↔
      Unbroken answers (steps.map ChainStep.plan) (!earlier.isEmpty) n := by
  have some_earlier (outcomes : List RunOutcome) : (!outcomes.isEmpty) = true ↔ outcomes ≠ [] := by
    cases outcomes <;> simp
  induction steps generalizing earlier front n with
  | nil =>
    obtain ⟨exchanges, result, ran⟩ := succeeds earlier n
    refine iff_of_true ?_ trivial
    have ended : run answers (chain operationId target [] earlier >>= behind) n =
        ⟨exchanges, .ok (.succeeded result)⟩ := ran
    rw [ended]
    exact fun _ => .inl ⟨result, rfl⟩
  | cons step rest ih =>
    rw [chain_cons_bind, List.map_cons, Unbroken]
    cases planned : step.plan with
    | error error =>
      have refusal : PartReported ⟨front ++ [], .error (invalidPayload operationId error.text)⟩ ↔
          ¬ ChangedSomething (front ++ []) := partReported_failed rfl
      rw [List.append_nil, begun, ← some_earlier] at refusal
      rw [orInvalid_error, leave_bind, run_leave, Transcript.prepend_mk, List.append_nil]
      refine refusal.trans ?_
      simp [Except.isOk, Except.toBool]
    | ok plan =>
      have command : ¬ OnlyReads (target.command plan) := by
        simp [OnlyReads, changes step List.mem_cons_self plan planned]
      rw [orInvalid_ok, done_bind, tryRun, run_askFor_bind]
      dsimp only [id]
      cases answered : answers n with
      | error problem =>
        have refusal : PartReported ⟨front ++ [(target.command plan, .error problem)],
            .error (refused operationId problem)⟩ ↔
              ¬ ChangedSomething (front ++ [(target.command plan, .error problem)]) :=
          partReported_failed rfl
        rw [changedSomething_append_single, begun, ← some_earlier] at refusal
        refine refusal.trans ?_
        simp [not_cleanAnswer_error, Except.isOk, Except.toBool]
      | ok outcome =>
        rw [orRefuse_ok, done_bind]
        by_cases clean : cleanExit outcome = true
        · have grown : ChangedSomething (front ++ [(target.command plan, .ok outcome)]) ↔
              earlier ++ [outcome] ≠ [] := by
            rw [changedSomething_append_single]
            exact iff_of_true (.inr ⟨command, cleanAnswer_ok.mpr clean⟩) (by simp)
          have following : earlier ++ [outcome] ≠ [] → ∀ other ∈ rest.head?, ∀ outcome',
              Uncertain (other.unclean (earlier ++ [outcome]) outcome') := by
            intro grown other member outcome'
            exact admits other (List.mem_of_head? member) _ outcome' grown
          rw [if_pos clean, Transcript.prepend_prepend]
          refine (ih (fun other member => changes other (List.mem_cons_of_mem _ member))
            (fun other member => admits other (List.mem_of_mem_tail member)) following grown).trans ?_
          rw [(some_earlier (earlier ++ [outcome])).mpr (by simp)]
          constructor
          · exact fun held => ⟨fun _ => ⟨rfl, rfl⟩, fun _ _ => held⟩
          · exact fun held => held.2 rfl (cleanAnswer_ok.mpr clean)
        · rw [if_neg clean]
          refine iff_of_true ?_ ?_
          · intro changed
            rw [run_leave, Transcript.prepend_mk, Transcript.prepend_mk, List.append_nil] at changed
            rw [changedSomething_append_single, cleanAnswer_ok] at changed
            have before := begun.mp (changed.resolve_right fun other => clean other.2)
            exact .inr (next before step rfl outcome)
          · refine ⟨fun _ => ⟨rfl, rfl⟩, fun _ other => ?_⟩
            exact absurd (cleanAnswer_ok.mp other) clean

end Chains

section Remotes
variable {host : WriteHost} {request : EffectRequest} {answers : Nat → GitAnswer}

theorem not_changedSomething_statusBefore (target : WriteTarget) :
    ChangedSomething (statusBefore answers target) ↔ ([] : List RunOutcome) ≠ [] := by
  refine iff_of_false ?_ (not_not_intro rfl)
  rintro ⟨exchange, member, changes, -⟩
  exact changes (onlyReads_statusBefore target exchange member)

def addPlans (remoteName fetchUrl : String) (pushUrl : Option String) :
    List (Except CoreError GitPlan) :=
  planRemoteAdd remoteName fetchUrl ::
    pushUrl.toList.map fun url => planRemoteSetUrl remoteName url true

variable {name : String} {pushUrl : Option String}

theorem addRemote_partReported_iff {url : String}
    (payload : request.request.operation = .addRemote name url pushUrl) :
    PartReported (run answers (addRemote host request) 0) ↔
      (RefWriteGoesOn host request (planRemoteAdd name url) answers →
        Unbroken answers (addPlans name url pushUrl) false 1) := by
  rw [addRemote_eq host payload]
  apply partReported_of_reads.goesOn_iff
  intro planned target before accepted
  have plans : (addSteps request.operationId name planned pushUrl).map ChainStep.plan =
      addPlans name url pushUrl := by
    unfold addPlans
    rw [accepted]
    cases pushUrl <;> rfl
  rw [← plans]
  apply chain_partReported_iff
  · intro step member plan same
    obtain rfl | later := List.mem_cons.mp member
    · rw [← Except.ok.inj same]
      exact (unseen_of_checked accepted rfl rfl).changes
    · obtain ⟨pushUrl, -, rfl⟩ := List.mem_map.mp later
      exact (unseen_of_checked same rfl rfl).changes
  · intro step member earlier outcome _
    obtain ⟨pushUrl, -, rfl⟩ := List.mem_map.mp member
    exact .inr ⟨_, rfl⟩
  · exact fun _ _ => ⟨_, _, rfl⟩
  · exact fun begun => absurd rfl begun
  · exact not_changedSomething_statusBefore target

theorem updateRemote_partReported_iff {newName fetchUrl : Option String}
    (payload : request.request.operation = .updateRemote name newName fetchUrl pushUrl) :
    PartReported (run answers (updateRemote host request) 0) ↔
      ((host.resolve request.request).isOk = true → (factsOf (answers 0)).isOk = true →
        Unbroken answers (updatePlans name newName fetchUrl pushUrl) false 1) := by
  cases changing : newName.isNone && fetchUrl.isNone && pushUrl.isNone with
  | true =>
    simp only [Bool.and_eq_true, Option.isNone_iff_eq_none] at changing
    obtain ⟨⟨rfl, rfl⟩, rfl⟩ := changing
    refine iff_of_true ?_ (fun _ _ => trivial)
    unfold updateRemote
    rw [payload]
    exact partReported_of_reads _ (List.forall_mem_nil _)
  | false =>
    rw [updateRemote_eq host payload changing, partReported_of_reads.unplanned_iff]
    have tail : ∀ target (before : WriteFacts), PartReported ((run answers (do
        let _ ← chain request.operationId target
          (updateSteps request.operationId name newName fetchUrl pushUrl) []
        pure (succeeded s!"updated remote {name}" before.head.oid)) 1).prepend
          (statusBefore answers target)) ↔
        Unbroken answers (updatePlans name newName fetchUrl pushUrl) false 1 := by
      intro target before
      rw [← plan_updateSteps request.operationId]
      apply chain_partReported_iff
      · intro step member plan planned
        apply GoesUnseen.changes
        apply unseen_updatePlans
        rw [← plan_updateSteps request.operationId, ← planned]
        exact List.mem_map_of_mem member
      · intro step member earlier outcome begun
        obtain ⟨command, later⟩ := updateSteps_unclean (List.mem_of_mem_tail member)
        rw [later, updateUnclean_of_begun request.operationId begun]
        exact .inr ⟨_, rfl⟩
      · exact fun _ _ => ⟨_, _, rfl⟩
      · exact fun begun => absurd rfl begun
      · exact not_changedSomething_statusBefore target
    constructor
    · intro held resolved read
      obtain ⟨target, resolved⟩ := isOk_iff.mp resolved
      obtain ⟨before, read⟩ := isOk_iff.mp read
      exact (tail target before).mp (held target before resolved read)
    · intro held target before resolved read
      rw [tail target before]
      exact held (isOk_iff.mpr ⟨target, resolved⟩) (isOk_iff.mpr ⟨before, read⟩)

end Remotes

section Pull
variable {host : WriteHost} {request : EffectRequest} {answers : Nat → GitAnswer}

/-- What a pull finds out before it fetches: where it runs, the branch, and what that tracks. -/
def preparePull (host : WriteHost) (request : EffectRequest) (remoteName : String) :
    Effect (WriteTarget × String × String) := do
  let target ← orRefuse request.operationId (host.resolve request.request)
  let before ← orRefuse request.operationId (← readFacts target)
  let branchName ← requireBranch request.operationId before
  let _ ← orRefuse request.operationId (← checkConfiguredRemote target remoteName false)
  let upstreamPlan ← orInvalid request.operationId (planBranchUpstreamRef branchName)
  let tracked ← orRefuse request.operationId (← tryRun target upstreamPlan)
  let upstreamRef ← orRefuse request.operationId (upstreamRefOf branchName remoteName tracked)
  pure (target, branchName, upstreamRef)

variable {remoteName name operationId : String} {planned : GitPlan}
variable {mode : PullMode} {push : Bool} {before : WriteFacts} {branchName upstreamRef : String}
  {target : WriteTarget} {front : Exchanges} {n : Nat}

theorem pull_eq (payload : request.request.operation = .pull remoteName mode) :
    pull host request = preparePull host request remoteName >>= fun ready =>
      pullHalves request.operationId ready.1 remoteName ready.2.1 ready.2.2 := by
  cases mode
  unfold pull preparePull
  rw [payload]
  simp only [bind_assoc, pure_eq, done_bind]

/-- The request resolves, HEAD is on a branch, the remote's URL is accepted, and the branch
tracks a ref of that remote. -/
structure PullReaches (host : WriteHost) (request : EffectRequest) (remoteName : String)
    (answers : Nat → GitAnswer) (upstreamRef : String) : Prop where
  resolved : (host.resolve request.request).isOk = true
  named : (planRemoteGetUrl remoteName false).isOk = true
  contacted : (configuredUrlOf remoteName (answers 1)).isOk = true
  tracks : ∃ before branchName tracked, factsOf (answers 0) = .ok before ∧
    before.head.branchName = some branchName ∧ before.head.detached = false ∧
    (planBranchUpstreamRef branchName).isOk = true ∧ answers 2 = .ok tracked ∧
    upstreamRefOf branchName remoteName tracked = .ok upstreamRef

theorem readOnly_planRemoteGetUrl (accepted : planRemoteGetUrl name push = .ok planned) :
    planned.readOnly = true := by
  rw [← eq_of_checked accepted]
  rfl

theorem readOnly_planBranchUpstreamRef (accepted : planBranchUpstreamRef name = .ok planned) :
    planned.readOnly = true := by
  rw [← eq_of_checked accepted]
  rfl

theorem reads_checkConfiguredRemote (target : WriteTarget) (name : String) (push : Bool) :
    AsksOnly OnlyReads (checkConfiguredRemote target name push) := by
  unfold checkConfiguredRemote
  cases planned : planRemoteGetUrl name push with
  | error error => trivial
  | ok plan => exact reads_askFor target (readOnly_planRemoteGetUrl planned) _

theorem reads_requireBranch (operationId : String) (before : WriteFacts) :
    AsksOnly OnlyReads (requireBranch operationId before) := by
  unfold requireBranch
  split <;> trivial

theorem reads_preparePull (remoteName : String) :
    AsksOnly OnlyReads (preparePull host request remoteName) := by
  apply AsksOnly.bind (reads_orRefuse _ _)
  intro target
  apply AsksOnly.bind (reads_askFor target readOnly_planStatus factsOf)
  intro read
  apply AsksOnly.bind (reads_orRefuse _ _)
  intro before
  apply AsksOnly.bind (reads_requireBranch _ before)
  intro branchName
  apply AsksOnly.bind (reads_checkConfiguredRemote target remoteName false)
  intro checked
  apply AsksOnly.bind (reads_orRefuse _ _)
  intro _
  cases planned : planBranchUpstreamRef branchName with
  | error error => trivial
  | ok plan =>
    apply AsksOnly.bind (reads_askFor target (readOnly_planBranchUpstreamRef planned) id)
    intro answer
    apply AsksOnly.bind (reads_orRefuse _ _)
    intro tracked
    apply AsksOnly.bind (reads_orRefuse _ _)
    exact fun _ => trivial

theorem requireBranch_ok (branch : before.head.branchName = some branchName)
    (attached : before.head.detached = false) :
    requireBranch operationId before = .done branchName := by
  unfold requireBranch
  rw [branch, attached]
  rfl

theorem run_checkConfiguredRemote (accepted : planRemoteGetUrl name push = .ok planned) (n : Nat) :
    run answers (checkConfiguredRemote target name push) n =
      ⟨[(target.command planned, answers n)], .ok (configuredUrlOf name (answers n))⟩ := by
  unfold checkConfiguredRemote
  rw [accepted]
  rfl

theorem run_preparePull (reaches : PullReaches host request remoteName answers upstreamRef) :
    ∃ exchanges target branchName, exchanges.length = 3 ∧
      run answers (preparePull host request remoteName) 0 =
        ⟨exchanges, .ok (target, branchName, upstreamRef)⟩ := by
  obtain ⟨before, branchName, tracked, read, branch, attached, planned, answered, tracks⟩ :=
    reaches.tracks
  obtain ⟨target, resolved⟩ := isOk_iff.mp reaches.resolved
  obtain ⟨getUrl, named⟩ := isOk_iff.mp reaches.named
  obtain ⟨url, contacted⟩ := isOk_iff.mp reaches.contacted
  obtain ⟨upstreamPlan, planned⟩ := isOk_iff.mp planned
  refine ⟨[(target.command planStatus, answers 0), (target.command getUrl, answers 1),
    (target.command upstreamPlan, answers 2)], target, branchName, rfl, ?_⟩
  · unfold preparePull readFacts tryRun
    rw [resolved, orRefuse_ok, done_bind, run_askFor_bind, read, orRefuse_ok, done_bind,
      requireBranch_ok branch attached, done_bind,
      run_bind_of_ok answers (run_checkConfiguredRemote named 1), contacted, orRefuse_ok, done_bind,
      planned, orInvalid_ok, done_bind, run_askFor_bind]
    simp only [List.length_singleton, answered, id, orRefuse_ok, done_bind, tracks, pure_eq,
      run_done, Transcript.prepend_mk, List.append_nil, List.singleton_append]

theorem branch_of_required {α : Type} {rest : String → Effect α} {value : α}
    (ended : ((run answers (requireBranch operationId before >>= rest) n).prepend front).ending =
      .ok value) :
    ∃ branchName, before.head.branchName = some branchName ∧ before.head.detached = false := by
  unfold requireBranch at ended
  cases branch : before.head.branchName with
  | none =>
    rw [branch] at ended
    cases ended
  | some branchName =>
    cases attached : before.head.detached with
    | true =>
      rw [branch, attached] at ended
      cases ended
    | false => exact ⟨branchName, rfl, rfl⟩

theorem reaches_of_run {exchanges : Exchanges} {ready : WriteTarget × String × String}
    (ran : run answers (preparePull host request remoteName) 0 = ⟨exchanges, .ok ready⟩) :
    PullReaches host request remoteName answers ready.2.2 := by
  have ended := congrArg Transcript.ending ran
  unfold preparePull readFacts tryRun at ended
  cases resolved : host.resolve request.request with
  | error problem =>
    rw [resolved] at ended
    cases ended
  | ok target =>
    rw [resolved, orRefuse_ok, done_bind, run_askFor_bind] at ended
    cases read : factsOf (answers 0) with
    | error problem =>
      rw [read] at ended
      cases ended
    | ok before =>
      rw [read, orRefuse_ok, done_bind] at ended
      obtain ⟨branchName, branch, attached⟩ := branch_of_required ended
      rw [requireBranch_ok branch attached, done_bind] at ended
      cases named : planRemoteGetUrl remoteName false with
      | error error =>
        unfold checkConfiguredRemote at ended
        rw [named] at ended
        cases ended
      | ok getUrl =>
        rw [run_bind_of_ok answers (run_checkConfiguredRemote named _)] at ended
        cases contacted : configuredUrlOf remoteName (answers (0 + 1)) with
        | error problem =>
          rw [contacted] at ended
          cases ended
        | ok url =>
          rw [contacted, orRefuse_ok, done_bind] at ended
          cases planned : planBranchUpstreamRef branchName with
          | error error =>
            rw [planned] at ended
            cases ended
          | ok upstreamPlan =>
            rw [planned, orInvalid_ok, done_bind, run_askFor_bind] at ended
            dsimp only [id, List.length_singleton] at ended
            cases answered : answers (0 + 1 + 1) with
            | error problem =>
              rw [answered] at ended
              cases ended
            | ok tracked =>
              rw [answered, orRefuse_ok, done_bind] at ended
              cases tracks : upstreamRefOf branchName remoteName tracked with
              | error problem =>
                rw [tracks] at ended
                cases ended
              | ok upstreamRef =>
                rw [tracks] at ended
                cases ended
                exact
                  { resolved := isOk_iff.mpr ⟨target, resolved⟩
                    named := isOk_iff.mpr ⟨getUrl, named⟩
                    contacted := isOk_iff.mpr ⟨url, contacted⟩
                    tracks := ⟨before, branchName, tracked, read, branch, attached,
                      isOk_iff.mpr ⟨upstreamPlan, planned⟩, answered, tracks⟩ }

theorem changes_planFetch {prune tagsFollowing : Bool}
    (accepted : planFetch remoteName prune tagsFollowing = .ok planned) :
    planned.readOnly = false := by
  rw [← eq_of_checked accepted]
  rfl

theorem changes_planFastForwardMerge {reference : String}
    (accepted : planFastForwardMerge reference = .ok planned) : planned.readOnly = false := by
  rw [← eq_of_checked accepted]
  rfl

theorem pullHalves_partReported_iff (reads : ∀ exchange ∈ front, OnlyReads exchange.1) :
    PartReported ((run answers
        (pullHalves operationId target remoteName branchName upstreamRef) n).prepend front) ↔
      Unbroken answers [planFetch remoteName false false, planFastForwardMerge upstreamRef]
        false n := by
  rw [pullHalves_eq]
  apply chain_partReported_iff
  · intro step member plan planned
    obtain rfl | rfl : step = _ ∨ step = _ := by simpa [pullSteps] using member
    · exact changes_planFetch planned
    · exact changes_planFastForwardMerge planned
  · intro step member earlier outcome _
    rw [List.mem_singleton.mp member]
    exact .inr ⟨_, rfl⟩
  · exact fun _ _ => ⟨_, _, rfl⟩
  · exact fun begun => absurd rfl begun
  · refine iff_of_false ?_ (not_not_intro rfl)
    rintro ⟨exchange, member, changes, -⟩
    exact changes (reads exchange member)

theorem pull_partReported_iff (payload : request.request.operation = .pull remoteName mode) :
    PartReported (run answers (pull host request) 0) ↔
      ∀ upstreamRef, PullReaches host request remoteName answers upstreamRef →
        Unbroken answers [planFetch remoteName false false, planFastForwardMerge upstreamRef]
          false 3 := by
  have reads : AsksOnly OnlyReads (preparePull host request remoteName) :=
    reads_preparePull remoteName
  rw [pull_eq payload, partReported_of_reads.first_iff reads]
  have asked := reads.exchanges answers 0
  constructor
  · intro held upstreamRef reaches
    obtain ⟨exchanges, target, branchName, three, ran⟩ := run_preparePull reaches
    rw [ran] at asked
    have settled := (pullHalves_partReported_iff asked).mp (held _ _ ran)
    rwa [three] at settled
  · rintro held ⟨place, name, upstreamRef⟩ exchanges ran
    have reaches := reaches_of_run ran
    obtain ⟨same, target, branchName, three, again⟩ := run_preparePull reaches
    rw [ran] at again asked
    cases again
    rw [pullHalves_partReported_iff asked, three]
    exact held _ reaches

end Pull

def manyStepEffect (host : WriteHost) (request : EffectRequest) : Option (Effect EffectOutcome) :=
  match request.request.operation.kind with
  | .addRemote => some (addRemote host request)
  | .updateRemote => some (updateRemote host request)
  | .pull => some (pull host request)
  | _ => none

/-- With which answers no effect ends early behind a command that changed something: each later
command is planned, and the executor does not refuse to run it. -/
def CarriesThrough (host : WriteHost) (request : EffectRequest) (answers : Nat → GitAnswer) :
    Prop :=
  match request.request.operation with
  | .addRemote name fetchUrl pushUrl =>
      RefWriteGoesOn host request (planRemoteAdd name fetchUrl) answers →
        Unbroken answers (addPlans name fetchUrl pushUrl) false 1
  | .updateRemote name newName fetchUrl pushUrl =>
      (host.resolve request.request).isOk = true → (factsOf (answers 0)).isOk = true →
        Unbroken answers (updatePlans name newName fetchUrl pushUrl) false 1
  | .pull remoteName _ =>
      ∀ upstreamRef, PullReaches host request remoteName answers upstreamRef →
        Unbroken answers [planFetch remoteName false false, planFastForwardMerge upstreamRef]
          false 3
  | _ => True

/-- What these effects changed before they came to nothing is reported exactly with those
answers. -/
theorem part_reported_iff (host : WriteHost) (request : EffectRequest)
    {effect : Effect EffectOutcome} (dispatched : manyStepEffect host request = some effect)
    (answers : Nat → GitAnswer) :
    PartReported (run answers effect 0) ↔ CarriesThrough host request answers := by
  unfold manyStepEffect at dispatched
  unfold CarriesThrough
  cases payload : request.request.operation <;> rw [payload] at dispatched <;> cases dispatched <;>
    dsimp only
  case addRemote => exact addRemote_partReported_iff payload
  case updateRemote => exact updateRemote_partReported_iff payload
  case pull => exact pull_partReported_iff payload

section Sample

def addOrigin (pushUrl : String) : EffectRequest :=
  sampleRequest (.addRemote "origin" "https://example.com/r.git" (some pushUrl))

def addAnswers : Nat → GitAnswer :=
  answersOf [statusAt "1111111111111111111111111111111111111111", finished 0 [], finished 0 []]

theorem part_of_addition :
    PartReported (run addAnswers (addRemote sampleHost (addOrigin "ssh://example.com/r.git")) 0) := by
  refine (part_reported_iff sampleHost (addOrigin "ssh://example.com/r.git") rfl addAnswers).mpr ?_
  intro _
  apply And.intro
  · exact fun other => by cases other
  · intro _ _
    apply And.intro
    · exact fun _ => ⟨by decide +kernel, rfl⟩
    · exact fun _ _ => trivial

/-- A remote is added and its push URL is then refused: the addition is reported as failed. -/
theorem part_of_addition_lost :
    ¬ ∀ (host : WriteHost) (request : EffectRequest) (effect : Effect EffectOutcome)
      (answers : Nat → GitAnswer), manyStepEffect host request = some effect →
        PartReported (run answers effect 0) := by
  intro claim
  have held := claim sampleHost (addOrigin "ext::sh") _ addAnswers rfl
  have unbroken := (addRemote_partReported_iff rfl).mp held
    ⟨by decide +kernel, resolve_sample _, by decide +kernel⟩
  have accepted := (unbroken.2 (by decide +kernel) ⟨_, rfl, rfl⟩).1 rfl
  exact absurd accepted.1 (by decide +kernel)

end Sample

end Refyard
