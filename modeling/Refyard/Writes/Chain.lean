import Refyard.Writes.Readback
import Refyard.Writes.Remotes

/-! Commands that one write runs in a row, each only behind a clean exit of the one before. -/
namespace Refyard

open Interaction

section Behind
variable {answers : Nat → GitAnswer} {front : Exchanges}

abbrev EffectRun := Transcript GitCommand GitAnswer EffectOutcome EffectOutcome

def IdleOnReads (holds : EffectRun → Prop) : Prop :=
  ∀ transcript : EffectRun, (∀ exchange ∈ transcript.exchanges, OnlyReads exchange.1) →
    holds transcript

variable {holds : EffectRun → Prop}
variable {α : Type}
variable {program : Effect α} {rest : α → Effect EffectOutcome}

theorem IdleOnReads.behind_iff (idle : IdleOnReads holds) {n : Nat}
    (reads : AsksOnly OnlyReads program) (readEarlier : ∀ exchange ∈ front, OnlyReads exchange.1) :
    holds ((run answers (program >>= rest) n).prepend front) ↔
      ∀ value exchanges, run answers program n = ⟨exchanges, .ok value⟩ →
        holds ((run answers (rest value) (n + exchanges.length)).prepend (front ++ exchanges)) := by
  have asked := reads.exchanges answers n
  cases ran : run answers program n with
  | mk exchanges ending =>
    rw [ran] at asked
    cases ending with
    | error exit =>
      refine iff_of_true ?_ (fun _ _ other => by cases other)
      rw [run_bind_of_error answers ran]
      apply idle
      intro exchange member
      exact (List.mem_append.mp member).elim (readEarlier exchange) (asked exchange)
    | ok value =>
      rw [run_bind_of_ok answers ran, Transcript.prepend_prepend]
      constructor
      · intro held _ _ same
        cases same
        exact held
      · exact fun held => held value exchanges rfl

theorem IdleOnReads.behind (idle : IdleOnReads holds) {α : Type} {program : Effect α}
    {rest : α → Effect EffectOutcome} {n : Nat} (reads : AsksOnly OnlyReads program)
    (readEarlier : ∀ exchange ∈ front, OnlyReads exchange.1)
    (held : ∀ value earlier m, (∀ exchange ∈ earlier, OnlyReads exchange.1) →
      holds ((run answers (rest value) m).prepend earlier)) :
    holds ((run answers (program >>= rest) n).prepend front) := by
  rw [idle.behind_iff reads readEarlier]
  intro value exchanges ran
  apply held
  have asked := reads.exchanges answers n
  rw [ran] at asked
  intro exchange member
  exact (List.mem_append.mp member).elim (readEarlier exchange) (asked exchange)

theorem IdleOnReads.first_iff (idle : IdleOnReads holds) (reads : AsksOnly OnlyReads program) :
    holds (run answers (program >>= rest) 0) ↔
      ∀ value exchanges, run answers program 0 = ⟨exchanges, .ok value⟩ →
        holds ((run answers (rest value) (0 + exchanges.length)).prepend exchanges) :=
  idle.behind_iff reads (List.forall_mem_nil _)

theorem IdleOnReads.first (idle : IdleOnReads holds) (reads : AsksOnly OnlyReads program)
    (held : ∀ value earlier m, (∀ exchange ∈ earlier, OnlyReads exchange.1) →
      holds ((run answers (rest value) m).prepend earlier)) :
    holds (run answers (program >>= rest) 0) :=
  idle.behind reads (List.forall_mem_nil _) held

abbrev statusBefore (answers : Nat → GitAnswer) (target : WriteTarget) : Exchanges :=
  [(target.command planStatus, answers 0)]

theorem onlyReads_statusBefore (target : WriteTarget) :
    ∀ exchange ∈ statusBefore answers target, OnlyReads exchange.1 := by
  intro exchange member
  exact List.mem_singleton.mp member ▸ readOnly_planStatus

variable {host : WriteHost} {request : EffectRequest}

theorem IdleOnReads.planned_iff (idle : IdleOnReads holds) {plan : Except CoreError GitPlan}
    {rest : GitPlan → WriteTarget → WriteFacts → Effect EffectOutcome} :
    holds (run answers (do
        let planned ← orInvalid request.operationId plan
        let target ← orRefuse request.operationId (host.resolve request.request)
        let before ← orRefuse request.operationId (← readFacts target)
        rest planned target before) 0) ↔
      ∀ planned target before, plan = .ok planned → host.resolve request.request = .ok target →
        factsOf (answers 0) = .ok before →
          holds ((run answers (rest planned target before) 1).prepend
            (statusBefore answers target)) := by
  cases plan with
  | error error =>
    exact iff_of_true (idle _ (List.forall_mem_nil _)) (fun _ _ _ other => by cases other)
  | ok planned =>
    rw [orInvalid_ok, done_bind]
    cases host.resolve request.request with
    | error problem =>
      exact iff_of_true (idle _ (List.forall_mem_nil _)) (fun _ _ _ _ other => by cases other)
    | ok target =>
      rw [orRefuse_ok, done_bind, readFacts, run_askFor_bind]
      cases factsOf (answers 0) with
      | error problem =>
        refine iff_of_true ?_ (fun _ _ _ _ _ other => by cases other)
        exact idle _ (onlyReads_statusBefore target)
      | ok before =>
        rw [orRefuse_ok, done_bind]
        constructor
        · intro held _ _ _ first second third
          cases first
          cases second
          cases third
          exact held
        · exact fun held => held planned target before rfl rfl rfl

/-- What is decided by the facts a planned write reads is decided where it gets to them. -/
theorem IdleOnReads.settles_iff (idle : IdleOnReads holds) {plan : Except CoreError GitPlan}
    {rest : GitPlan → WriteTarget → WriteFacts → Effect EffectOutcome} {settled : WriteFacts → Prop}
    (tail : ∀ planned target before, plan = .ok planned → factsOf (answers 0) = .ok before →
      (holds ((run answers (rest planned target before) 1).prepend (statusBefore answers target)) ↔
        settled before)) :
    holds (run answers (do
        let planned ← orInvalid request.operationId plan
        let target ← orRefuse request.operationId (host.resolve request.request)
        let before ← orRefuse request.operationId (← readFacts target)
        rest planned target before) 0) ↔
      (plan.isOk = true → (host.resolve request.request).isOk = true → ∀ before,
        factsOf (answers 0) = .ok before → settled before) := by
  rw [idle.planned_iff]
  constructor
  · intro held accepted resolved before read
    obtain ⟨planned, accepted⟩ := isOk_iff.mp accepted
    obtain ⟨target, resolved⟩ := isOk_iff.mp resolved
    exact (tail planned target before accepted read).mp
      (held planned target before accepted resolved read)
  · intro held planned target before accepted resolved read
    rw [tail planned target before accepted read]
    exact held (isOk_iff.mpr ⟨planned, accepted⟩) (isOk_iff.mpr ⟨target, resolved⟩) before read

theorem IdleOnReads.unplanned_iff (idle : IdleOnReads holds)
    {rest : WriteTarget → WriteFacts → Effect EffectOutcome} :
    holds (run answers (do
        let target ← orRefuse request.operationId (host.resolve request.request)
        let before ← orRefuse request.operationId (← readFacts target)
        rest target before) 0) ↔ ∀ target before, host.resolve request.request = .ok target →
        factsOf (answers 0) = .ok before →
          holds ((run answers (rest target before) 1).prepend (statusBefore answers target)) := by
  have planned := @IdleOnReads.planned_iff answers holds host request idle (.ok planStatus)
    fun _ => rest
  refine planned.trans ?_
  constructor
  · exact fun held target before => held planStatus target before rfl
  · exact fun held _ target before _ => held target before

end Behind

/-- One command of a row, and what is reported when it does not exit cleanly, given the
outcomes of those before it. -/
structure ChainStep where
  plan : Except CoreError GitPlan
  unclean : List RunOutcome → RunOutcome → EffectOutcome

def chain (operationId : String) (target : WriteTarget) :
    List ChainStep → List RunOutcome → Effect (List RunOutcome)
  | [], earlier => pure earlier
  | step :: rest, earlier => do
      let plan ← orInvalid operationId step.plan
      let outcome ← orRefuse operationId (← tryRun target plan)
      if cleanExit outcome then chain operationId target rest (earlier ++ [outcome])
      else .leave (step.unclean earlier outcome)

section Instances
variable (operationId : String) (target : WriteTarget)

theorem chain_cons_bind (step : ChainStep) (rest : List ChainStep) (earlier : List RunOutcome)
    (behind : List RunOutcome → Effect EffectOutcome) :
    (chain operationId target (step :: rest) earlier >>= behind) = (do
      let plan ← orInvalid operationId step.plan
      let outcome ← orRefuse operationId (← tryRun target plan)
      if cleanExit outcome then
        chain operationId target rest (earlier ++ [outcome]) >>= behind
      else .leave (step.unclean earlier outcome)) := by
  rw [chain]
  simp only [bind_assoc]
  congr 1
  funext plan
  congr 1
  funext answer
  congr 1
  funext outcome
  split <;> rfl

def addUnclean (operationId : String) (_ : List RunOutcome) (outcome : RunOutcome) :
    EffectOutcome :=
  refused operationId (refusalProblem "git remote add" outcome)

def addSteps (remoteName : String) (add : GitPlan) (pushUrl : Option String) : List ChainStep :=
  ⟨.ok add, addUnclean operationId⟩ :: pushUrl.toList.map fun pushUrl =>
    ⟨planRemoteSetUrl remoteName pushUrl true, fun _ => pushUrlUnset operationId remoteName⟩

def addedSummary (remoteName : String) : Option String → String
  | none => s!"added remote {remoteName}"
  | some _ => s!"added remote {remoteName} with a separate push URL"

variable (host : WriteHost) {request : EffectRequest} {remoteName : String}
  {pushUrl : Option String}

theorem addRemote_eq {fetchUrl : String}
    (payload : request.request.operation = .addRemote remoteName fetchUrl pushUrl) :
    addRemote host request = (do
      let add ← orInvalid request.operationId (planRemoteAdd remoteName fetchUrl)
      let target ← orRefuse request.operationId (host.resolve request.request)
      let before ← orRefuse request.operationId (← readFacts target)
      let _ ← chain request.operationId target
        (addSteps request.operationId remoteName add pushUrl) []
      pure (succeeded (addedSummary remoteName pushUrl) before.head.oid)) := by
  unfold addRemote
  rw [payload]
  dsimp only
  congr 1
  funext add
  congr 1
  funext target
  congr 1
  funext read
  congr 1
  funext before
  unfold addSteps
  rw [chain_cons_bind, orInvalid_ok, done_bind]
  congr 1
  funext answer
  congr 1
  funext outcome
  split
  · cases pushUrl with
    | none => rfl
    | some pushUrl =>
      rw [Option.toList_some, List.map_singleton, chain_cons_bind]
      rfl
  · rfl

def updateUnclean (operationId command : String) (earlier : List RunOutcome)
    (outcome : RunOutcome) : EffectOutcome :=
  if earlier.isEmpty then refused operationId (refusalProblem command outcome)
  else partialUpdate operationId command outcome

theorem updateUnclean_of_begun {command : String} {earlier : List RunOutcome}
    (begun : earlier ≠ []) (outcome : RunOutcome) :
    updateUnclean operationId command earlier outcome =
      partialUpdate operationId command outcome := by
  cases earlier with
  | nil => exact absurd rfl begun
  | cons _ _ => rfl

def urlSteps (currentName : String) (changes : List UrlChange) : List ChainStep :=
  changes.filterMap fun change => change.url.map fun url =>
    ⟨planRemoteSetUrl currentName url change.push, updateUnclean operationId change.command⟩

def updateSteps (remoteName : String) (newName fetchUrl pushUrl : Option String) :
    List ChainStep :=
  (newName.toList.map fun newName =>
    ⟨planRemoteRename remoteName newName, updateUnclean operationId "git remote rename"⟩) ++
  urlSteps operationId (newName.getD remoteName)
    [⟨fetchUrl, false, "git remote set-url"⟩, ⟨pushUrl, true, "git remote set-url --push"⟩]

theorem setUrls_bind (currentName : String) (changes : List UrlChange)
    (earlier : List RunOutcome) (behind : Effect EffectOutcome) :
    (setUrls operationId target currentName changes (!earlier.isEmpty) >>= fun _ => behind) =
      (chain operationId target (urlSteps operationId currentName changes) earlier >>=
        fun _ => behind) := by
  induction changes generalizing earlier with
  | nil => rfl
  | cons change rest ih =>
    unfold setUrls urlSteps
    rw [List.filterMap_cons]
    cases change.url with
    | none => exact ih earlier
    | some url =>
      dsimp only [Option.map_some]
      rw [chain_cons_bind, bind_assoc]
      congr 1
      funext plan
      rw [bind_assoc]
      congr 1
      funext answer
      rw [bind_assoc]
      congr 1
      funext outcome
      split
      · have grown : true = !(earlier ++ [outcome]).isEmpty := by simp
        rw [grown]
        exact ih (earlier ++ [outcome])
      · unfold updateUnclean
        cases earlier <;> rfl

theorem updateRemote_eq {newName fetchUrl : Option String}
    (payload : request.request.operation = .updateRemote remoteName newName fetchUrl pushUrl)
    (changing : (newName.isNone && fetchUrl.isNone && pushUrl.isNone) = false) :
    updateRemote host request = (do
      let target ← orRefuse request.operationId (host.resolve request.request)
      let before ← orRefuse request.operationId (← readFacts target)
      let _ ← chain request.operationId target
        (updateSteps request.operationId remoteName newName fetchUrl pushUrl) []
      pure (succeeded s!"updated remote {remoteName}" before.head.oid)) := by
  unfold updateRemote
  rw [payload]
  dsimp only
  rw [changing, if_neg Bool.false_ne_true]
  congr 1
  funext target
  congr 1
  funext read
  congr 1
  funext before
  unfold updateSteps renameRemote
  cases newName with
  | none => exact setUrls_bind request.operationId target remoteName _ [] _
  | some newName =>
    rw [Option.toList_some, List.map_singleton, List.singleton_append, Option.getD_some,
      chain_cons_bind, bind_assoc]
    congr 1
    funext plan
    rw [bind_assoc]
    congr 1
    funext answer
    rw [bind_assoc]
    congr 1
    funext outcome
    split
    · exact setUrls_bind request.operationId target newName _ [outcome] _
    · rfl

def pullSteps (remoteName branchName upstreamRef : String) : List ChainStep :=
  [⟨planFetch remoteName false false, fun _ => networkFailure operationId "git fetch"⟩,
    ⟨planFastForwardMerge upstreamRef, fun earlier =>
      notFastForwarded operationId branchName (earlier.flatMap movedRefs).length⟩]

def pulled (target : WriteTarget) (remoteName : String) (outcomes : List RunOutcome) :
    Effect EffectOutcome := do
  let moved := (outcomes.take 1).flatMap movedRefs
  let after ← readBack target
  let summary :=
    if moved.isEmpty then s!"pulled {remoteName}: already up to date"
    else
      s!"pulled {remoteName}: {moved.length} tracking ref(s) updated and the branch fast-forwarded"
  pure (succeededWithRefs summary moved (after.bind fun facts => facts.head.oid))

theorem pullHalves_eq (remoteName branchName upstreamRef : String) :
    pullHalves operationId target remoteName branchName upstreamRef =
      (chain operationId target (pullSteps operationId remoteName branchName upstreamRef) [] >>=
        pulled target remoteName) := by
  unfold pullHalves pullSteps
  rw [chain_cons_bind]
  congr 1
  funext fetchPlan
  congr 1
  funext answer
  congr 1
  funext fetched
  split
  · dsimp only
    rw [chain_cons_bind]
    congr 1
    funext ffPlan
    congr 1
    funext second
    congr 1
    funext forwarded
    split
    · unfold pulled
      simp [chain]
    · simp
  · rfl

end Instances

end Refyard
