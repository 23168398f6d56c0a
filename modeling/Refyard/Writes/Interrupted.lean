import Refyard.Writes.Chain
import Refyard.Writes.Confirmation
import Refyard.Writes.Refs

/-! What is said of a write whose command started and did not report an end. -/
namespace Refyard

open Interaction

/-- A command that started and was interrupted, ended in an unknown state, or lost output. -/
def Torn (outcome : RunOutcome) : Prop :=
  outcome.state = .interrupted ∨ outcome.state = .unknown ∨
    outcome.state = .completed ∧ outcome.outputComplete = false

instance (outcome : RunOutcome) : Decidable (Torn outcome) :=
  inferInstanceAs (Decidable (_ ∨ _ ∨ _))

def TornAnswer (answer : GitAnswer) : Prop := ∃ outcome, answer = .ok outcome ∧ Torn outcome

variable {outcome : RunOutcome}

theorem Torn.state_ne (torn : Torn outcome) : outcome.state ≠ .notStarted := by
  intro unstarted
  simp [Torn, unstarted] at torn

theorem Torn.unfinished (torn : Torn outcome) :
    (decide (outcome.state = .completed) && outcome.outputComplete) = false := by
  obtain stopped | lost | ⟨-, cut⟩ := torn
  · simp [stopped]
  · simp [lost]
  · simp [cut]

theorem Torn.not_clean (torn : Torn outcome) : ¬ cleanExit outcome = true := by
  intro clean
  unfold cleanExit at clean
  rw [Bool.and_eq_true, Bool.and_eq_true, beq_iff_eq] at clean
  have finished := torn.unfinished
  rw [clean.1.1, clean.1.2] at finished
  cases finished

def Uncertain (outcome : EffectOutcome) : Prop :=
  (∃ reason problem, outcome = .unknown reason problem) ∨
    ∃ problem, outcome = .needsAttention problem

theorem not_uncertain_refused (operationId : String) (problem : Problem) :
    ¬ Uncertain (refused operationId problem) := by
  rintro (⟨_, _, other⟩ | ⟨_, other⟩) <;> cases other

section Parts

/-- A part of a repository that a command can change. HEAD stands for the branch it names too. -/
inductive RepositoryPart where
  | head
  | index
  | workingTree
  | refs
  | configuration
  deriving DecidableEq

def everyPart : List RepositoryPart := [.head, .index, .workingTree, .refs, .configuration]

def GitPlan.parts (plan : GitPlan) : List RepositoryPart :=
  match plan.argv.head? with
  | some "commit" => [.head, .index]
  | some "branch" => [.head, .refs, .configuration]
  | some "switch" => [.head, .index, .workingTree, .refs, .configuration]
  | some "tag" => [.refs]
  | some "remote" => [.refs, .configuration]
  | some "stash" => [.index, .workingTree, .refs]
  | _ => everyPart

def statusParts : List RepositoryPart := [.head, .index]

/-- What was read on both sides of the commands covers all they can change, and agrees. -/
def ShownUnchanged (exchanges : Exchanges) : Prop :=
  (∀ exchange ∈ exchanges, ¬ OnlyReads exchange.1 → exchange.1.plan.parts ⊆ statusParts) ∧
    SameState [] (beforeFirstChange exchanges) (afterLastChange exchanges)

/-- If a command that changes something was torn, the outcome is uncertain, or it was shown that
nothing changed. -/
def InterruptionReported (transcript : EffectRun) : Prop :=
  (∃ exchange ∈ transcript.exchanges, ¬ OnlyReads exchange.1 ∧ TornAnswer exchange.2) →
    Uncertain (reported transcript.ending) ∨ ShownUnchanged transcript.exchanges

end Parts

section Shape
variable {answers : Nat → GitAnswer} {front later : Exchanges}
  {ending : Except EffectOutcome EffectOutcome}

theorem interruptionReported_of_reads : IdleOnReads InterruptionReported := by
  rintro transcript reads ⟨exchange, member, changes, -⟩
  exact absurd (reads exchange member) changes

theorem interruptionReported_command {command : GitCommand} {answer : GitAnswer}
    (readEarlier : ∀ exchange ∈ front, OnlyReads exchange.1)
    (readLater : ∀ exchange ∈ later, OnlyReads exchange.1) (changes : ¬ OnlyReads command) :
    InterruptionReported ⟨front ++ (command, answer) :: later, ending⟩ ↔
      (TornAnswer answer → Uncertain (reported ending) ∨
        command.plan.parts ⊆ statusParts ∧ SameState [] front later) := by
  have torn : (∃ exchange ∈ front ++ (command, answer) :: later,
      ¬ OnlyReads exchange.1 ∧ TornAnswer exchange.2) ↔ TornAnswer answer := by
    constructor
    · rintro ⟨exchange, member, changing, torn⟩
      rw [List.mem_append, List.mem_cons] at member
      obtain early | rfl | late := member
      · exact absurd (readEarlier exchange early) changing
      · exact torn
      · exact absurd (readLater exchange late) changing
    · exact fun torn => ⟨(command, answer), by simp, changes, torn⟩
  have shown : ShownUnchanged (front ++ (command, answer) :: later) ↔
      command.plan.parts ⊆ statusParts ∧ SameState [] front later := by
    have earlier : beforeFirstChange (front ++ (command, answer) :: later) = front :=
      beforeFirstChange_eq readEarlier changes
    have behind : afterLastChange (front ++ (command, answer) :: later) = later :=
      afterLastChange_eq readLater changes
    unfold ShownUnchanged
    rw [earlier, behind]
    apply and_congr_left
    intro _
    constructor
    · exact fun covered => covered (command, answer) (by simp) changes
    · intro covered exchange member changing
      rw [List.mem_append, List.mem_cons] at member
      obtain early | rfl | late := member
      · exact absurd (readEarlier exchange early) changing
      · exact covered
      · exact absurd (readLater exchange late) changing
  unfold InterruptionReported
  rw [torn, shown]

theorem interruptionReported_run {operationId : String} {target : WriteTarget} {plan : GitPlan}
    {judge : RunOutcome → Effect EffectOutcome} {n : Nat}
    (readEarlier : ∀ exchange ∈ front, OnlyReads exchange.1) (changes : plan.readOnly = false)
    (readLater : ∀ outcome, AsksOnly OnlyReads (judge outcome)) : InterruptionReported ((run answers
        (tryRun target plan >>= fun answer => orRefuse operationId answer >>= judge) n).prepend
          front) ↔ ∀ outcome, answers n = .ok outcome → Torn outcome →
        Uncertain (reported (run answers (judge outcome) (n + 1)).ending) ∨
          plan.parts ⊆ statusParts ∧
            SameState [] front (run answers (judge outcome) (n + 1)).exchanges := by
  have command : ¬ OnlyReads (target.command plan) := by
    simp [OnlyReads, changes]
  unfold tryRun
  rw [run_askFor_bind]
  dsimp only [id]
  cases answered : answers n with
  | error problem =>
    refine iff_of_true ?_ (fun _ other => by cases other)
    rw [orRefuse_error, leave_bind, run_leave, Transcript.prepend_mk, Transcript.prepend_mk,
      List.append_nil]
    rw [interruptionReported_command readEarlier (List.forall_mem_nil _) command]
    rintro ⟨_, other, -⟩
    cases other
  | ok outcome =>
    have asked := (readLater outcome).exchanges answers (n + 1)
    rw [orRefuse_ok, done_bind]
    cases ran : run answers (judge outcome) (n + 1) with
    | mk later ending =>
      rw [ran] at asked
      rw [Transcript.prepend_mk, Transcript.prepend_mk, List.singleton_append,
        interruptionReported_command readEarlier asked command]
      constructor
      · intro held same answer torn
        cases answer
        rw [ran]
        exact held ⟨outcome, rfl, torn⟩
      · rintro held ⟨same, answer, torn⟩
        cases answer
        have settled := held outcome rfl torn
        rwa [ran] at settled

end Shape

section Chains
variable {answers : Nat → GitAnswer} {operationId : String} {target : WriteTarget}
  {front : Exchanges}

def NoneTorn (exchanges : Exchanges) : Prop :=
  ∀ exchange ∈ exchanges, ¬ OnlyReads exchange.1 → ¬ TornAnswer exchange.2

theorem NoneTorn.append {later : Exchanges} (none : NoneTorn front)
    (others : ∀ exchange ∈ later, OnlyReads exchange.1 ∨ ¬ TornAnswer exchange.2) :
    NoneTorn (front ++ later) := by
  intro exchange member changes
  exact (List.mem_append.mp member).elim (fun early => none exchange early changes)
    fun late => (others exchange late).resolve_left changes

theorem NoneTorn.reported (none : NoneTorn front) (ending : Except EffectOutcome EffectOutcome) :
    InterruptionReported ⟨front, ending⟩ := by
  rintro ⟨exchange, member, changes, torn⟩
  exact absurd torn (none exchange member changes)

variable {behind : List RunOutcome → Effect EffectOutcome} {n : Nat}

theorem chain_reported_behind {steps : List ChainStep}
    (admits : ∀ step ∈ steps, ∀ earlier outcome, earlier ≠ [] →
      Uncertain (step.unclean earlier outcome))
    (reads : ∀ outcomes, AsksOnly OnlyReads (behind outcomes)) {earlier : List RunOutcome}
    (begun : earlier ≠ []) (none : NoneTorn front) : InterruptionReported
      ((run answers (chain operationId target steps earlier >>= behind) n).prepend front) := by
  induction steps generalizing earlier front n with
  | nil =>
    exact (none.append fun exchange member =>
      .inl ((reads earlier).exchanges answers n exchange member)).reported _
  | cons step rest ih =>
    rw [chain_cons_bind]
    cases step.plan with
    | error error =>
      rw [orInvalid_error, leave_bind, run_leave, Transcript.prepend_mk, List.append_nil]
      exact none.reported _
    | ok plan =>
      rw [orInvalid_ok, done_bind, tryRun, run_askFor_bind]
      dsimp only [id]
      cases answered : answers n with
      | error problem =>
        apply NoneTorn.reported
        apply none.append
        intro exchange member
        rw [List.mem_singleton.mp member]
        right
        rintro ⟨_, other, -⟩
        cases other
      | ok outcome =>
        rw [orRefuse_ok, done_bind]
        split
        · rename_i clean
          rw [Transcript.prepend_prepend]
          apply ih (fun other member => admits other (List.mem_cons_of_mem _ member)) (by simp)
          apply none.append
          intro exchange member
          rw [List.mem_singleton.mp member]
          right
          rintro ⟨same, answer, torn⟩
          cases answer
          exact torn.not_clean clean
        · exact fun _ => .inl (admits step List.mem_cons_self earlier outcome begun)

theorem chain_reported_iff {step : ChainStep} {rest : List ChainStep}
    (refuses : ∀ outcome, ¬ Uncertain (step.unclean [] outcome))
    (changes : ∀ plan, step.plan = .ok plan → plan.readOnly = false ∧ ¬ plan.parts ⊆ statusParts)
    (admits : ∀ other ∈ rest, ∀ earlier outcome, earlier ≠ [] →
      Uncertain (other.unclean earlier outcome))
    (reads : ∀ outcomes, AsksOnly OnlyReads (behind outcomes))
    (readEarlier : ∀ exchange ∈ front, OnlyReads exchange.1) : InterruptionReported
        ((run answers (chain operationId target (step :: rest) [] >>= behind) n).prepend front) ↔
      (step.plan.isOk = true → ¬ TornAnswer (answers n)) := by
  rw [chain_cons_bind]
  cases planned : step.plan with
  | error error =>
    refine iff_of_true ?_ (fun accepted => by cases accepted)
    apply interruptionReported_of_reads
    simpa using readEarlier
  | ok plan =>
    obtain ⟨changing, uncovered⟩ := changes plan planned
    have command : ¬ OnlyReads (target.command plan) := by
      simp [OnlyReads, changing]
    have only : (Except.isOk (Except.ok plan : Except CoreError GitPlan) = true →
        ¬ TornAnswer (answers n)) ↔ ¬ TornAnswer (answers n) :=
      ⟨fun held => held rfl, fun held _ => held⟩
    rw [only, orInvalid_ok, done_bind, tryRun, run_askFor_bind]
    dsimp only [id]
    cases answered : answers n with
    | error problem =>
      have none : ¬ TornAnswer (.error problem) := by
        rintro ⟨_, other, -⟩
        cases other
      refine iff_of_true ?_ none
      exact (interruptionReported_command readEarlier (List.forall_mem_nil _) command).mpr
        fun torn => absurd torn none
    | ok outcome =>
      rw [orRefuse_ok, done_bind]
      by_cases torn : Torn outcome
      · rw [if_neg torn.not_clean]
        have answer : TornAnswer (.ok outcome) := ⟨outcome, rfl, torn⟩
        refine iff_of_false ?_ (not_not_intro answer)
        intro held
        exact ((interruptionReported_command readEarlier (List.forall_mem_nil _) command).mp held
          answer).elim (refuses outcome) fun covered => uncovered covered.1
      · have untorn : ¬ TornAnswer (.ok outcome) := by
          rintro ⟨same, answer, other⟩
          cases answer
          exact torn other
        refine iff_of_true ?_ untorn
        have none : NoneTorn (front ++ [(target.command plan, .ok outcome)]) := by
          intro exchange member changing
          rw [List.mem_append, List.mem_singleton] at member
          obtain early | rfl := member
          · exact absurd (readEarlier exchange early) changing
          · exact untorn
        split
        · rw [Transcript.prepend_prepend]
          exact chain_reported_behind admits reads (by simp) none
        · exact none.reported _

end Chains

section Planned
variable {answers : Nat → GitAnswer}

theorem sameState_statusBefore {target : WriteTarget} {before : WriteFacts} {answer : GitAnswer}
    (read : factsOf (answers 0) = .ok before) :
    SameState [] (statusBefore answers target) [(target.command planStatus, answer)] ↔
      ∃ after, factsOf answer = .ok after ∧ after.head = before.head ∧
        after.indexKey = before.indexKey := by
  have first : factsIn (statusBefore answers target) = some before := by
    simp [factsIn, read, Except.toOption]
  have second : factsIn [(target.command planStatus, answer)] = (factsOf answer).toOption := by
    simp [factsIn]
  constructor
  · rintro ⟨⟨old, after, found, reread, head, index⟩, -⟩
    rw [first] at found
    cases found
    rw [second, toOption_eq_some] at reread
    exact ⟨after, reread, head, index⟩
  · rintro ⟨after, reread, head, index⟩
    refine ⟨⟨before, after, first, ?_, head, index⟩, fun _ other => absurd other List.not_mem_nil⟩
    rw [second, toOption_eq_some]
    exact reread

end Planned

section RefWrites
variable {answers : Nat → GitAnswer} {host : WriteHost} {request : EffectRequest}

structure GoesUnseen (plan : GitPlan) : Prop where
  changes : plan.readOnly = false
  uncovered : ¬ plan.parts ⊆ statusParts

variable {command : String}

/-- A torn write of refs is left open exactly if no read-back finds HEAD and the index where
they were. -/
theorem uncertain_classify_torn {summary : String} (torn : Torn outcome) (before : WriteFacts)
    (after : Option WriteFacts) :
    Uncertain (effectOutcome (classifyWrite command .indexMayBeUnchanged outcome before after)
        summary none) ↔ ∀ facts, after = some facts →
        headMoved before (some facts) = true ∨ indexMoved before (some facts) = true := by
  unfold classifyWrite
  rw [if_neg torn.state_ne, if_neg torn.not_clean]
  cases after with
  | none =>
    refine iff_of_true ?_ (fun _ other => by cases other)
    exact .inl ⟨_, _, rfl⟩
  | some facts =>
    have only : (∀ other, some facts = some other →
        headMoved before (some other) = true ∨ indexMoved before (some other) = true) ↔
        headMoved before (some facts) = true ∨ indexMoved before (some facts) = true := by
      simp
    rw [only]
    by_cases moved : headMoved before (some facts) = true
    · rw [if_pos moved]
      exact iff_of_true (.inl ⟨_, _, rfl⟩) (.inl moved)
    · rw [if_neg moved]
      cases index : indexMoved before (some facts) with
      | false =>
        refine iff_of_false ?_ (by simp [moved])
        rintro (⟨_, _, other⟩ | ⟨_, other⟩) <;> cases other
      | true => exact iff_of_true (.inl ⟨_, _, rfl⟩) (.inr rfl)

/-- Where a ref write gets to its command and that is torn, the read-back fails or finds that
HEAD or the index moved. -/
def RefWriteSettles (host : WriteHost) (request : EffectRequest)
    (plan : Except CoreError GitPlan) (answers : Nat → GitAnswer) : Prop :=
  plan.isOk = true → (host.resolve request.request).isOk = true → ∀ before,
    factsOf (answers 0) = .ok before → TornAnswer (answers 1) →
      ∀ after, factsOf (answers 2) = .ok after →
        headMoved before (some after) = true ∨ indexMoved before (some after) = true

def refTail (operationId command : String) (summary : Verdict → String) (failed : String)
    (plan : GitPlan) (target : WriteTarget) (before : WriteFacts) : Effect EffectOutcome := do
  let outcome ← orRefuse operationId (← tryRun target plan)
  if outcome.state = .notStarted then
    pure (effectOutcome (.failed (refusalProblem command outcome)) failed none)
  else
    let after ← readBack target
    let verdict := classifyWrite command .indexMayBeUnchanged outcome before after
    pure (effectOutcome verdict (summary verdict) none)

theorem refTail_reported_iff {failed : String} {summary : Verdict → String} {plan : GitPlan}
    (unseen : GoesUnseen plan) {target : WriteTarget} {before : WriteFacts} :
    InterruptionReported ((run answers
        (refTail request.operationId command summary failed plan target before) 1).prepend
          (statusBefore answers target)) ↔
      (TornAnswer (answers 1) → ∀ after, factsOf (answers 2) = .ok after →
        headMoved before (some after) = true ∨ indexMoved before (some after) = true) := by
  unfold refTail
  rw [interruptionReported_run (onlyReads_statusBefore target) unseen.changes]
  · have judged : ∀ outcome, Torn outcome → ((Uncertain (reported (run answers
        (if outcome.state = .notStarted then
          pure (effectOutcome (.failed (refusalProblem command outcome)) failed none)
        else do
          let after ← readBack target
          let verdict := classifyWrite command .indexMayBeUnchanged outcome before after
          pure (effectOutcome verdict (summary verdict) none) : Effect EffectOutcome) 2).ending) ↔
        ∀ after, factsOf (answers 2) = .ok after →
          headMoved before (some after) = true ∨ indexMoved before (some after) = true)) := by
      intro outcome torn
      rw [if_neg torn.state_ne, readBack, run_askFor_bind]
      dsimp only [pure_eq, run_done, Transcript.ending_prepend, reported]
      rw [uncertain_classify_torn torn]
      simp only [toOption_eq_some]
    constructor
    · rintro held ⟨outcome, answered, torn⟩
      exact (judged outcome torn).mp
        ((held outcome answered torn).resolve_right fun covered => unseen.uncovered covered.1)
    · intro held outcome answered torn
      exact .inl ((judged outcome torn).mpr (held ⟨outcome, answered, torn⟩))
  · intro outcome
    split
    · trivial
    · exact AsksOnly.bind (reads_askFor target readOnly_planStatus _) fun _ => trivial

theorem refWrite_reported_iff (command : String) (summary : Verdict → String) (failed : String)
    {plan : Except CoreError GitPlan} (unseen : ∀ planned, plan = .ok planned → GoesUnseen planned) :
    InterruptionReported (run answers (do
        let planned ← orInvalid request.operationId plan
        let target ← orRefuse request.operationId (host.resolve request.request)
        let before ← orRefuse request.operationId (← readFacts target)
        refTail request.operationId command summary failed planned target before) 0) ↔
      RefWriteSettles host request plan answers :=
  interruptionReported_of_reads.settles_iff fun planned _ _ accepted _ =>
    refTail_reported_iff (unseen planned accepted)

end RefWrites

section Plans
variable {planned : GitPlan}

theorem goesUnseen_of_refs (changes : planned.readOnly = false)
    (refs : planned.parts.contains .refs = true) : GoesUnseen planned where
  changes := changes
  uncovered covered :=
    absurd (covered (List.contains_iff_mem.mp refs)) (by decide)

variable {name newName url : String}

theorem unseen_of_checked {first second : Except CoreError Unit} {plan : GitPlan}
    (accepted : (do first; second; pure plan) = Except.ok planned) (changes : plan.readOnly = false)
    (refs : plan.parts.contains .refs = true) : GoesUnseen planned := by
  obtain ⟨_, _, accepted⟩ := bind_eq_ok.mp accepted
  rw [← eq_of_checked accepted]
  exact goesUnseen_of_refs changes refs

theorem unseen_planBranchSetUpstream {upstream : Option (String × String)}
    (accepted : planBranchSetUpstream name upstream = .ok planned) : GoesUnseen planned := by
  obtain ⟨_, _, accepted⟩ := bind_eq_ok.mp accepted
  cases upstream with
  | none =>
    rw [← Except.ok.inj accepted]
    exact goesUnseen_of_refs rfl rfl
  | some upstream =>
    rw [← Except.ok.inj accepted]
    exact goesUnseen_of_refs rfl rfl

theorem unseen_planTagCreate {targetOid : Option String} {annotated : Option TagAnnotation}
    (accepted : planTagCreate name targetOid annotated = .ok planned) : GoesUnseen planned := by
  cases annotated with
  | none => exact unseen_of_checked accepted rfl rfl
  | some annotated =>
    obtain ⟨_, _, accepted⟩ := bind_eq_ok.mp accepted
    exact unseen_of_checked accepted rfl rfl

end Plans

section Effects
variable {host : WriteHost} {request : EffectRequest} {answers : Nat → GitAnswer}
variable {plan : Except CoreError GitPlan} {newName fetchUrl : Option String} {planned : GitPlan}

theorem runRefWrite_reported_iff {command summary : String}
    (unseen : ∀ planned, plan = .ok planned → GoesUnseen planned) :
    InterruptionReported (run answers (runRefWrite host request plan command summary) 0) ↔
      RefWriteSettles host request plan answers :=
  refWrite_reported_iff command (fun _ => summary) summary unseen

variable {name : String} {confirmed : Bool} {pushUrl : Option String}

theorem deleteBranch_reported_iff
    (payload : request.request.operation = .deleteBranch name confirmed) :
    InterruptionReported (run answers (deleteBranch host request) 0) ↔
      RefWriteSettles host request (planBranchDelete name) answers := by
  unfold deleteBranch
  rw [payload]
  apply runRefWrite_reported_iff
  intro planned accepted
  rw [← eq_of_checked accepted]
  exact goesUnseen_of_refs rfl rfl

theorem deleteTag_reported_iff (payload : request.request.operation = .deleteTag name confirmed) :
    InterruptionReported (run answers (deleteTag host request) 0) ↔
      RefWriteSettles host request (planTagDelete name) answers := by
  unfold deleteTag
  rw [payload]
  apply runRefWrite_reported_iff
  intro planned accepted
  rw [← eq_of_checked accepted]
  exact goesUnseen_of_refs rfl rfl

theorem renameBranch_reported_iff {newName : String}
    (payload : request.request.operation = .renameBranch name newName) :
    InterruptionReported (run answers (renameBranch host request) 0) ↔
      RefWriteSettles host request (planBranchRename name newName) answers := by
  unfold renameBranch
  rw [payload]
  exact runRefWrite_reported_iff fun _ accepted => unseen_of_checked accepted rfl rfl

def upstreamPair (upstream : Option UpstreamSpec) : Option (String × String) :=
  upstream.map fun upstream => (upstream.remoteName, upstream.branchName)

theorem setBranchUpstream_reported_iff {upstream : Option UpstreamSpec}
    (payload : request.request.operation = .setBranchUpstream name upstream) :
    InterruptionReported (run answers (setBranchUpstream host request) 0) ↔
      RefWriteSettles host request (planBranchSetUpstream name (upstreamPair upstream)) answers := by
  unfold setBranchUpstream
  rw [payload]
  exact runRefWrite_reported_iff fun _ accepted => unseen_planBranchSetUpstream accepted

def branchCreation (name : String) (startOid : Option String) (switchToIt : Bool) :
    Except CoreError GitPlan :=
  if switchToIt then planBranchCreateAndSwitch name startOid else planBranchCreate name startOid

theorem createBranch_reported_iff {startOid : Option String} {switchToIt : Bool}
    (payload : request.request.operation = .createBranch name startOid switchToIt) :
    InterruptionReported (run answers (createBranch host request) 0) ↔
      RefWriteSettles host request (branchCreation name startOid switchToIt) answers := by
  have shape : createBranch host request = (do
      let planned ← orInvalid request.operationId (branchCreation name startOid switchToIt)
      let target ← orRefuse request.operationId (host.resolve request.request)
      let before ← orRefuse request.operationId (← readFacts target)
      refTail request.operationId "git branch" (createdBranch name switchToIt) "create branch"
        planned target before) := by
    unfold createBranch
    rw [payload]
    rfl
  rw [shape]
  apply refWrite_reported_iff
  intro planned accepted
  cases switchToIt with
  | true => exact unseen_of_checked accepted rfl rfl
  | false => exact unseen_of_checked accepted rfl rfl

theorem createTag_reported_iff {targetOid : Option String} {annotated : Option TagAnnotation}
    (payload : request.request.operation = .createTag name targetOid annotated) :
    InterruptionReported (run answers (createTag host request) 0) ↔
      RefWriteSettles host request (planTagCreate name targetOid annotated) answers := by
  have shape : createTag host request = (do
      let planned ← orInvalid request.operationId (planTagCreate name targetOid annotated)
      let target ← orRefuse request.operationId (host.resolve request.request)
      let before ← orRefuse request.operationId (← readFacts target)
      refTail request.operationId "git tag" (createdTag name annotated) "create tag"
        planned target before) := by
    unfold createTag
    rw [payload]
    rfl
  rw [shape]
  exact refWrite_reported_iff _ _ _ fun _ accepted => unseen_planTagCreate accepted

def RemoteSettles (host : WriteHost) (request : EffectRequest) (plan : Except CoreError GitPlan)
    (answers : Nat → GitAnswer) : Prop :=
  RefWriteGoesOn host request plan answers → ¬ TornAnswer (answers 1)

theorem IdleOnReads.goesOn_iff {holds : EffectRun → Prop}
    (idle : IdleOnReads holds) {plan : Except CoreError GitPlan}
    {rest : GitPlan → WriteTarget → WriteFacts → Effect EffectOutcome} {settled : Prop}
    (tail : ∀ planned target before, plan = .ok planned →
      (holds ((run answers (rest planned target before) 1).prepend (statusBefore answers target)) ↔
        settled)) :
    holds (run answers (do
        let planned ← orInvalid request.operationId plan
        let target ← orRefuse request.operationId (host.resolve request.request)
        let before ← orRefuse request.operationId (← readFacts target)
        rest planned target before) 0) ↔
      (RefWriteGoesOn host request plan answers → settled) := by
  refine (idle.settles_iff fun planned target before accepted _ =>
    tail planned target before accepted).trans ?_
  constructor
  · rintro held ⟨accepted, resolved, read⟩
    obtain ⟨before, read⟩ := isOk_iff.mp read
    exact held accepted resolved before read
  · exact fun held accepted resolved before read =>
      held ⟨accepted, resolved, isOk_iff.mpr ⟨before, read⟩⟩

theorem confirmed_reported_iff {what : String} {rest : Effect EffectOutcome} {settles : Prop}
    (reports : InterruptionReported (run answers rest 0) ↔ settles) :
    InterruptionReported (run answers (do
      requireConfirmed request.operationId confirmed what; rest) 0) ↔ (confirmed = true → settles) := by
  cases confirmed with
  | false =>
    exact iff_of_true (interruptionReported_of_reads _ (List.forall_mem_nil _)) Bool.noConfusion
  | true =>
    rw [requireConfirmed_true, done_bind, reports]
    exact ⟨fun held _ => held, fun held => held rfl⟩

theorem removeRemote_reported_iff
    (payload : request.request.operation = .removeRemote name confirmed) :
    InterruptionReported (run answers (removeRemote host request) 0) ↔
      (confirmed = true → RemoteSettles host request (planRemoteRemove name) answers) := by
  unfold removeRemote
  rw [payload]
  apply confirmed_reported_iff
  apply interruptionReported_of_reads.goesOn_iff
  intro planned target before accepted
  have unseen : GoesUnseen planned := by
    rw [← eq_of_checked accepted]
    exact goesUnseen_of_refs rfl rfl
  rw [interruptionReported_run (onlyReads_statusBefore target) unseen.changes]
  · constructor
    · rintro held ⟨outcome, answered, torn⟩
      have settled := held outcome answered torn
      rw [if_neg torn.not_clean] at settled
      exact settled.elim (not_uncertain_refused _ _) fun covered => unseen.uncovered covered.1
    · exact fun held outcome answered torn => absurd ⟨outcome, answered, torn⟩ held
  · intro outcome
    split <;> trivial

theorem addRemote_reported_iff {url : String}
    (payload : request.request.operation = .addRemote name url pushUrl) :
    InterruptionReported (run answers (addRemote host request) 0) ↔
      RemoteSettles host request (planRemoteAdd name url) answers := by
  rw [addRemote_eq host payload]
  apply interruptionReported_of_reads.goesOn_iff
  intro planned target before accepted
  have first : InterruptionReported ((run answers (do
      let _ ← chain request.operationId target
        (addSteps request.operationId name planned pushUrl) []
      pure (succeeded (addedSummary name pushUrl) before.head.oid)) 1).prepend
        (statusBefore answers target)) ↔
      ((Except.ok planned : Except CoreError GitPlan).isOk = true → ¬ TornAnswer (answers 1)) := by
    apply chain_reported_iff
    · exact fun outcome => not_uncertain_refused _ _
    · intro plan same
      rw [← Except.ok.inj same]
      have unseen : GoesUnseen planned := unseen_of_checked accepted rfl rfl
      exact ⟨unseen.changes, unseen.uncovered⟩
    · intro step member earlier outcome _
      obtain ⟨pushUrl, -, rfl⟩ := List.mem_map.mp member
      exact .inr ⟨_, rfl⟩
    · exact fun _ => trivial
    · exact onlyReads_statusBefore target
  rw [first]
  exact ⟨fun held => held rfl, fun held _ => held⟩

def updatePlans (remoteName : String) (newName fetchUrl pushUrl : Option String) :
    List (Except CoreError GitPlan) :=
  let currentName := newName.getD remoteName
  (newName.toList.map (planRemoteRename remoteName)) ++
    (fetchUrl.toList.map fun url => planRemoteSetUrl currentName url false) ++
    (pushUrl.toList.map fun url => planRemoteSetUrl currentName url true)

theorem plan_updateSteps (operationId remoteName : String)
    (newName fetchUrl pushUrl : Option String) :
    (updateSteps operationId remoteName newName fetchUrl pushUrl).map ChainStep.plan =
      updatePlans remoteName newName fetchUrl pushUrl := by
  cases newName <;> cases fetchUrl <;> cases pushUrl <;> rfl

theorem updateSteps_unclean {operationId remoteName : String}
    {newName fetchUrl pushUrl : Option String} {step : ChainStep}
    (member : step ∈ updateSteps operationId remoteName newName fetchUrl pushUrl) :
    ∃ command, step.unclean = updateUnclean operationId command := by
  unfold updateSteps urlSteps at member
  rw [List.mem_append, List.mem_map, List.mem_filterMap] at member
  obtain ⟨newName, -, rfl⟩ | ⟨change, -, made⟩ := member
  · exact ⟨_, rfl⟩
  · obtain ⟨url, -, rfl⟩ := Option.map_eq_some_iff.mp made
    exact ⟨_, rfl⟩

theorem unseen_updatePlans {remoteName : String}
    (member : .ok planned ∈ updatePlans remoteName newName fetchUrl pushUrl) :
    GoesUnseen planned := by
  unfold updatePlans at member
  simp only [List.mem_append, List.mem_map] at member
  obtain (⟨newName, -, accepted⟩ | ⟨url, -, accepted⟩) | ⟨url, -, accepted⟩ := member
  · exact unseen_of_checked accepted rfl rfl
  · exact unseen_of_checked accepted rfl rfl
  · exact unseen_of_checked accepted rfl rfl

def UpdateSettles (host : WriteHost) (request : EffectRequest)
    (plans : List (Except CoreError GitPlan)) (answers : Nat → GitAnswer) : Prop :=
  ∀ plan ∈ plans.head?, RemoteSettles host request plan answers

theorem updateRemote_reported_iff
    (payload : request.request.operation = .updateRemote name newName fetchUrl pushUrl) :
    InterruptionReported (run answers (updateRemote host request) 0) ↔
      UpdateSettles host request (updatePlans name newName fetchUrl pushUrl) answers := by
  unfold UpdateSettles
  cases changing : newName.isNone && fetchUrl.isNone && pushUrl.isNone with
  | true =>
    simp only [Bool.and_eq_true, Option.isNone_iff_eq_none] at changing
    obtain ⟨⟨rfl, rfl⟩, rfl⟩ := changing
    refine iff_of_true ?_ (fun _ other => by cases other)
    unfold updateRemote
    rw [payload]
    exact interruptionReported_of_reads _ (List.forall_mem_nil _)
  | false =>
    rw [updateRemote_eq host payload changing, ← plan_updateSteps request.operationId]
    have plans := plan_updateSteps request.operationId name newName fetchUrl pushUrl
    have unclean := fun step => @updateSteps_unclean request.operationId name newName fetchUrl
      pushUrl step
    cases listed : updateSteps request.operationId name newName fetchUrl pushUrl with
    | nil =>
      exfalso
      rw [listed] at plans
      cases newName <;> cases fetchUrl <;> cases pushUrl <;> simp [updatePlans] at plans changing
    | cons step rest =>
      rw [listed] at plans unclean
      have unseen : ∀ planned, step.plan = .ok planned → GoesUnseen planned := by
        intro planned accepted
        apply unseen_updatePlans
        rw [← plans, ← accepted]
        exact List.mem_cons_self
      have tail : ∀ target (before : WriteFacts), InterruptionReported ((run answers (do
          let _ ← chain request.operationId target (step :: rest) []
          pure (succeeded s!"updated remote {name}" before.head.oid)) 1).prepend
            (statusBefore answers target)) ↔
          (step.plan.isOk = true → ¬ TornAnswer (answers 1)) := by
        intro target before
        apply chain_reported_iff
        · intro outcome
          obtain ⟨command, first⟩ := unclean step List.mem_cons_self
          rw [first]
          exact not_uncertain_refused _ _
        · exact fun planned accepted => ⟨(unseen planned accepted).changes,
            (unseen planned accepted).uncovered⟩
        · intro other member earlier outcome begun
          obtain ⟨command, later⟩ := unclean other (List.mem_cons_of_mem _ member)
          rw [later, updateUnclean_of_begun request.operationId begun]
          exact .inr ⟨_, rfl⟩
        · exact fun _ => trivial
        · exact onlyReads_statusBefore target
      rw [interruptionReported_of_reads.unplanned_iff]
      simp only [List.map_cons, List.head?_cons, Option.mem_some_iff, forall_eq', tail]
      constructor
      · rintro held ⟨accepted, resolved, read⟩
        obtain ⟨target, resolved⟩ := isOk_iff.mp resolved
        obtain ⟨before, read⟩ := isOk_iff.mp read
        exact held target before resolved read accepted
      · intro held target before resolved read accepted
        exact held ⟨accepted, isOk_iff.mpr ⟨target, resolved⟩, isOk_iff.mpr ⟨before, read⟩⟩

/-- Where an amend gets to its command and that is torn, the read-back finds HEAD and the index
where they were. -/
def AmendSettles (host : WriteHost) (request : EffectRequest) (plan : Except CoreError GitPlan)
    (answers : Nat → GitAnswer) : Prop :=
  plan.isOk = true → (host.resolve request.request).isOk = true → ∀ before,
    factsOf (answers 0) = .ok before → before.head.oid.isSome = true → TornAnswer (answers 1) →
      ∃ after, factsOf (answers 2) = .ok after ∧ after.head = before.head ∧
        after.indexKey = before.indexKey

theorem amendOutcome_of_torn (torn : Torn outcome) (operationId : String) (before : WriteFacts)
    (after : Option WriteFacts) : amendOutcome operationId outcome before after =
      refused operationId (refusalProblem "git commit --amend" outcome) := by
  unfold amendOutcome
  rw [if_neg torn.not_clean, torn.unfinished, Bool.false_and, if_neg Bool.false_ne_true]

theorem parts_planAmendCommit {message : Option Bytes}
    (accepted : planAmendCommit message = .ok planned) :
    planned.readOnly = false ∧ planned.parts ⊆ statusParts := by
  unfold planAmendCommit at accepted
  cases message with
  | none =>
    rw [← Except.ok.inj accepted]
    exact ⟨rfl, List.Subset.refl _⟩
  | some message =>
    dsimp only at accepted
    split at accepted
    · cases accepted
    · split at accepted
      · cases accepted
      · split at accepted
        · cases accepted
        · rw [← Except.ok.inj accepted]
          exact ⟨rfl, List.Subset.refl _⟩

theorem amendCommit_reported_iff {message : Option String}
    (payload : request.request.operation = .amendCommit message confirmed) :
    InterruptionReported (run answers (amendCommit host request) 0) ↔ (confirmed = true →
        AmendSettles host request (planAmendCommit (message.map textBytes)) answers) := by
  unfold amendCommit
  rw [payload]
  apply confirmed_reported_iff
  apply interruptionReported_of_reads.settles_iff
  intro planned target before accepted read
  cases tip : before.head.oid with
  | none =>
    refine iff_of_true ?_ (fun other => by cases other)
    exact interruptionReported_of_reads _ (by simp [refuse, OnlyReads, readOnly_planStatus])
  | some oid =>
    obtain ⟨changes, covered⟩ := parts_planAmendCommit accepted
    rw [Option.isNone_some, if_neg Bool.false_ne_true,
      interruptionReported_run (onlyReads_statusBefore target) changes]
    · have settled : ∀ outcome, Torn outcome → ((Uncertain (reported (run answers (do
              let after ← readBack target
              pure (amendOutcome request.operationId outcome before after)) 2).ending) ∨
            planned.parts ⊆ statusParts ∧ SameState [] (statusBefore answers target)
              (run answers (do
                let after ← readBack target
                pure (amendOutcome request.operationId outcome before after)) 2).exchanges) ↔
          ∃ after, factsOf (answers 2) = .ok after ∧ after.head = before.head ∧
            after.indexKey = before.indexKey) := by
        intro outcome torn
        simp only [readBack, run_askFor_bind, pure_eq, run_done, Transcript.prepend_mk,
          List.append_nil, amendOutcome_of_torn torn, reported]
        rw [sameState_statusBefore read]
        constructor
        · exact fun held => (held.resolve_left (not_uncertain_refused _ _)).2
        · exact fun held => .inr ⟨covered, held⟩
      constructor
      · rintro held - ⟨outcome, answered, torn⟩
        exact (settled outcome torn).mp (held outcome answered torn)
      · intro held outcome answered torn
        exact (settled outcome torn).mpr (held rfl ⟨outcome, answered, torn⟩)
    · intro outcome
      exact AsksOnly.bind (reads_askFor target readOnly_planStatus _) fun _ => trivial

end Effects

section Stashes
variable {host : WriteHost} {request : EffectRequest} {answers : Nat → GitAnswer}
  {target : WriteTarget}

theorem reads_checkStashLocator (stash : StashRef) :
    AsksOnly OnlyReads (checkStashLocator target stash) := by
  unfold checkStashLocator
  cases planned : planStashResolve stash.locator with
  | error error => trivial
  | ok plan =>
    have resolves : plan.readOnly = true := by
      rw [← eq_of_checked planned]
      rfl
    exact reads_askFor target resolves _

variable (operationId : String) {stash : StashRef}

theorem reads_locatorProblem (check : LocatorCheck) :
    AsksOnly OnlyReads (locatorProblem operationId check) := by
  cases check <;> trivial

theorem reads_probeHead : AsksOnly OnlyReads (probeHead target) :=
  reads_askFor target rfl _

theorem startedFailure_of_torn (torn : Torn outcome) (operationId command : String) :
    Uncertain (startedFailure operationId command outcome) := by
  unfold startedFailure
  rw [torn.unfinished, if_neg Bool.false_ne_true]
  exact .inl ⟨_, _, rfl⟩

theorem interruptionReported_open {operationId : String} {plan : GitPlan}
    {failed : RunOutcome → EffectOutcome} {judge : RunOutcome → Effect EffectOutcome}
    {front : Exchanges} {n : Nat}
    (readEarlier : ∀ exchange ∈ front, OnlyReads exchange.1)
    (readLater : ∀ outcome, AsksOnly OnlyReads (judge outcome))
    (left : ∀ outcome, Torn outcome → ∃ command,
      judge outcome = pure (startedFailure operationId command outcome)) :
    InterruptionReported ((run answers (tryRun target plan >>= fun answer =>
      orRefuse operationId answer >>= fun outcome =>
        if outcome.state = .notStarted then pure (failed outcome) else judge outcome) n).prepend front) := by
  have reads : ∀ outcome : RunOutcome, AsksOnly OnlyReads
      (if outcome.state = .notStarted then pure (failed outcome) else judge outcome) := by
    intro outcome
    split
    · trivial
    · exact readLater outcome
  cases changes : plan.readOnly with
  | true =>
    apply interruptionReported_of_reads.behind (reads_askFor target changes id) readEarlier
    intro answer earlier m readSoFar
    apply interruptionReported_of_reads.behind (reads_orRefuse _ _) readSoFar
    intro outcome earlier m readSoFar
    apply interruptionReported_of_reads
    intro exchange member
    exact (List.mem_append.mp member).elim (readSoFar exchange)
      ((reads outcome).exchanges answers m exchange)
  | false =>
    rw [interruptionReported_run readEarlier changes reads]
    intro outcome _ torn
    obtain ⟨command, open_⟩ := left outcome torn
    rw [if_neg torn.state_ne, open_]
    exact .inl (startedFailure_of_torn torn operationId command)

theorem located_reported {host : WriteHost} {request : EffectRequest}
    {made : Except CoreError GitPlan} {failed : RunOutcome → EffectOutcome}
    {judge : WriteTarget → RunOutcome → Effect EffectOutcome} {front : Exchanges} {n : Nat}
    (readEarlier : ∀ exchange ∈ front, OnlyReads exchange.1)
    (readLater : ∀ target outcome, AsksOnly OnlyReads (judge target outcome))
    (left : ∀ target outcome, Torn outcome → ∃ command,
      judge target outcome = pure (startedFailure request.operationId command outcome)) :
    InterruptionReported ((run answers (do
      let plan ← orInvalid request.operationId made
      let target ← orRefuse request.operationId (host.resolve request.request)
      locatorProblem request.operationId (← checkStashLocator target stash)
      let outcome ← orRefuse request.operationId (← tryRun target plan)
      if outcome.state = .notStarted then pure (failed outcome) else judge target outcome)
        n).prepend front) := by
  apply interruptionReported_of_reads.behind (reads_orInvalid _ _) readEarlier
  intro plan earlier m readSoFar
  apply interruptionReported_of_reads.behind (reads_orRefuse _ _) readSoFar
  intro target earlier m readSoFar
  apply interruptionReported_of_reads.behind (reads_checkStashLocator stash) readSoFar
  intro check earlier m readSoFar
  apply interruptionReported_of_reads.behind (reads_locatorProblem _ check) readSoFar
  intro _ earlier m readSoFar
  exact interruptionReported_open readSoFar (readLater target) (left target)

theorem reads_judgePop (stash : StashRef) (outcome : RunOutcome) :
    AsksOnly OnlyReads (judgePop operationId target stash outcome) := by
  unfold judgePop
  split
  · exact reads_probeHead.bind fun _ => trivial
  · split
    · apply AsksOnly.bind (reads_askFor target rfl _)
      intro conflicts
      dsimp only
      split
      · exact (reads_checkStashLocator stash).bind fun _ => trivial
      · trivial
    · trivial

theorem reads_judgeApply (stash : StashRef) (outcome : RunOutcome) :
    AsksOnly OnlyReads (judgeApply operationId target stash outcome) := by
  unfold judgeApply
  split
  · exact reads_probeHead.bind fun _ => trivial
  · split
    · apply AsksOnly.bind (reads_askFor target rfl _)
      intro conflicts
      dsimp only
      split <;> trivial
    · trivial

theorem createStash_reported {message : Option String} {includeUntracked keepIndex : Bool}
    (payload : request.request.operation = .createStash message includeUntracked keepIndex) :
    InterruptionReported (run answers (createStash host request) 0) := by
  unfold createStash
  rw [payload]
  apply interruptionReported_of_reads.first (reads_orInvalid _ _)
  intro plan earlier m readSoFar
  apply interruptionReported_of_reads.behind (reads_orRefuse _ _) readSoFar
  intro target earlier m readSoFar
  apply interruptionReported_open readSoFar
  · intro outcome
    split
    · exact reads_probeHead.bind fun _ => trivial
    · trivial
  · intro outcome torn
    exact ⟨_, if_neg torn.not_clean⟩

variable {restoreIndex confirmed : Bool}

theorem applyStash_reported (payload : request.request.operation = .applyStash stash restoreIndex) :
    InterruptionReported (run answers (applyStash host request) 0) := by
  unfold applyStash
  rw [payload]
  apply located_reported (List.forall_mem_nil _)
  · exact fun target => reads_judgeApply _ stash
  · intro target outcome torn
    unfold judgeApply
    rw [if_neg torn.not_clean, torn.unfinished, if_neg Bool.false_ne_true]
    exact ⟨_, rfl⟩

theorem reads_requireConfirmed (operationId what : String) (confirmed : Bool) :
    AsksOnly OnlyReads (requireConfirmed operationId confirmed what) := by
  cases confirmed <;> trivial

theorem popStash_reported
    (payload : request.request.operation = .popStash stash restoreIndex confirmed) :
    InterruptionReported (run answers (popStash host request) 0) := by
  unfold popStash
  rw [payload]
  apply interruptionReported_of_reads.first (reads_requireConfirmed _ _ confirmed)
  intro _ earlier m readSoFar
  apply located_reported readSoFar
  · exact fun target => reads_judgePop _ stash
  · intro target outcome torn
    unfold judgePop
    rw [if_neg torn.not_clean, torn.unfinished, if_neg Bool.false_ne_true]
    exact ⟨_, rfl⟩

theorem dropStash_reported (payload : request.request.operation = .dropStash stash confirmed) :
    InterruptionReported (run answers (dropStash host request) 0) := by
  unfold dropStash
  rw [payload]
  apply interruptionReported_of_reads.first (reads_requireConfirmed _ _ confirmed)
  intro _ earlier m readSoFar
  apply located_reported readSoFar
  · intro target outcome
    split
    · exact reads_probeHead.bind fun _ => trivial
    · trivial
  · intro target outcome torn
    exact ⟨_, if_neg torn.not_clean⟩

end Stashes

def singleEffect (host : WriteHost) (request : EffectRequest) : Option (Effect EffectOutcome) :=
  match request.request.operation.kind with
  | .amendCommit => some (amendCommit host request)
  | .addRemote => some (addRemote host request)
  | .updateRemote => some (updateRemote host request)
  | .removeRemote => some (removeRemote host request)
  | .createBranch => some (createBranch host request)
  | .renameBranch => some (renameBranch host request)
  | .deleteBranch => some (deleteBranch host request)
  | .setBranchUpstream => some (setBranchUpstream host request)
  | .createTag => some (createTag host request)
  | .deleteTag => some (deleteTag host request)
  | .createStash => some (createStash host request)
  | .applyStash => some (applyStash host request)
  | .popStash => some (popStash host request)
  | .dropStash => some (dropStash host request)
  | _ => none

/-- With which answers a torn command is left open or shown to have changed nothing. -/
def InterruptionSettles (host : WriteHost) (request : EffectRequest) (answers : Nat → GitAnswer) :
    Prop :=
  match request.request.operation with
  | .amendCommit message confirmed =>
      confirmed = true → AmendSettles host request (planAmendCommit (message.map textBytes)) answers
  | .addRemote name fetchUrl _ => RemoteSettles host request (planRemoteAdd name fetchUrl) answers
  | .updateRemote name newName fetchUrl pushUrl =>
      UpdateSettles host request (updatePlans name newName fetchUrl pushUrl) answers
  | .removeRemote name confirmed =>
      confirmed = true → RemoteSettles host request (planRemoteRemove name) answers
  | .createBranch name startOid switchToIt =>
      RefWriteSettles host request (branchCreation name startOid switchToIt) answers
  | .renameBranch name newName =>
      RefWriteSettles host request (planBranchRename name newName) answers
  | .deleteBranch name _ => RefWriteSettles host request (planBranchDelete name) answers
  | .setBranchUpstream name upstream =>
      RefWriteSettles host request (planBranchSetUpstream name (upstreamPair upstream)) answers
  | .createTag name targetOid annotated =>
      RefWriteSettles host request (planTagCreate name targetOid annotated) answers
  | .deleteTag name _ => RefWriteSettles host request (planTagDelete name) answers
  | _ => True

/-- An interrupted command of these effects is left open, or shown to have changed nothing,
exactly with those answers. -/
theorem interruption_reported_iff (host : WriteHost) (request : EffectRequest)
    {effect : Effect EffectOutcome} (dispatched : singleEffect host request = some effect)
    (answers : Nat → GitAnswer) :
    InterruptionReported (run answers effect 0) ↔ InterruptionSettles host request answers := by
  unfold singleEffect at dispatched
  unfold InterruptionSettles
  cases payload : request.request.operation <;> rw [payload] at dispatched <;> cases dispatched <;>
    dsimp only
  case amendCommit => exact amendCommit_reported_iff payload
  case addRemote => exact addRemote_reported_iff payload
  case updateRemote => exact updateRemote_reported_iff payload
  case removeRemote => exact removeRemote_reported_iff payload
  case createBranch => exact createBranch_reported_iff payload
  case renameBranch => exact renameBranch_reported_iff payload
  case deleteBranch => exact deleteBranch_reported_iff payload
  case setBranchUpstream => exact setBranchUpstream_reported_iff payload
  case createTag => exact createTag_reported_iff payload
  case deleteTag => exact deleteTag_reported_iff payload
  case createStash => exact iff_of_true (createStash_reported payload) trivial
  case applyStash => exact iff_of_true (applyStash_reported payload) trivial
  case popStash => exact iff_of_true (popStash_reported payload) trivial
  case dropStash => exact iff_of_true (dropStash_reported payload) trivial

section Sample

def stopped : RunOutcome where
  state := .interrupted
  exitCode := none
  stdout := []
  stderr := []
  outputComplete := true
  termination := some .timeout

def deleteTopic : EffectRequest := sampleRequest (.deleteBranch "topic" true)

/-- The state is read, the deletion is stopped, and then the connection is gone. -/
def stoppedDelete : Nat → GitAnswer :=
  answersOf [statusAt "1111111111111111111111111111111111111111", stopped]

theorem interruption_of_delete :
    InterruptionReported (run stoppedDelete (deleteBranch sampleHost deleteTopic) 0) := by
  refine (interruption_reported_iff sampleHost deleteTopic rfl stoppedDelete).mpr ?_
  intro _ _ before _ _ after reread
  cases reread

/-- A branch deletion that was stopped is reported as failed, with HEAD and the index unchanged
as its evidence. -/
theorem stopped_delete_is_failed :
    ¬ ∀ (host : WriteHost) (request : EffectRequest) (effect : Effect EffectOutcome)
      (answers : Nat → GitAnswer), singleEffect host request = some effect →
        InterruptionReported (run answers effect 0) := by
  intro claim
  let status := statusAt "1111111111111111111111111111111111111111"
  have held := claim sampleHost deleteTopic _ (answersOf [status, stopped, status]) rfl
  have settles : RefWriteSettles sampleHost deleteTopic (planBranchDelete "topic")
      (answersOf [status, stopped, status]) := (deleteBranch_reported_iff rfl).mp held
  have read : (factsOf (.ok status)).isOk = true := by decide +kernel
  obtain ⟨before, read⟩ := isOk_iff.mp read
  have moved := settles (by decide +kernel) (resolve_sample _) before read
    ⟨stopped, rfl, .inl rfl⟩ before read
  simp [headMoved, indexMoved] at moved

end Sample

end Refyard
