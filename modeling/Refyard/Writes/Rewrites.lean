import Refyard.Writes.HonestFailure

/-! The five rewrites, and with which answers each says that the repository is unchanged
although nothing it read bears that out. -/
namespace Refyard

open Interaction

section Prepared
variable {answers : Nat → GitAnswer} {host : WriteHost} {request : EffectRequest}
  {states : List Sequencer} {target : WriteTarget} {before : WriteFacts}
  {markers : List Sequencer}

theorem Prepared.unique {otherTarget : WriteTarget} {otherBefore : WriteFacts}
    (ready : Prepared answers host request states target before)
    (other : Prepared answers host request states otherTarget otherBefore) :
    otherTarget = target ∧ otherBefore = before :=
  ⟨Except.ok.inj (other.resolved.symm.trans ready.resolved),
   Except.ok.inj (other.facts.symm.trans ready.facts)⟩

theorem prepare_honest_iff (behind : WriteTarget × WriteFacts → Effect EffectOutcome)
    (misreports : WriteFacts → Prop)
    (rest : ∀ target before, Prepared answers host request states target before →
      (HonestFailure markers ((run answers (behind (target, before)) (states.length + 1)).prepend
        (preparation answers target states)) ↔ ¬ misreports before)) :
    HonestFailure markers (run answers (prepare host request states >>= behind) 0) ↔
      ¬ ∃ target before, Prepared answers host request states target before ∧
        misreports before := by
  by_cases prepared : ∃ target before, Prepared answers host request states target before
  · obtain ⟨target, before, ready⟩ := prepared
    rw [run_bind_of_ok answers (run_prepare ready), length_preparation, Nat.zero_add,
      rest target before ready]
    apply not_congr
    constructor
    · intro amiss
      exact ⟨target, before, ready, amiss⟩
    · rintro ⟨otherTarget, otherBefore, other, amiss⟩
      rwa [(ready.unique other).2] at amiss
  · push Not at prepared
    obtain ⟨exchanges, exit, left⟩ := run_prepare_stops prepared
    have asked := (reads_prepare host request states).exchanges answers 0
    rw [left] at asked
    rw [run_bind_of_error answers left]
    refine iff_of_true (honestFailure_of_reads asked) ?_
    rintro ⟨target, before, ready, -⟩
    exact prepared target before ready

theorem honest_leave (exit : EffectOutcome) (n : Nat) :
    HonestFailure markers (run answers (.leave exit : Effect EffectOutcome) n) :=
  honestFailure_of_reads (List.forall_mem_nil _)

theorem honest_done (outcome : EffectOutcome) (n : Nat) :
    HonestFailure markers (run answers (.done outcome : Effect EffectOutcome) n) :=
  honestFailure_of_reads (List.forall_mem_nil _)

theorem checked_honest_iff {α : Type} (operationId : String) (checked : Except CoreError α)
    (behind : α → Effect EffectOutcome) (misreports : α → Prop)
    (rest : ∀ value, checked = .ok value →
      (HonestFailure markers (run answers (behind value) 0) ↔ ¬ misreports value)) :
    HonestFailure markers (run answers (orInvalid operationId checked >>= behind) 0) ↔
      ¬ ∃ value, checked = .ok value ∧ misreports value := by
  cases checked with
  | error error => exact iff_of_true (honest_leave _ 0) (by simp)
  | ok value =>
    rw [orInvalid_ok, done_bind, rest value rfl]
    simp

end Prepared

section Judged

theorem classifyOrNotStarted_eq (command : String) (outcome : RunOutcome) (before : WriteFacts)
    (after : Option WriteFacts) (postcondition : Postcondition) :
    classifyOrNotStarted command outcome before after postcondition =
      classifyWrite command postcondition outcome before after := by
  unfold classifyOrNotStarted classifyWrite
  split <;> rfl

def judgedOutcome (command : String) (postcondition : Postcondition) (before : WriteFacts)
    (summary : Verdict → String) (outcome : RunOutcome) (after : Option WriteFacts) :
    EffectOutcome :=
  let verdict := classifyOrNotStarted command outcome before after postcondition
  effectOutcome verdict (summary verdict) none

theorem claimsUnchanged_judgedOutcome {command : String}
    (silent : ¬ SaysUnchanged (command ++ " could not be started"))
    (postcondition : Postcondition) (before : WriteFacts) (summary : Verdict → String)
    (outcome : RunOutcome) (after : Option WriteFacts) :
    ClaimsUnchanged (judgedOutcome command postcondition before summary outcome after) ↔
      ∃ facts, after = some facts ∧ JudgedUnchanged outcome before facts := by
  unfold judgedOutcome
  rw [classifyOrNotStarted_eq]
  exact claimsUnchanged_classifyWrite silent postcondition outcome before after _

theorem readOnly_of_checked {check : Except CoreError Unit} {plan planned : GitPlan}
    (changes : plan.readOnly = false) (accepted : (do check; pure plan) = Except.ok planned) :
    planned.readOnly = false := by
  cases check with
  | error error => cases accepted
  | ok =>
    cases accepted
    exact changes

theorem saysUnchanged_clause {clause text : List Char}
    (listed : String.ofList clause ∈ unchangedClauses) (inside : clause <:+: text) :
    SaysUnchanged (String.ofList text) := by
  refine ⟨String.ofList clause, listed, ?_⟩
  rw [String.toList_ofList, String.toList_ofList]
  exact inside

/-- Every message about a stop that was aborted says that nothing changed. -/
theorem saysUnchanged_aborted (diagnostic : String) :
    SaysUnchanged (emptyPickMessage diagnostic) ∧ SaysUnchanged (revertAbortedMessage diagnostic) ∧
      ∀ noun, SaysUnchanged (stopAbortedMessage noun diagnostic) := by
  have branch : "was aborted, so the branch is unchanged" ∈ unchangedClauses := .tail _ (.head _)
  have nothing : "was aborted, so nothing was left behind" ∈ unchangedClauses :=
    .tail _ (.tail _ (.head _))
  refine ⟨SaysUnchanged.append_right ?_ _, SaysUnchanged.append_right ?_ _,
    fun noun => SaysUnchanged.append_right (.append_left ?_ ("the " ++ noun)) _⟩
  · exact saysUnchanged_clause branch (by decide +kernel)
  · exact saysUnchanged_clause nothing (by decide +kernel)
  · exact saysUnchanged_clause branch (by decide +kernel)

end Judged

section Replays
variable (markers : List Sequencer) (host : WriteHost) (request : EffectRequest)
  (answers : Nat → GitAnswer)

/-- What a pick is refused with in Git's words, behind a stop that did not stand. -/
def mergeRefusal (outcome : RunOutcome) : Option String :=
  if isMergeRefusal outcome then some (mergePickMessage (diagnosticOf outcome)) else none

def noRefusal (_ : RunOutcome) : Option String := none

def CherryPickMisreports (oid : String) : Prop :=
  ∃ plan, planCherryPick oid = .ok plan ∧
    ∃ target before, Prepared answers host request [.merge, .revert, .cherryPick] target before ∧
      ReplayMisreports markers .cherryPick true mergeRefusal before answers 4

def RevertMisreports (oid : String) : Prop :=
  ∃ plan, planRevertCommit oid = .ok plan ∧
    ∃ target before, Prepared answers host request [.merge, .revert] target before ∧
      ReplayMisreports markers .revert false noRefusal before answers 3

def RebaseMisreports (upstreamOid : String) : Prop :=
  ∃ plan, planRebase upstreamOid = .ok plan ∧
    ∃ target before, Prepared answers host request everySequencer target before ∧
      ReplayMisreports markers .rebase true noRefusal before answers 5

def DropMisreports (oid : String) : Prop :=
  validatedSourceOid oid = .ok () ∧
    ∃ target before, Prepared answers host request everySequencer target before ∧
      (∃ plan, DropPlanned answers oid 5 plan) ∧
        ReplayMisreports markers .rebase true noRefusal before answers 8

variable {markers host request answers}

theorem preparedReplay_honest_iff {states : List Sequencer} {target : WriteTarget}
    {before : WriteFacts} {own : Sequencer} {counts : Bool} {plan : GitPlan}
    {judge : RunOutcome → Effect Unit} (refusal : RunOutcome → Option String) {command : String}
    (plain : ',' ∉ command.toList ∧ ';' ∉ command.toList)
    (postcondition : Postcondition) (summary : Verdict → String)
    (ready : Prepared answers host request states target before) (probed : own ∈ states)
    {further : Exchanges} (reads : ∀ exchange ∈ further, OnlyReads exchange.1) (n : Nat)
    (changes : plan.readOnly = false) (judges : JudgesStop answers target own counts judge) :
    HonestFailure markers ((run answers (replayTail request.operationId target plan judge refusal
          (judgedOutcome command postcondition before summary)) n).prepend
        (preparation answers target states ++ further)) ↔
      ¬ ReplayMisreports markers own counts refusal before answers n := by
  have readEarlier : ∀ exchange ∈ preparation answers target states ++ further,
      OnlyReads exchange.1 := by
    intro exchange member
    exact (List.mem_append.mp member).elim (onlyReads_preparation ready exchange) (reads exchange)
  exact replayTail_honest_iff readEarlier (factsIn_preparation ready further)
    (markerIn_preparation ready probed further) changes judges
    (claimsUnchanged_judgedOutcome (not_saysUnchanged_notStarted plain) postcondition before summary)

theorem pickTail_eq (operationId : String) (target : WriteTarget) (plan : GitPlan)
    (conclude : RunOutcome → Option WriteFacts → EffectOutcome) : (do
      let outcome ← orRefuse operationId (← tryRun target plan)
      judgePickStop operationId target outcome
      if isMergeRefusal outcome then
        refuse operationId .conflict (mergePickMessage (diagnosticOf outcome))
      else
        let after ← readBack target
        pure (conclude outcome after)) =
      replayTail operationId target plan (judgePickStop operationId target) mergeRefusal
        conclude := by
  unfold replayTail mergeRefusal
  apply congrArg (bind _)
  funext answer
  apply congrArg (bind _)
  funext outcome
  apply congrArg (bind _)
  funext _
  by_cases refuses : isMergeRefusal outcome = true
  · rw [if_pos refuses, if_pos refuses]
  · rw [if_neg refuses, if_neg refuses]

variable {oid : String}

theorem cherryPick_honest_iff (picks : request.request.operation = .cherryPick oid) :
    HonestFailure markers (run answers (cherryPick host request) 0) ↔
      ¬ CherryPickMisreports markers host request answers oid := by
  unfold cherryPick
  rw [picks]
  apply checked_honest_iff
  intro plan planned
  apply prepare_honest_iff
  intro target before ready
  have judges : JudgesStop answers target .cherryPick true
      (judgePickStop request.operationId target) :=
    judges_conflictsOr rfl (fun outcome => (saysUnchanged_aborted (diagnosticOf outcome)).1)
      (not_claimsUnchanged_unknown _ _) fun _ _ => not_claimsUnchanged_needsAttention _
  have tail : HonestFailure markers ((run answers (replayTail request.operationId target plan
      (judgePickStop request.operationId target) mergeRefusal
      (judgedOutcome "git cherry-pick" .headMustMove before (pickSummary · oid))) 4).prepend
      (preparation answers target [.merge, .revert, .cherryPick] ++ [])) ↔ _ :=
    preparedReplay_honest_iff mergeRefusal (by decide) .headMustMove _ ready (by decide)
      (List.forall_mem_nil _) 4 (readOnly_of_checked rfl planned) judges
  rw [List.append_nil, ← pickTail_eq] at tail
  exact tail

theorem revertCommit_honest_iff (reverts : request.request.operation = .revertCommit oid) :
    HonestFailure markers (run answers (revertCommit host request) 0) ↔
      ¬ RevertMisreports markers host request answers oid := by
  unfold revertCommit
  rw [reverts]
  apply checked_honest_iff
  intro plan planned
  apply prepare_honest_iff
  intro target before ready
  have judges : JudgesStop answers target .revert false
      (judgeRevertStop request.operationId target) :=
    judges_abort rfl (fun outcome => (saysUnchanged_aborted (diagnosticOf outcome)).2.1)
      (not_claimsUnchanged_unknown _ _)
  have tail : HonestFailure markers ((run answers (replayTail request.operationId target plan
      (judgeRevertStop request.operationId target) noRefusal
      (judgedOutcome "git revert" .headMustMove before (revertSummary · oid))) 3).prepend
      (preparation answers target [.merge, .revert] ++ [])) ↔ _ :=
    preparedReplay_honest_iff noRefusal (by decide) .headMustMove _ ready (by decide)
      (List.forall_mem_nil _) 3 (readOnly_of_checked rfl planned) judges
  rw [List.append_nil] at tail
  exact tail

theorem judges_rebaseStop (operationId : String) (target : WriteTarget) (noun : String) :
    JudgesStop answers target .rebase true fun outcome =>
      judgeRebaseStop operationId target outcome noun :=
  judges_conflictsOr rfl (fun outcome => (saysUnchanged_aborted (diagnosticOf outcome)).2.2 noun)
    (not_claimsUnchanged_unknown _ _) fun _ _ => not_claimsUnchanged_needsAttention _

theorem rebase_honest_iff {upstreamOid : String}
    (rebases : request.request.operation = .rebase upstreamOid) :
    HonestFailure markers (run answers (rebase host request) 0) ↔
      ¬ RebaseMisreports markers host request answers upstreamOid := by
  unfold rebase
  rw [rebases]
  apply checked_honest_iff
  intro plan planned
  apply prepare_honest_iff
  intro target before ready
  have tail : HonestFailure markers ((run answers (replayTail request.operationId target plan
      (fun outcome => judgeRebaseStop request.operationId target outcome "rebase") noRefusal
      (judgedOutcome "git rebase" .indexMayBeUnchanged before
        (rebaseSummary · before upstreamOid))) 5).prepend
      (preparation answers target everySequencer ++ [])) ↔ _ :=
    preparedReplay_honest_iff noRefusal (by decide) .indexMayBeUnchanged _ ready (by decide)
      (List.forall_mem_nil _) 5 (readOnly_of_checked rfl planned)
      (judges_rebaseStop request.operationId target "rebase")
  rw [List.append_nil] at tail
  exact tail

theorem onlyReads_dropProbes (target : WriteTarget) (oid : String) (n : Nat) :
    ∀ exchange ∈ dropProbes answers target oid n, OnlyReads exchange.1 := by
  intro exchange member
  rcases List.mem_cons.mp member with rfl | member
  · rfl
  · rcases List.mem_cons.mp member with rfl | member
    · rfl
    · rw [List.mem_singleton] at member
      subst member
      rfl

theorem dropCommit_honest_iff {confirmed : Bool}
    (drops : request.request.operation = .dropCommit oid confirmed) :
    HonestFailure markers (run answers (dropCommit host request) 0) ↔
      ¬ DropMisreports markers host request answers oid := by
  unfold dropCommit DropMisreports
  rw [drops]
  dsimp only
  cases valid : validatedSourceOid oid with
  | error error =>
    unfold planDropCommitAncestry
    rw [valid]
    exact iff_of_true (honest_leave _ 0) (by simp)
  | ok =>
    rw [planDropCommitAncestry_of_valid valid, orInvalid_ok, done_bind, eq_self, true_and]
    apply prepare_honest_iff
    intro target before ready
    have length : everySequencer.length + 1 = 5 := rfl
    rw [length]
    by_cases planned : ∃ plan, DropPlanned answers oid 5 plan
    · obtain ⟨plan, planned⟩ := planned
      have changes : plan.readOnly = false := by
        obtain ⟨_, -, rebased⟩ := planned.planned
        exact readOnly_of_planDropCommitRebase rebased
      have tail : HonestFailure markers ((run answers (replayTail request.operationId target plan
          (fun outcome => judgeRebaseStop request.operationId target outcome "drop's replay")
          noRefusal (judgedOutcome "git rebase --onto" .indexMayBeUnchanged before
            (dropSummary · oid))) 8).prepend
          (preparation answers target everySequencer ++ dropProbes answers target oid 5)) ↔ _ :=
        preparedReplay_honest_iff noRefusal (by decide) .indexMayBeUnchanged _ ready
          (by decide) (onlyReads_dropProbes target oid 5) 8 changes
          (judges_rebaseStop request.operationId target "drop's replay")
      rw [run_bind_of_ok answers (run_planDrop answers _ target valid planned),
        Transcript.prepend_prepend, and_iff_right ⟨plan, planned⟩]
      exact tail
    · refine iff_of_true ?_ fun ⟨known, _⟩ => planned known
      push Not at planned
      obtain ⟨exchanges, exit, left⟩ :=
        run_planDrop_stops answers request.operationId target valid planned
      have asked := (reads_planDrop request.operationId target valid).exchanges answers 5
      rw [left] at asked
      rw [run_bind_of_error answers left]
      apply honestFailure_of_reads
      intro exchange member
      exact (List.mem_append.mp member).elim (onlyReads_preparation ready exchange) (asked exchange)

end Replays

end Refyard
