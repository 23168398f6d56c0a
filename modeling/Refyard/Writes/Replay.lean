import Refyard.Writes.Verdict

/-! The effects that replay or move history. A stop is decided by re-reading the sequencer's
marker, not by the exit code. -/
namespace Refyard

inductive Sequencer where
  | merge
  | revert
  | cherryPick
  | rebase
  deriving DecidableEq

namespace Sequencer

def plan : Sequencer → GitPlan
  | .merge => planMergeInProgress
  | .revert => planRevertInProgress
  | .cherryPick => planCherryPickInProgress
  | .rebase => planRebaseInProgress

def label : Sequencer → String
  | .merge => "merge"
  | .revert => "revert"
  | .cherryPick => "cherry-pick"
  | .rebase => "rebase"

end Sequencer

def everySequencer : List Sequencer := [.merge, .revert, .cherryPick, .rebase]

/-- Refuses while any of the named sequencer states stands, or cannot be read. -/
def refuseStandingSequencers (operationId : String) (target : WriteTarget) :
    List Sequencer → Effect Unit
  | [] => pure ()
  | state :: states => do
      match ← probe target state.plan with
      | none =>
          refuse operationId .unavailable
            s!"whether a {state.label} is in progress could not be read, so the operation was not started"
      | some true =>
          refuse operationId .conflict
            s!"a {state.label} is already in progress in this worktree; continue or abort it first"
      | some false => refuseStandingSequencers operationId target states

def prepare (host : WriteHost) (request : EffectRequest) (states : List Sequencer) :
    Effect (WriteTarget × WriteFacts) := do
  let target ← orRefuse request.operationId (host.resolve request.request)
  let before ← orRefuse request.operationId (← readFacts target)
  refuseStandingSequencers request.operationId target states
  pure (target, before)

def prepareForReplay (host : WriteHost) (request : EffectRequest) :
    Effect (WriteTarget × WriteFacts) :=
  prepare host request everySequencer

/-- The shared tail: a command that was not started is a failure, everything else is judged
by the read-back. -/
def classifyOrNotStarted (command : String) (outcome : RunOutcome) (before : WriteFacts)
    (after : Option WriteFacts) (postcondition : Postcondition) : Verdict :=
  if outcome.state = .notStarted then .failed (refusalProblem command outcome)
  else classifyWrite command postcondition outcome before after

def stoppedWithConflicts (message diagnostic : String) (count : Nat) : EffectOutcome :=
  .needsAttention (((Problem.new .needsAttention message).withDetail "diagnostic"
    (.text diagnostic)).withDetail "conflictedPaths" (.integer count))

/-- Aborts a stop that nothing can finish, and refuses with the given words. Only an abort
that could not be run at all is reported as unknown. -/
def abortStop (operationId : String) (target : WriteTarget) (abort : GitPlan)
    (unconfirmed : EffectOutcome) (message : String) : Effect Unit := do
  match ← probe target abort with
  | none => .leave unconfirmed
  | some _ => refuse operationId .conflict message

/-- A finished complaint whose marker stands ends as given; anything else is passed over. -/
def whenStopped (target : WriteTarget) (own : Sequencer) (outcome : RunOutcome)
    (stop : Effect Unit) : Effect Unit :=
  if finishedNonZero outcome then do
    if (← probe target own.plan) = some true then stop else pure ()
  else pure ()

/-- Conflicts are left to a person. A stop without any is one that nothing can finish. -/
def conflictsOr (target : WriteTarget) (conflicts : Nat → EffectOutcome) (abort : Effect Unit) :
    Effect Unit := do
  let count := (← conflictedCount target).getD 0
  if 0 < count then .leave (conflicts count) else abort

def unconfirmedAbort (reason command message summary : String) : EffectOutcome :=
  effectOutcome (.unknown reason (unknownProblem command message)) summary none

section CherryPick

/-- The count clause of a conflicted message, singular when there is exactly one path. -/
def conflictedClause (count : Nat) : String :=
  if count = 1 then "1 conflicted path;" else s!"{count} conflicted paths;"

def emptyPickMessage (diagnostic : String) : String :=
  s!"the cherry-pick would be empty — this change is already present — and was aborted, so the branch is unchanged: {diagnostic}"

def pickConflicts (diagnostic : String) (count : Nat) : EffectOutcome :=
  stoppedWithConflicts
    s!"the cherry-pick stopped with conflicts: {conflictedClause count} resolve them, stage the resolution, and continue the cherry-pick or abort it"
    diagnostic count

def unconfirmedPickAbort : EffectOutcome :=
  unconfirmedAbort "the empty cherry-pick's abort did not report cleanly"
    "git cherry-pick --abort"
    "the empty pick could not be confirmed aborted; whether the sequencer state was cleared is not known, and nothing was retried"
    "cherry-pick"

/-- A pick left standing is a conflict, or one that would commit nothing. The index tells
which. -/
def judgePickStop (operationId : String) (target : WriteTarget) (outcome : RunOutcome) :
    Effect Unit :=
  whenStopped target .cherryPick outcome
    (conflictsOr target (pickConflicts (diagnosticOf outcome))
      (abortStop operationId target planCherryPickAbort unconfirmedPickAbort
        (emptyPickMessage (diagnosticOf outcome))))

def isMergeRefusal (outcome : RunOutcome) : Bool :=
  "is a merge but no -m option".toList <:+: (diagnosticOf outcome).toList

def mergePickMessage (diagnostic : String) : String :=
  s!"that commit is a merge, and picking which parent to keep is a decision this build does not make: {diagnostic}"

def pickSummary (verdict : Verdict) (oid : String) : String :=
  match verdict with
  | .succeeded (some head) => s!"cherry-picked {oid} as {head}"
  | .succeeded none => s!"cherry-picked {oid}"
  | _ => "cherry-pick"

def cherryPick (host : WriteHost) (request : EffectRequest) : Effect EffectOutcome :=
  let operationId := request.operationId
  match request.request.operation with
  | .cherryPick oid => do
      let plan ← orInvalid operationId (planCherryPick oid)
      let (target, before) ← prepare host request [.merge, .revert, .cherryPick]
      let outcome ← orRefuse operationId (← tryRun target plan)
      judgePickStop operationId target outcome
      if isMergeRefusal outcome then
        refuse operationId .conflict (mergePickMessage (diagnosticOf outcome))
      else
        let after ← readBack target
        let verdict := classifyOrNotStarted "git cherry-pick" outcome before after .headMustMove
        pure (effectOutcome verdict (pickSummary verdict oid) none)
  | _ => pure (wrongPayload operationId "cherryPick")

end CherryPick

section Revert

def revertAbortedMessage (diagnostic : String) : String :=
  s!"the revert stopped with a conflict and was aborted, so nothing was left behind; a human has to resolve this one: {diagnostic}"

def unconfirmedRevertAbort : EffectOutcome :=
  unconfirmedAbort "the conflicted revert's abort did not report cleanly" "git revert --abort"
    "the stopped revert could not be confirmed aborted; whether the repository was restored is not known, and nothing was retried"
    "revert"

def judgeRevertStop (operationId : String) (target : WriteTarget) (outcome : RunOutcome) :
    Effect Unit :=
  whenStopped target .revert outcome
    (abortStop operationId target planRevertAbort unconfirmedRevertAbort
      (revertAbortedMessage (diagnosticOf outcome)))

def revertSummary (verdict : Verdict) (oid : String) : String :=
  match verdict with
  | .succeeded (some head) => s!"reverted {oid} as {head}"
  | .succeeded none => s!"reverted {oid}"
  | _ => "revert"

def revertCommit (host : WriteHost) (request : EffectRequest) : Effect EffectOutcome :=
  let operationId := request.operationId
  match request.request.operation with
  | .revertCommit oid => do
      let plan ← orInvalid operationId (planRevertCommit oid)
      let (target, before) ← prepare host request [.merge, .revert]
      let outcome ← orRefuse operationId (← tryRun target plan)
      judgeRevertStop operationId target outcome
      let after ← readBack target
      let verdict := classifyOrNotStarted "git revert" outcome before after .headMustMove
      pure (effectOutcome verdict (revertSummary verdict oid) none)
  | _ => pure (wrongPayload operationId "revertCommit")

end Revert

section Rebase

def stopAbortedMessage (noun diagnostic : String) : String :=
  s!"the {noun} stopped for a reason this build does not model and was aborted, so the branch is unchanged: {diagnostic}"

def replayConflicts (noun diagnostic : String) (count : Nat) : EffectOutcome :=
  let plural := if count = 1 then "path" else "paths"
  stoppedWithConflicts
    s!"the {noun} stopped with conflicts: {count} conflicted {plural}; resolve them, stage the resolution, and continue the {noun} or abort it"
    diagnostic count

def unconfirmedRebaseAbort (noun : String) : EffectOutcome :=
  unconfirmedAbort s!"the stopped {noun}'s abort did not report cleanly" "git rebase --abort"
    "the stopped rebase could not be confirmed aborted; whether the branch was restored is not known, and nothing was retried"
    noun

def judgeRebaseStop (operationId : String) (target : WriteTarget) (outcome : RunOutcome)
    (noun : String) : Effect Unit :=
  whenStopped target .rebase outcome
    (conflictsOr target (replayConflicts noun (diagnosticOf outcome))
      (abortStop operationId target planRebaseAbort (unconfirmedRebaseAbort noun)
        (stopAbortedMessage noun (diagnosticOf outcome))))

def rebaseSummary (verdict : Verdict) (before : WriteFacts) (upstreamOid : String) : String :=
  match verdict with
  | .succeeded newHeadOid =>
      if newHeadOid = before.head.oid then "rebase: already up to date"
      else s!"rebased onto {upstreamOid}"
  | _ => "rebase"

def rebase (host : WriteHost) (request : EffectRequest) : Effect EffectOutcome :=
  let operationId := request.operationId
  match request.request.operation with
  | .rebase upstreamOid => do
      let plan ← orInvalid operationId (planRebase upstreamOid)
      let (target, before) ← prepareForReplay host request
      let outcome ← orRefuse operationId (← tryRun target plan)
      judgeRebaseStop operationId target outcome "rebase"
      let after ← readBack target
      let verdict := classifyOrNotStarted "git rebase" outcome before after .indexMayBeUnchanged
      pure (effectOutcome verdict (rebaseSummary verdict before upstreamOid) none)
  | _ => pure (wrongPayload operationId "rebase")

end Rebase

section Drop

/-- What a drop establishes about its commit: it is on the branch, it is no merge, and it has
a parent for its descendants to replay onto. -/
def planDrop (operationId : String) (target : WriteTarget) (oid : String) (ancestry : GitPlan) :
    Effect GitPlan := do
  if (← probe target ancestry) ≠ some true then
    refuse operationId .invalidRequest
      "that commit is not on the checked-out branch, so it cannot be dropped from it"
  else
    let secondParent ← orInvalid operationId (planDropCommitSecondParent oid)
    if (← probe target secondParent) = some true then
      refuse operationId .conflict
        "that commit is a merge; dropping it is not a decision this build makes"
    else
      let parentPlan ← orInvalid operationId (planDropCommitParent oid)
      match ← probeStdout target parentPlan with
      | none =>
          refuse operationId .invalidRequest
            "that commit has no parent — it is the branch's first commit, and dropping it would remove the branch's base"
      | some parentOid => orInvalid operationId (planDropCommitRebase oid parentOid)

def dropSummary (verdict : Verdict) (oid : String) : String :=
  match verdict with
  | .succeeded _ => s!"dropped {oid}"
  | _ => "drop commit"

/-- The payload's `confirmed` is not looked at. -/
def dropCommit (host : WriteHost) (request : EffectRequest) : Effect EffectOutcome :=
  let operationId := request.operationId
  match request.request.operation with
  | .dropCommit oid _ => do
      let ancestry ← orInvalid operationId (planDropCommitAncestry oid)
      let (target, before) ← prepareForReplay host request
      let plan ← planDrop operationId target oid ancestry
      let outcome ← orRefuse operationId (← tryRun target plan)
      judgeRebaseStop operationId target outcome "drop's replay"
      let after ← readBack target
      let verdict :=
        classifyOrNotStarted "git rebase --onto" outcome before after .indexMayBeUnchanged
      pure (effectOutcome verdict (dropSummary verdict oid) none)
  | _ => pure (wrongPayload operationId "dropCommit")

end Drop

section Squash

def squashSummary (verdict : Verdict) : String :=
  match verdict with
  | .succeeded (some head) => s!"squashed the top commit into its parent as {head}"
  | .succeeded none => "squashed the top commit into its parent"
  | .failed problem =>
      if problem.code = .gitCommandFailed then
        s!"the soft reset landed but the combined commit was refused: {problem.message}; the branch is at the parent with the combined change staged"
      else "squash commit"
  | _ => "squash commit"

/-- There must be a top commit, and it must change something over its parent. -/
def requireFoldable (operationId : String) (target : WriteTarget) (before : WriteFacts) :
    Effect Unit :=
  if before.head.oid.isNone then
    refuse operationId .conflict
      "this branch has no commits yet, so there is nothing to squash"
  else do
    if (← probe target planTopCommitDiff) = some true then
      refuse operationId .conflict
        "the top commit adds no changes over its parent, so there is nothing to squash"
    else pure ()

/-- From the soft reset on, the commit step is judged against the facts the reset produced. -/
def foldTop (operationId : String) (target : WriteTarget) (amend : GitPlan)
    (afterReset : WriteFacts) : Effect EffectOutcome := do
  let outcome ← orRefuse operationId (← tryRun target amend)
  if outcome.state = .notStarted then
    pure (effectOutcome (.failed (refusalProblem "git commit" outcome)) "squash commit" none)
  else
    let after ← readBack target
    let verdict := classifyWrite "git commit --amend" .headMustMove outcome afterReset after
    pure (effectOutcome verdict (squashSummary verdict) none)

def squashCommit (host : WriteHost) (request : EffectRequest) : Effect EffectOutcome :=
  let operationId := request.operationId
  match request.request.operation with
  | .squashCommit message => do
      let amend ← orInvalid operationId (planAmendCommit (message.map textBytes))
      let (target, before) ← prepareForReplay host request
      requireFoldable operationId target before
      let outcome ← orRefuse operationId (← tryRun target planSquashSoftReset)
      if outcome.state = .notStarted then
        pure (effectOutcome (.failed (refusalProblem "git reset" outcome)) "squash commit" none)
      else
        match ← readBack target with
        | none =>
            pure (effectOutcome
              (.unknown "the soft reset could not be confirmed by a re-read"
                (unknownProblem "git reset --soft"
                  "the branch moved but the repository could not be re-read; whether the squash completed is not known, and nothing was retried"))
              "squash commit" none)
        | some afterReset => foldTop operationId target amend afterReset
  | _ => pure (wrongPayload operationId "squashCommit")

end Squash

end Refyard
