import Refyard.Core.Worktrees
import Refyard.Writes.Verdict

/-! The effects behind an explicit confirmation, but for the one that replays commits. -/
namespace Refyard

section Refs

/-- The shared ref-write shape: the validated plan, and the read-back to judge it by. -/
def runRefWrite (host : WriteHost) (request : EffectRequest) (plan : Except CoreError GitPlan)
    (command summary : String) : Effect EffectOutcome := do
  let plan ← orInvalid request.operationId plan
  let target ← orRefuse request.operationId (host.resolve request.request)
  let before ← orRefuse request.operationId (← readFacts target)
  let outcome ← orRefuse request.operationId (← tryRun target plan)
  if outcome.state = .notStarted then
    pure (effectOutcome (.failed (refusalProblem command outcome)) summary none)
  else
    let after ← readBack target
    pure (effectOutcome (classifyWrite command .indexMayBeUnchanged outcome before after)
      summary none)

def deleteBranch (host : WriteHost) (request : EffectRequest) : Effect EffectOutcome :=
  match request.request.operation with
  | .deleteBranch branchName _ =>
      runRefWrite host request (planBranchDelete branchName) "git branch --delete"
        s!"deleted branch {branchName}"
  | _ => pure (wrongPayload request.operationId "deleteBranch")

def deleteTag (host : WriteHost) (request : EffectRequest) : Effect EffectOutcome :=
  match request.request.operation with
  | .deleteTag tagName _ =>
      runRefWrite host request (planTagDelete tagName) "git tag --delete"
        s!"deleted tag {tagName}"
  | _ => pure (wrongPayload request.operationId "deleteTag")

end Refs

section Commits

/-- How an amend is reported. A rewrite that reproduces the commit leaves HEAD unmoved. -/
def amendOutcome (operationId : String) (outcome : RunOutcome) (before : WriteFacts)
    (after : Option WriteFacts) : EffectOutcome :=
  let newHead := (after.bind fun facts => facts.head.oid).or before.head.oid
  if cleanExit outcome then
    let summary :=
      match newHead with
      | some oid => s!"amended the tip commit (history rewritten) as {oid}"
      | none => "amended the tip commit"
    effectOutcome (.succeeded newHead) summary none
  else if outcome.state = .completed && outcome.outputComplete && headMoved before after then
    let tip := newHead.getD ""
    .needsAttention ((Problem.new .needsAttention
      s!"the tip was rewritten ({tip}) but git exited with a complaint: {diagnosticOf outcome}").forOperation
        operationId)
  else refused operationId (refusalProblem "git commit --amend" outcome)

def amendCommit (host : WriteHost) (request : EffectRequest) : Effect EffectOutcome :=
  let operationId := request.operationId
  match request.request.operation with
  | .amendCommit message confirmed => do
      requireConfirmed operationId confirmed "amend the tip commit"
      let plan ← orInvalid operationId (planAmendCommit (message.map textBytes))
      let target ← orRefuse operationId (host.resolve request.request)
      let before ← orRefuse operationId (← readFacts target)
      if before.head.oid.isNone then
        refuse operationId .conflict
          "this branch has no commits yet, so there is nothing to amend"
      else
        let outcome ← orRefuse operationId (← tryRun target plan)
        let after ← readBack target
        pure (amendOutcome operationId outcome before after)
  | _ => pure (wrongPayload operationId "amendCommit")

end Commits

section Remotes

def removeRemote (host : WriteHost) (request : EffectRequest) : Effect EffectOutcome :=
  let operationId := request.operationId
  match request.request.operation with
  | .removeRemote remoteName confirmed => do
      requireConfirmed operationId confirmed "remove a remote"
      let plan ← orInvalid operationId (planRemoteRemove remoteName)
      let target ← orRefuse operationId (host.resolve request.request)
      let before ← orRefuse operationId (← readFacts target)
      let outcome ← orRefuse operationId (← tryRun target plan)
      if cleanExit outcome then
        pure (effectOutcome (.succeeded before.head.oid) s!"removed remote {remoteName}" none)
      else pure (refused operationId (refusalProblem "git remote remove" outcome))
  | _ => pure (wrongPayload operationId "removeRemote")

end Remotes

section Stashes

inductive LocatorCheck where
  | points
  | moved
  | unresolvable
  deriving DecidableEq

def firstLine (chars : List Char) : String :=
  String.ofList (trim (chars.takeWhile fun char => char ≠ '\n' && char ≠ '\r'))

def locatorOf (oid : String) (answer : GitAnswer) : LocatorCheck :=
  match answer with
  | .error _ => .unresolvable
  | .ok outcome =>
      if cleanExit outcome then
        if firstLine ((Utf8.decodeStrict outcome.stdout).getD []) = oid then .points else .moved
      else .unresolvable

/-- Re-resolves the locator and compares it to the object the request carried. -/
def checkStashLocator (target : WriteTarget) (stash : StashRef) : Effect LocatorCheck :=
  match planStashResolve stash.locator with
  | .error _ => pure .unresolvable
  | .ok plan => .askFor (target.command plan) (locatorOf stash.oid)

/-- The refusal a locator mismatch carries: a stale request, never a different entry. -/
def locatorProblem (operationId : String) (check : LocatorCheck) : Effect Unit :=
  match check with
  | .points => pure ()
  | .unresolvable =>
      refuse operationId .notFound "that stash entry no longer exists; reload the stash list"
  | .moved =>
      refuse operationId .conflict
        "the stash list moved since this request was prepared, and the locator now points at a different entry; reload and select the stash again"

def headNameOf (answer : GitAnswer) : Option String :=
  match answer with
  | .error _ => none
  | .ok outcome =>
      if cleanExit outcome then
        let trimmed := trim ((Utf8.decodeStrict outcome.stdout).getD [])
        if trimmed.isEmpty then none else some (String.ofList trimmed)
      else none

def probeHead (target : WriteTarget) : Effect (Option String) :=
  .askFor (target.command planHead) headNameOf

/-- A run that started and is not clean: a refusal if it finished, and unknown if not. -/
def startedFailure (operationId command : String) (outcome : RunOutcome) : EffectOutcome :=
  if outcome.state = .completed && outcome.outputComplete then
    refused operationId (refusalProblem command outcome)
  else
    .unknown s!"{command} did not finish cleanly"
      ((unknownProblem command
        "the command did not finish cleanly; whether it changed anything is not known, and nothing was retried").forOperation
          operationId)

def conflictedPop (operationId : String) (outcome : RunOutcome) (check : LocatorCheck) :
    EffectOutcome :=
  let diagnostic := diagnosticOf outcome
  let message :=
    if check = .points then
      s!"the pop left conflicts in the working tree and the stash is still there (nothing was dropped): {diagnostic}"
    else
      s!"the pop left conflicts and the stash could no longer be found afterwards — check the stash list before retrying: {diagnostic}"
  .needsAttention ((Problem.new .needsAttention message).forOperation operationId)

def judgePop (operationId : String) (target : WriteTarget) (stash : StashRef)
    (outcome : RunOutcome) : Effect EffectOutcome :=
  if cleanExit outcome then do
    let head ← probeHead target
    pure (.succeeded (resultOf s!"popped {stash.locator}; the entry was dropped" none head))
  else if outcome.state = .completed && outcome.outputComplete then do
    let conflicts := (← conflictedCount target).getD 0
    if 0 < conflicts then
      pure (conflictedPop operationId outcome (← checkStashLocator target stash))
    else pure (startedFailure operationId "git stash pop" outcome)
  else pure (startedFailure operationId "git stash pop" outcome)

def popStash (host : WriteHost) (request : EffectRequest) : Effect EffectOutcome :=
  let operationId := request.operationId
  match request.request.operation with
  | .popStash stash restoreIndex confirmed => do
      requireConfirmed operationId confirmed "pop a stash"
      let plan ← orInvalid operationId (planStashPop stash.locator restoreIndex)
      let target ← orRefuse operationId (host.resolve request.request)
      locatorProblem operationId (← checkStashLocator target stash)
      let outcome ← orRefuse operationId (← tryRun target plan)
      if outcome.state = .notStarted then
        pure (refused operationId (refusalProblem "git stash pop" outcome))
      else judgePop operationId target stash outcome
  | _ => pure (wrongPayload operationId "popStash")

def dropStash (host : WriteHost) (request : EffectRequest) : Effect EffectOutcome :=
  let operationId := request.operationId
  match request.request.operation with
  | .dropStash stash confirmed => do
      requireConfirmed operationId confirmed "drop a stash"
      let plan ← orInvalid operationId (planStashDrop stash.locator)
      let target ← orRefuse operationId (host.resolve request.request)
      locatorProblem operationId (← checkStashLocator target stash)
      let outcome ← orRefuse operationId (← tryRun target plan)
      if outcome.state = .notStarted then
        pure (refused operationId (refusalProblem "git stash drop" outcome))
      else if cleanExit outcome then
        let head ← probeHead target
        pure (.succeeded (resultOf s!"dropped {stash.locator}" none head))
      else pure (startedFailure operationId "git stash drop" outcome)
  | _ => pure (wrongPayload operationId "dropStash")

end Stashes

section Worktrees

/-- The live worktree a host-minted id names, from the answer to `planWorktreeList`. -/
def worktreeEntryOf (worktreeId : String) (answer : GitAnswer) : Except Problem WorktreeEntry := do
  let outcome ← answer
  if cleanExit outcome then
    match (parseWorktreeList outcome.stdout).find? fun entry =>
        worktreeIdForPath entry.path = worktreeId with
    | some entry => pure entry
    | none =>
        .error (.new .notFound
          s!"no worktree {worktreeId} in this repository; reload the worktrees and retry")
  else
    .error (.new .invalidRequest
      "could not list this repository's worktrees; nothing was changed")

def resolveWorktreeEntry (target : WriteTarget) (worktreeId : String) :
    Effect (Except Problem WorktreeEntry) :=
  .askFor (target.command planWorktreeList) (worktreeEntryOf worktreeId)

/-- What may not be removed, and the commit that what may be removed holds. -/
def requireRemovable (operationId : String) (entry : WorktreeEntry) : Effect String :=
  if entry.isPrimary then
    refuse operationId .invalidRequest "the main worktree cannot be removed"
  else if entry.locked then
    refuse operationId .conflict "that worktree is locked; unlock it before removing it"
  else
    match entry.headOid with
    | some headOid => pure headOid
    | none =>
        refuse operationId .needsAttention
          "could not read the worktree's commit to back it up; nothing was removed"

/-- A run that is not clean: a refusal if it finished or never began, and unknown if not. -/
def networkFailure (operationId command : String) (outcome : RunOutcome) : EffectOutcome :=
  if (outcome.state = .completed && outcome.outputComplete) || outcome.state = .notStarted then
    refused operationId (refusalProblem command outcome)
  else
    .unknown s!"{command} did not finish cleanly"
      ((unknownProblem command
        "the push did not finish cleanly; whether it reached the remote is not known, and nothing was retried").forOperation
          operationId)

def removeWorktree (host : WriteHost) (request : EffectRequest) : Effect EffectOutcome :=
  let operationId := request.operationId
  match request.request.operation with
  | .removeWorktree worktreeId confirmed => do
      requireConfirmed operationId confirmed "removing a worktree"
      let target ← orRefuse operationId (host.resolve request.request)
      let entry ← orRefuse operationId (← resolveWorktreeEntry target worktreeId)
      let headOid ← requireRemovable operationId entry
      let plan ← orInvalid operationId (planWorktreeRemove entry.path)
      let outcome ← orRefuse operationId (← tryRun target plan)
      if cleanExit outcome then
        let what :=
          match entry.branch with
          | some branch => s!"it held {headOid} on {branch}"
          | none => s!"it held {headOid}"
        pure (effectOutcome (.succeeded none) s!"removed the worktree ({what})" none)
      else pure (networkFailure operationId "git worktree remove" outcome)
  | _ => pure (wrongPayload operationId "removeWorktree")

end Worktrees

section Sequencers

def requireStanding (operationId : String) (target : WriteTarget) (plan : GitPlan)
    (noun : String) : Effect Unit := do
  match ← probe target plan with
  | none =>
      refuse operationId .unavailable
        s!"whether a {noun} is in progress could not be read, so the operation was not started"
  | some false =>
      refuse operationId .conflict
        s!"no {noun} is in progress in this worktree, so there is nothing to continue or abort"
  | some true => pure ()

def runPlan (host : WriteHost) (request : EffectRequest) (plan : GitPlan) (command : String)
    (postcondition : Postcondition) (summary : String) : Effect EffectOutcome := do
  let target ← orRefuse request.operationId (host.resolve request.request)
  let before ← orRefuse request.operationId (← readFacts target)
  let outcome ← orRefuse request.operationId (← tryRun target plan)
  if outcome.state = .notStarted then
    pure (effectOutcome (.failed (refusalProblem command outcome)) summary none)
  else
    let after ← readBack target
    pure (effectOutcome (classifyWrite command postcondition outcome before after) summary none)

/-- What the three aborts share: something must stand, and then Git puts it back. -/
def abortStanding (host : WriteHost) (request : EffectRequest) (standing abort : GitPlan)
    (noun command summary : String) : Effect EffectOutcome := do
  let target ← orRefuse request.operationId (host.resolve request.request)
  requireStanding request.operationId target standing noun
  runPlan host request abort command .indexMayBeUnchanged summary

def abortMerge (host : WriteHost) (request : EffectRequest) : Effect EffectOutcome :=
  match request.request.operation with
  | .abortMerge _ =>
      abortStanding host request planMergeInProgress planMergeAbort "merge" "git merge --abort"
        "aborted the merge; the branch is where it started"
  | _ => pure (wrongPayload request.operationId "abortMerge")

def abortCherryPick (host : WriteHost) (request : EffectRequest) : Effect EffectOutcome :=
  match request.request.operation with
  | .abortCherryPick _ =>
      abortStanding host request planCherryPickInProgress planCherryPickAbort "cherry-pick"
        "git cherry-pick --abort" "aborted the cherry-pick; the branch is where it started"
  | _ => pure (wrongPayload request.operationId "abortCherryPick")

def abortRebase (host : WriteHost) (request : EffectRequest) : Effect EffectOutcome :=
  match request.request.operation with
  | .abortRebase _ =>
      abortStanding host request planRebaseRecoveryProbe planRebaseAbort "rebase"
        "git rebase --abort" "aborted the rebase; the branch is where it started"
  | _ => pure (wrongPayload request.operationId "abortRebase")

end Sequencers

end Refyard
