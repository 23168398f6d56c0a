import Refyard.Writes.Destructive

/-! The writes to branches, tags and the stash that ask for no confirmation. -/
namespace Refyard

section Branches

def createdBranch (branchName : String) (switchToIt : Bool) : Verdict → String
  | .succeeded _ =>
      if switchToIt then s!"created and checked out branch {branchName}"
      else s!"created branch {branchName}"
  | _ => "create branch"

def createBranch (host : WriteHost) (request : EffectRequest) : Effect EffectOutcome :=
  let operationId := request.operationId
  match request.request.operation with
  | .createBranch branchName startOid switchToIt => do
      let plan ← orInvalid operationId
        (if switchToIt then planBranchCreateAndSwitch branchName startOid
          else planBranchCreate branchName startOid)
      let target ← orRefuse operationId (host.resolve request.request)
      let before ← orRefuse operationId (← readFacts target)
      let outcome ← orRefuse operationId (← tryRun target plan)
      if outcome.state = .notStarted then
        pure (effectOutcome (.failed (refusalProblem "git branch" outcome)) "create branch" none)
      else
        let after ← readBack target
        let verdict := classifyWrite "git branch" .indexMayBeUnchanged outcome before after
        pure (effectOutcome verdict (createdBranch branchName switchToIt verdict) none)
  | _ => pure (wrongPayload operationId "createBranch")

def renameBranch (host : WriteHost) (request : EffectRequest) : Effect EffectOutcome :=
  match request.request.operation with
  | .renameBranch branchName newName =>
      runRefWrite host request (planBranchRename branchName newName) "git branch --move"
        s!"renamed branch {branchName} to {newName}"
  | _ => pure (wrongPayload request.operationId "renameBranch")

def setBranchUpstream (host : WriteHost) (request : EffectRequest) : Effect EffectOutcome :=
  match request.request.operation with
  | .setBranchUpstream branchName upstream =>
      let summary :=
        match upstream with
        | some upstream =>
            s!"set the upstream of {branchName} to {upstream.remoteName}/{upstream.branchName}"
        | none => s!"cleared the upstream of {branchName}"
      runRefWrite host request
        (planBranchSetUpstream branchName
          (upstream.map fun upstream => (upstream.remoteName, upstream.branchName)))
        "git branch" summary
  | _ => pure (wrongPayload request.operationId "setBranchUpstream")

end Branches

section Tags

def planTagCreate (tagName : String) (targetOid : Option String)
    (annotated : Option TagAnnotation) : Except CoreError GitPlan :=
  match annotated with
  | some annotated => planTagCreateAnnotated tagName targetOid (textBytes annotated.message)
  | none => planTagCreateLightweight tagName targetOid

def createdTag (tagName : String) (annotated : Option TagAnnotation) : Verdict → String
  | .succeeded _ =>
      if annotated.isSome then s!"created tag {tagName} (annotated)" else s!"created tag {tagName}"
  | _ => "create tag"

def createTag (host : WriteHost) (request : EffectRequest) : Effect EffectOutcome :=
  let operationId := request.operationId
  match request.request.operation with
  | .createTag tagName targetOid annotated => do
      let plan ← orInvalid operationId (planTagCreate tagName targetOid annotated)
      let target ← orRefuse operationId (host.resolve request.request)
      let before ← orRefuse operationId (← readFacts target)
      let outcome ← orRefuse operationId (← tryRun target plan)
      if outcome.state = .notStarted then
        pure (effectOutcome (.failed (refusalProblem "git tag" outcome)) "create tag" none)
      else
        let after ← readBack target
        let verdict := classifyWrite "git tag" .indexMayBeUnchanged outcome before after
        pure (effectOutcome verdict (createdTag tagName annotated verdict) none)
  | _ => pure (wrongPayload operationId "createTag")

end Tags

section Stashes

/-- The label a created stash is reported with: the first line of its message. -/
def stashLabel (message : Option String) : String :=
  match message with
  | none => ""
  | some message =>
      let first := String.ofList (message.toList.takeWhile fun char => char ≠ '\n')
      s!" ({first})"

def createStash (host : WriteHost) (request : EffectRequest) : Effect EffectOutcome :=
  let operationId := request.operationId
  match request.request.operation with
  | .createStash message includeUntracked keepIndex => do
      let plan ← orInvalid operationId (planStashPush message includeUntracked keepIndex)
      let target ← orRefuse operationId (host.resolve request.request)
      let outcome ← orRefuse operationId (← tryRun target plan)
      if outcome.state = .notStarted then
        pure (refused operationId (refusalProblem "git stash push" outcome))
      else if cleanExit outcome then
        let head ← probeHead target
        pure (.succeeded (resultOf s!"created a stash{stashLabel message}" none head))
      else pure (startedFailure operationId "git stash push" outcome)
  | _ => pure (wrongPayload operationId "createStash")

def conflictedApply (operationId : String) (outcome : RunOutcome) (conflicts : Nat) :
    EffectOutcome :=
  let plural := if conflicts = 1 then "path" else "paths"
  .needsAttention ((Problem.new .needsAttention
    s!"the apply left conflicts in the working tree and the stash is kept (nothing was dropped): {conflicts} conflicted {plural}: {diagnosticOf outcome}").forOperation
      operationId)

def judgeApply (operationId : String) (target : WriteTarget) (stash : StashRef)
    (outcome : RunOutcome) : Effect EffectOutcome :=
  if cleanExit outcome then do
    let head ← probeHead target
    pure (.succeeded (resultOf s!"applied {stash.locator}; the stash is kept" none head))
  else if outcome.state = .completed && outcome.outputComplete then do
    let conflicts := (← conflictedCount target).getD 0
    if 0 < conflicts then pure (conflictedApply operationId outcome conflicts)
    else pure (startedFailure operationId "git stash apply" outcome)
  else pure (startedFailure operationId "git stash apply" outcome)

def applyStash (host : WriteHost) (request : EffectRequest) : Effect EffectOutcome :=
  let operationId := request.operationId
  match request.request.operation with
  | .applyStash stash restoreIndex => do
      let plan ← orInvalid operationId (planStashApply stash.locator restoreIndex)
      let target ← orRefuse operationId (host.resolve request.request)
      locatorProblem operationId (← checkStashLocator target stash)
      let outcome ← orRefuse operationId (← tryRun target plan)
      if outcome.state = .notStarted then
        pure (refused operationId (refusalProblem "git stash apply" outcome))
      else judgeApply operationId target stash outcome
  | _ => pure (wrongPayload operationId "applyStash")

end Stashes

end Refyard
