import Refyard.Core.Remotes
import Refyard.Writes.Destructive

/-! The writes to a remote's configuration, and the pull that contacts one. -/
namespace Refyard

def succeeded (summary : String) (head : Option String) : EffectOutcome :=
  effectOutcome (.succeeded head) summary none

section Configuration

/-- What is left behind when a change of an update comes to nothing after another was made. -/
def partialUpdate (operationId command : String) (outcome : RunOutcome) : EffectOutcome :=
  let diagnostic := diagnosticOf outcome
  let what :=
    if (trim diagnostic.toList).isEmpty then s!"{command} exited without a diagnostic"
    else diagnostic
  .needsAttention ((Problem.new .needsAttention
    s!"the remote update did not complete: {what}; the remote may have been renamed before the change failed — re-read the remotes").forOperation
      operationId)

/-- What is left behind when a remote was added and its push URL was not set. -/
def pushUrlUnset (operationId remoteName : String) (outcome : RunOutcome) : EffectOutcome :=
  .needsAttention ((Problem.new .needsAttention
    s!"the remote {remoteName} was added with its fetch URL, but its push URL could not be set; re-read the remotes: {diagnosticOf outcome}").forOperation
      operationId)

def addRemote (host : WriteHost) (request : EffectRequest) : Effect EffectOutcome :=
  let operationId := request.operationId
  match request.request.operation with
  | .addRemote remoteName fetchUrl pushUrl => do
      let add ← orInvalid operationId (planRemoteAdd remoteName fetchUrl)
      let target ← orRefuse operationId (host.resolve request.request)
      let before ← orRefuse operationId (← readFacts target)
      let outcome ← orRefuse operationId (← tryRun target add)
      if cleanExit outcome then
        match pushUrl with
        | none => pure (succeeded s!"added remote {remoteName}" before.head.oid)
        | some pushUrl => do
            let setPush ← orInvalid operationId (planRemoteSetUrl remoteName pushUrl true)
            let outcome ← orRefuse operationId (← tryRun target setPush)
            if cleanExit outcome then
              pure (succeeded s!"added remote {remoteName} with a separate push URL"
                before.head.oid)
            else .leave (pushUrlUnset operationId remoteName outcome)
      else .leave (refused operationId (refusalProblem "git remote add" outcome))
  | _ => pure (wrongPayload operationId "addRemote")

/-- The rename of an update: the name the URLs are set under, and whether anything changed. -/
def renameRemote (operationId : String) (target : WriteTarget) (remoteName : String)
    (newName : Option String) : Effect (String × Bool) :=
  match newName with
  | none => pure (remoteName, false)
  | some newName => do
      let plan ← orInvalid operationId (planRemoteRename remoteName newName)
      let outcome ← orRefuse operationId (← tryRun target plan)
      if cleanExit outcome then pure (newName, true)
      else .leave (refused operationId (refusalProblem "git remote rename" outcome))

structure UrlChange where
  url : Option String
  push : Bool
  command : String

def setUrls (operationId : String) (target : WriteTarget) (currentName : String) :
    List UrlChange → Bool → Effect Unit
  | [], _ => pure ()
  | change :: rest, anyChanged =>
      match change.url with
      | none => setUrls operationId target currentName rest anyChanged
      | some url => do
          let plan ← orInvalid operationId (planRemoteSetUrl currentName url change.push)
          let outcome ← orRefuse operationId (← tryRun target plan)
          if cleanExit outcome then setUrls operationId target currentName rest true
          else if anyChanged then .leave (partialUpdate operationId change.command outcome)
          else .leave (refused operationId (refusalProblem change.command outcome))

def updateRemote (host : WriteHost) (request : EffectRequest) : Effect EffectOutcome :=
  let operationId := request.operationId
  match request.request.operation with
  | .updateRemote remoteName newName fetchUrl pushUrl =>
      if newName.isNone && fetchUrl.isNone && pushUrl.isNone then
        pure (invalidPayload operationId
          "a remote update must rename the remote or change a URL")
      else do
        let target ← orRefuse operationId (host.resolve request.request)
        let before ← orRefuse operationId (← readFacts target)
        let (currentName, anyChanged) ← renameRemote operationId target remoteName newName
        setUrls operationId target currentName
          [⟨fetchUrl, false, "git remote set-url"⟩, ⟨pushUrl, true, "git remote set-url --push"⟩]
          anyChanged
        pure (succeeded s!"updated remote {remoteName}" before.head.oid)
  | _ => pure (wrongPayload operationId "updateRemote")

end Configuration

section Network

def configuredUrlOf (name : String) (answer : GitAnswer) : Except Problem String := do
  let outcome ← answer
  if cleanExit outcome then
    let url := firstLine ((Utf8.decodeStrict outcome.stdout).getD [])
    match validatedRemoteUrl url with
    | .ok () => pure url
    | .error error =>
        .error (.new .invalidRequest
          s!"remote {name} has an unsafe configured URL, so it was not contacted: {error.text}")
  else .error (.new .notFound s!"remote {name} is not configured in this repository")

def checkConfiguredRemote (target : WriteTarget) (name : String) (push : Bool) :
    Effect (Except Problem String) :=
  match planRemoteGetUrl name push with
  | .error error => pure (.error (.new .invalidRequest error.text))
  | .ok plan => .askFor (target.command plan) (configuredUrlOf name)

def succeededWithRefs (summary : String) (changedRefs : List String) (head : Option String) :
    EffectOutcome :=
  .succeeded
    { summary, changedRefs, changedPaths := none, snapshotInvalidated := true, newHeadOid := head }

def movedRefs (outcome : RunOutcome) : List String :=
  ((parseFetchPorcelain outcome.stdout).filter FetchRefResult.moved).map FetchRefResult.localRef

/-- The one line that `rev-parse` answers with. -/
def firstOutputLine (stdout : Bytes) : String :=
  String.ofList (trim ((Utf8.decode stdout).takeWhile fun char => char ≠ '\n'))

/-- What the branch tracks, as Git says, if that is on the remote the pull named. -/
def upstreamRefOf (branchName remoteName : String) (outcome : RunOutcome) :
    Except Problem String :=
  if cleanExit outcome then
    let upstreamRef := firstOutputLine outcome.stdout
    let upstreamRemote := String.ofList (upstreamRef.toList.takeWhile fun char => char ≠ '/')
    if upstreamRemote = remoteName then .ok upstreamRef
    else
      .error (.new .conflict
        s!"the branch {branchName} tracks {upstreamRef}, which is on {upstreamRemote}; the pull named {remoteName}")
  else .error (.new .conflict s!"the branch {branchName} has no upstream to pull from")

/-- What a pull reports whose fetch half moved tracking refs and whose branch half did not. -/
def notFastForwarded (operationId branchName : String) (moved : Nat) (outcome : RunOutcome) :
    EffectOutcome :=
  .needsAttention ((Problem.new .needsAttention
    s!"the fetch updated {moved} remote-tracking ref(s), but the branch {branchName} was not fast-forwarded (diverged or dirty); nothing was merged or rebased: {diagnosticOf outcome}").forOperation
      operationId)

def pullHalves (operationId : String) (target : WriteTarget)
    (remoteName branchName upstreamRef : String) : Effect EffectOutcome := do
  let fetchPlan ← orInvalid operationId (planFetch remoteName false false)
  let fetched ← orRefuse operationId (← tryRun target fetchPlan)
  if cleanExit fetched then
    let moved := movedRefs fetched
    let ffPlan ← orInvalid operationId (planFastForwardMerge upstreamRef)
    let forwarded ← orRefuse operationId (← tryRun target ffPlan)
    if cleanExit forwarded then
      let after ← readBack target
      let summary :=
        if moved.isEmpty then s!"pulled {remoteName}: already up to date"
        else
          s!"pulled {remoteName}: {moved.length} tracking ref(s) updated and the branch fast-forwarded"
      pure (succeededWithRefs summary moved (after.bind fun facts => facts.head.oid))
    else .leave (notFastForwarded operationId branchName moved.length forwarded)
  else .leave (networkFailure operationId "git fetch" fetched)

def requireBranch (operationId : String) (before : WriteFacts) : Effect String :=
  match before.head.branchName, before.head.detached with
  | some branchName, false => pure branchName
  | _, _ =>
      refuse operationId .conflict
        "there is no branch to pull into; HEAD is detached or unborn — switch to a branch first"

def pull (host : WriteHost) (request : EffectRequest) : Effect EffectOutcome :=
  let operationId := request.operationId
  match request.request.operation with
  | .pull remoteName .ffOnly => do
      let target ← orRefuse operationId (host.resolve request.request)
      let before ← orRefuse operationId (← readFacts target)
      let branchName ← requireBranch operationId before
      let _ ← orRefuse operationId (← checkConfiguredRemote target remoteName false)
      let upstreamPlan ← orInvalid operationId (planBranchUpstreamRef branchName)
      let tracked ← orRefuse operationId (← tryRun target upstreamPlan)
      let upstreamRef ← orRefuse operationId (upstreamRefOf branchName remoteName tracked)
      pullHalves operationId target remoteName branchName upstreamRef
  | _ => pure (wrongPayload operationId "pull")

end Network

end Refyard
