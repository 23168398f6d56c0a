import Refyard.GitCore.Engine
import Refyard.GitCore.FetchTable
import Refyard.GitCore.RemoteUrl
import Refyard.Reads.RefFacts

/-! Remote and network workflows of the portable core. Each runs commands one by one and folds
how they ended into one outcome. -/
namespace Refyard.GitCore

section Plans

structure PlanContext where
  cwdHandle : String

variable (context : PlanContext)

def spec (argv : List String) (description : String) (deadlineClass : DeadlineClass) :
    GitCommandSpec where
  argv
  cwdHandle := context.cwdHandle
  deadlineClass
  description

def planRemotes : GitCommandSpec := spec context ["remote", "-v"] "remote -v" .read

def planRemoteAdd (name fetchUrl : String) : GitCommandSpec :=
  spec context ["remote", "add", name, fetchUrl] "remote add" .hook

def planRemoteSetUrl (name url : String) (push : Bool) : GitCommandSpec :=
  spec context (["remote", "set-url"] ++ (if push then ["--push"] else []) ++ [name, url])
    "remote set-url" .hook

def planRemoteRename (name newName : String) : GitCommandSpec :=
  spec context ["remote", "rename", name, newName] "remote rename" .hook

inductive Tags where
  | none | following
  deriving DecidableEq

structure FetchInput where
  remoteName : String
  prune : Bool
  tags : Tags

def planFetch (input : FetchInput) : GitCommandSpec :=
  spec context (["fetch", "--porcelain"] ++ (if input.prune then ["--prune"] else []) ++
    [if input.tags = .none then "--no-tags" else "--tags", input.remoteName])
    "fetch --porcelain" .network

structure PushInput where
  remoteName : String
  sourceRef : String
  destinationRef : String
  setUpstream : Bool

def planPush (input : PushInput) : GitCommandSpec :=
  spec context (["push", "--porcelain", "--no-follow-tags"] ++
    (if input.setUpstream then ["--set-upstream"] else []) ++
    [input.remoteName, input.sourceRef ++ ":" ++ input.destinationRef])
    "push --porcelain" .network

def planBranchUpstreamRef (branchName : String) : GitCommandSpec :=
  spec context ["rev-parse", "--abbrev-ref", "--symbolic-full-name",
    branchName ++ "@" ++ String.ofList ([Char.ofNat 0x7b] ++ "upstream".toList ++ [Char.ofNat 0x7d])]
    "rev-parse branch upstream" .read

def planFastForwardMerge (ref : String) : GitCommandSpec :=
  spec context ["merge", "--ff-only", "--no-edit", ref] "merge --ff-only" .hook

end Plans

section PushTable

inductive PushRefStatus where
  | upToDate | new | fastForward | forced | deleted | rejected

structure PushRefResult where
  source : List Nat
  destination : List Nat
  status : PushRefStatus
  summary : List Nat

structure PushParseResult where
  remote : Option (List Nat) := none
  refs : List PushRefResult := []
  everythingUpToDate : Bool := false
  diagnostics : List (List Nat) := []

def unitsOf (text : String) : List Nat := Utf16.encode text.toList

/-- The text in front of the first separator and the text behind it, which may be empty. -/
def splitOnceAt (value : List Nat) (separator : Char) : List Nat × List Nat :=
  (splitOnce separator.toNat value).getD (value, [])

def pushStatusFromFlag (flag : Nat) (summary : List Nat) : Option PushRefStatus :=
  if unitsOf "[rejected]" <+: summary then some .rejected
  else if flag = ' '.toNat then some .fastForward
  else if flag = '+'.toNat then some .forced
  else if flag = '-'.toNat then some .deleted
  else if flag = '*'.toNat then some .new
  else if flag = '='.toNat then some .upToDate
  else if flag = '!'.toNat then some .rejected
  else none

/-- A line that begins with a flag and a tab; one without a destination throws. -/
def pushRefOf (flag : Nat) (fields : List Nat) : Option PushRefResult :=
  let (refspec, summary) := splitOnceAt fields '\t'
  let (source, destination) := splitOnceAt refspec ':'
  if destination.length = 0 then none
  else
    (pushStatusFromFlag flag summary).map fun status => { source, destination, status, summary }

def readPushText (result : PushParseResult) (line : List Nat) : Option PushParseResult :=
  if line.length = 0 then some result
  else
    match stripPrefix (unitsOf "To ") line with
    | some remote => some { result with remote := some remote }
    | none =>
        if line = unitsOf "Done" then some result
        else if unitsOf "Everything up-to-date" <+: line then
          some { result with everythingUpToDate := true }
        else
          match line with
          | flag :: 0x09 :: field :: fields =>
              (pushRefOf flag (field :: fields)).map fun found =>
                { result with refs := result.refs ++ [found] }
          | _ => some { result with diagnostics := result.diagnostics ++ [line] }

def readPushLine (result : PushParseResult) (lineBytes : Bytes) : Option PushParseResult :=
  (decode lineBytes).bind (readPushText result)

def parsePushPorcelain (bytes : Bytes) : Option PushParseResult :=
  (splitLines bytes).foldlM readPushLine {}

end PushTable

section Workflows

inductive CommandOutcome where
  | done
  | refused (failure : GitFailure)

inductive NetworkOutcome (α : Type) where
  | done (result : α)
  | partly (result : α) (failure : GitFailure)
  | refused (failure : GitFailure)
  | uncertain (reason : String)

def quietOutcome (result : GitRunResult) : CommandOutcome :=
  if result.completed then .done else .refused (failureOf result)

def runQuiet (spec : GitCommandSpec) : Workflow CommandOutcome := .askFor spec quietOutcome

inductive Direction where
  | fetch | push

def Direction.text : Direction → String
  | .fetch => "fetch"
  | .push => "push"

def contactedUrl (records : List RemoteUrlRecord) (name : String) (direction : Direction) :
    Option String :=
  let matching := records.filter fun record => record.name = name
  let fetchUrl := (matching.find? fun record => record.kind = .fetch).map RemoteUrlRecord.url
  let pushUrl := (matching.find? fun record => record.kind = .push).map RemoteUrlRecord.url
  match direction with
  | .push => pushUrl.or fetchUrl
  | .fetch => fetchUrl

/-- Why the configured remote must not be contacted. The listing is read as the host reads it. -/
def remoteRefusal (name : String) (direction : Direction) (result : GitRunResult) :
    Option GitFailure :=
  if !result.completed then some (failureOf result)
  else
    match Refyard.parseRemoteList result.stdout with
    | .error _ =>
        some ⟨.gitOutputUnparsable, result.exitCode,
          "the configured remote list could not be parsed safely"⟩
    | .ok records =>
        match contactedUrl records name direction with
        | none =>
            some ⟨.gitCommandFailed, none, s!"remote {name} has no configured {direction.text} URL"⟩
        | some url =>
            (unsafeRemoteUrlReason url).map fun reason =>
              ⟨.gitCommandFailed, none, s!"remote {name} has an unsafe configured URL: {reason}"⟩

def checkConfiguredRemote (context : PlanContext) (name : String) (direction : Direction) :
    Workflow (Option GitFailure) :=
  .askFor (planRemotes context) (remoteRefusal name direction)

structure AddRemoteInput where
  name : String
  fetchUrl : String
  pushUrl : Option String

def addRemote (context : PlanContext) (input : AddRemoteInput) : Workflow CommandOutcome := do
  let added ← runQuiet (planRemoteAdd context input.name input.fetchUrl)
  match added, input.pushUrl with
  | .refused failure, _ => pure (.refused failure)
  | .done, none => pure .done
  | .done, some url => runQuiet (planRemoteSetUrl context input.name url true)

structure UpdateRemoteInput where
  name : String
  newName : Option String
  fetchUrl : Option String
  pushUrl : Option String

def runAsked (plan : String → GitCommandSpec) : Option String → Workflow CommandOutcome
  | none => pure .done
  | some value => runQuiet (plan value)

def updateRemote (context : PlanContext) (input : UpdateRemoteInput) :
    Workflow CommandOutcome := do
  let renamed ← runAsked (planRemoteRename context input.name) input.newName
  let currentName := input.newName.getD input.name
  match renamed with
  | .refused failure => pure (.refused failure)
  | .done => do
      let set ← runAsked (planRemoteSetUrl context currentName · false) input.fetchUrl
      match set with
      | .refused failure => pure (.refused failure)
      | .done => runAsked (planRemoteSetUrl context currentName · true) input.pushUrl

/-- A fetch that printed what cannot be read did an unknown part of its work. -/
def fetchOutcome (result : GitRunResult) : NetworkOutcome FetchParseResult :=
  match parseFetchPorcelain result.stdout with
  | none => .uncertain "git fetch produced output this build could not parse"
  | some parsed => if result.completed then .done parsed else .refused (failureOf result)

def fetchRemote (context : PlanContext) (input : FetchInput) :
    Workflow (NetworkOutcome FetchParseResult) := do
  let safety ← checkConfiguredRemote context input.remoteName .fetch
  match safety with
  | some failure => pure (.refused failure)
  | none => .askFor (planFetch context input) fetchOutcome

def pushOutcome (result : GitRunResult) : NetworkOutcome PushParseResult :=
  match parsePushPorcelain result.stdout with
  | none => .uncertain "git push produced output this build could not parse"
  | some parsed =>
      if result.completed then .done parsed
      else if 0 < parsed.refs.length then .partly parsed (failureOf result)
      else .refused (failureOf result)

def pushRef (context : PlanContext) (input : PushInput) :
    Workflow (NetworkOutcome PushParseResult) := do
  let safety ← checkConfiguredRemote context input.remoteName .push
  match safety with
  | some failure => pure (.refused failure)
  | none => .askFor (planPush context input) pushOutcome

structure PullResult where
  fetchRefs : List FetchRefResult
  branchMoved : Bool

structure PullInput where
  remoteName : String
  branchName : String

def decodeAnswer (bytes : Bytes) : String :=
  String.ofList ((bytes.takeWhile fun byte => byte != 0x0a && byte != 0x0d).map byteChar)

def upstreamOf (input : PullInput) (result : GitRunResult) : Except GitFailure String :=
  if !result.completed then
    let failure := failureOf result
    .error
      { failure with
        diagnostic :=
          if (trim failure.diagnostic.toList).isEmpty then
            s!"the branch {input.branchName} has no upstream to pull from"
          else failure.diagnostic }
  else
    let upstreamRef := decodeAnswer result.stdout
    let upstreamRemote := String.ofList ((upstreamRef.toList.splitOn '/').headD [])
    if upstreamRemote = input.remoteName then .ok upstreamRef
    else
      .error ⟨.gitCommandFailed, none,
        s!"the branch {input.branchName} tracks {upstreamRef}, which is on {upstreamRemote}; the pull named {input.remoteName}"⟩

def mergeOutcome (fetchRefs : List FetchRefResult) (result : GitRunResult) :
    NetworkOutcome PullResult :=
  if result.completed then .done ⟨fetchRefs, true⟩
  else .partly ⟨fetchRefs, false⟩ (failureOf result)

/-- The branch half of a pull runs behind a fetch that is done. A fetch is never done in part. -/
def mergeBehind (context : PlanContext) (upstreamRef : String) :
    NetworkOutcome FetchParseResult → Workflow (NetworkOutcome PullResult)
  | .uncertain reason => pure (.uncertain reason)
  | .refused failure => pure (.refused failure)
  | .done parsed | .partly parsed _ =>
      .askFor (planFastForwardMerge context upstreamRef) (mergeOutcome parsed.refs)

def pullFastForward (context : PlanContext) (input : PullInput) :
    Workflow (NetworkOutcome PullResult) := do
  let upstream ← .askFor (planBranchUpstreamRef context input.branchName) (upstreamOf input)
  match upstream with
  | .error failure => pure (.refused failure)
  | .ok upstreamRef => do
      let fetched ← fetchRemote context ⟨input.remoteName, false, .none⟩
      mergeBehind context upstreamRef fetched

end Workflows

end Refyard.GitCore
