import Refyard.Contract.Problem
import Refyard.Core.Plan
import Refyard.Core.Status
import Mathlib.Data.List.Dedup
import Mathlib.Data.List.DropRight

/-! What happened to a command, and what its output says about the repository. -/
namespace Refyard

/-- The fate of one process. Only `unknown` leaves open whether it changed anything. -/
inductive ExecutionState where
  | notStarted
  | completed
  | interrupted
  | unknown
  deriving DecidableEq

inductive TerminationReason where
  | timeout
  | cancelled
  | signalled (signal : Int)
  deriving DecidableEq

/-- A command can exit 0 with its output cut: completeness is a fact of its own. -/
structure RunOutcome where
  state : ExecutionState
  exitCode : Option Int
  stdout : Bytes
  stderr : Bytes
  outputComplete : Bool
  termination : Option TerminationReason

/-- What the executor says of one command: a problem of its own, or an outcome. -/
abbrev GitAnswer := Except Problem RunOutcome

def cleanExit (outcome : RunOutcome) : Bool :=
  outcome.state == .completed && outcome.outputComplete && outcome.exitCode == some 0

def finishedNonZero (outcome : RunOutcome) : Bool :=
  outcome.state == .completed && outcome.outputComplete && outcome.exitCode != some 0

def trimEnd (chars : List Char) : List Char := chars.rdropWhile isWhitespace

def trim (chars : List Char) : List Char := trimEnd (chars.dropWhile isWhitespace)

/-- `diagnostic_of`, and `bounded_diagnostic` of the reads: Git's text, bounded. -/
def diagnosticOf (outcome : RunOutcome) : String :=
  String.ofList ((trimEnd (Utf8.decode outcome.stderr)).take 500)

inductive GitFailureKind where
  | commandFailed
  | notStarted
  | timedOut
  | cancelled
  | outputLimit
  | signalled

structure GitFailure where
  command : String
  kind : GitFailureKind
  exitCode : Option Int
  diagnostic : String

def exitText (exitCode : Option Int) : String :=
  match exitCode with
  | some code => toString code
  | none => "?"

def GitFailureKind.code : GitFailureKind → ProblemCode
  | .commandFailed | .signalled => .gitCommandFailed
  | .notStarted => .unavailable
  | .timedOut => .timeout
  | .cancelled => .cancelled
  | .outputLimit => .limitExceeded

def GitFailure.message (failure : GitFailure) : String :=
  match failure.kind with
  | .commandFailed => s!"{failure.command} exited with status {exitText failure.exitCode}"
  | .notStarted => s!"{failure.command} could not be started"
  | .timedOut => s!"{failure.command} did not finish within its deadline"
  | .cancelled => s!"{failure.command} was cancelled before it finished"
  | .outputLimit => s!"{failure.command} produced more output than the host will hold"
  | .signalled => s!"{failure.command} was terminated by a signal"

def GitFailure.problem (failure : GitFailure) : Problem :=
  let named := (Problem.new failure.kind.code failure.message).withDetail "command"
    (.text failure.command)
  let exited :=
    match failure.exitCode with
    | some code => named.withDetail "exitCode" (.integer code)
    | none => named
  let explained :=
    if failure.diagnostic.isEmpty then exited
    else
      exited.withDetail "diagnostic"
        (.text (String.ofList (failure.diagnostic.toList.take 500)))
  if failure.kind.code = .timeout then explained.asRetryable else explained

def requiredOutput (outcome : RunOutcome) (command : String) : Except GitFailure Bytes :=
  let failure (kind : GitFailureKind) : Except GitFailure Bytes :=
    .error { command, kind, exitCode := outcome.exitCode, diagnostic := diagnosticOf outcome }
  match outcome.state with
  | .notStarted => failure .notStarted
  | .interrupted =>
      match outcome.termination with
      | some .timeout => failure .timedOut
      | some .cancelled => failure .cancelled
      | _ => failure .commandFailed
  | .unknown =>
      match outcome.termination with
      | some (.signalled _) => failure .signalled
      | _ => failure .commandFailed
  | .completed =>
      if !outcome.outputComplete then failure .outputLimit
      else if outcome.exitCode = some 0 then .ok outcome.stdout
      else failure .commandFailed

def parseProblem (command : String) (error : CoreError) : Problem :=
  (Problem.new .internalError s!"{command}: {error.text}").withDetail "command" (.text command)

inductive HeadKind where
  | born
  | unborn
  deriving DecidableEq

structure HeadState where
  kind : HeadKind
  branchName : Option String
  oid : Option String
  detached : Bool
  deriving DecidableEq

def headState (parsed : StatusParseResult) : HeadState :=
  if parsed.branch.initial then
    { kind := .unborn, branchName := parsed.branch.head, oid := none, detached := false }
  else if parsed.branch.detached then
    { kind := .born, branchName := none, oid := parsed.branch.oid, detached := true }
  else
    { kind := .born, branchName := parsed.branch.head, oid := parsed.branch.oid,
      detached := false }

structure IndexFingerprintEntry where
  pathKey : String
  originalPathKey : Option String
  mode : String
  oid : String
  stage : Nat

def hexText (bytes : Bytes) : String := String.join (bytes.map hexByte)

def fingerprintEntry (record : StatusRecord) : IndexFingerprintEntry where
  pathKey := hexText record.path
  originalPathKey := record.originalPath.map hexText
  mode := (record.modeIndex.or record.modeWorktree).getD "-"
  oid := record.oidIndex.getD "-"
  stage := record.stages.length

def fingerprintRow (entry : IndexFingerprintEntry) : String :=
  let nul := String.singleton (Char.ofNat 0)
  entry.pathKey ++ ":" ++ entry.originalPathKey.getD "" ++ nul ++ entry.mode ++ nul ++
    entry.oid ++ nul ++ toString entry.stage

/-- The rows are sorted, so that the order Git listed the entries in does not count. -/
def indexFingerprint (headOid : Option String) (entries : List IndexFingerprintEntry) : String :=
  headOid.getD "(unborn)" ++ "\n" ++
    "\n".intercalate ((entries.map fingerprintRow).mergeSort fun first second => first ≤ second)

structure WriteFacts where
  head : HeadState
  indexKey : String
  records : List StatusRecord

def statusCommand : String := "status --porcelain=v2 --branch -z"

def WriteFacts.of (parsed : StatusParseResult) : WriteFacts where
  head := headState parsed
  indexKey := indexFingerprint (headState parsed).oid (parsed.records.map fingerprintEntry)
  records := parsed.records

/-- What the answer to `planStatus` says, or why it says nothing. -/
def factsOf (answer : GitAnswer) : Except Problem WriteFacts := do
  let outcome ← answer
  let stdout ← (requiredOutput outcome statusCommand).mapError GitFailure.problem
  let parsed ← (parseStatus stdout statusMaxEntries).mapError (parseProblem statusCommand)
  pure (.of parsed)

/-- The answer to a yes-or-no question: `none` when it could not be read at all. -/
def probeOf (answer : GitAnswer) : Option Bool :=
  match answer with
  | .ok outcome => some (cleanExit outcome)
  | .error _ => none

structure UnmergedStage where
  stage : Nat
  path : Bytes

def lsFilesFormat : String := "ls-files --unmerged --stage -z"

def lsFilesMaxRecords : Nat := 100000

def lsFilesFail {α : Type} (detail : String) : Except CoreError α :=
  .error (.outputUnparsable lsFilesFormat detail)

/-- `mode SP object SP stage TAB path`. The path may hold spaces and tabs itself. -/
def parseUnmergedStage (record : Bytes) : Except CoreError UnmergedStage :=
  match splitOnce 0x20 record with
  | none => lsFilesFail "expected mode, object and stage, then the path: got 1 fields"
  | some (mode, rest) =>
      match splitOnce 0x20 rest with
      | none => lsFilesFail "expected mode, object and stage, then the path: got 2 fields"
      | some (object, tail) =>
          if mode.length ≠ 6 || !mode.all fun byte => 0x30 ≤ byte && byte ≤ 0x37 then
            lsFilesFail "unexpected file mode"
          else if object.length ≠ 40 && object.length ≠ 64 then
            lsFilesFail "unexpected object name length"
          else
            match splitOnce 0x09 tail with
            | none => lsFilesFail "expected a tab before the path"
            | some ([digit], path) =>
                if !(0x31 ≤ digit && digit ≤ 0x33) then
                  lsFilesFail "an unmerged listing only holds stages 1 to 3"
                else if path.isEmpty then lsFilesFail "an index entry has an empty path"
                else .ok { stage := digit.toNat - 0x30, path }
            | some _ => lsFilesFail "an unmerged listing only holds stages 1 to 3"

def parseLsFilesUnmerged (bytes : Bytes) : Except CoreError (List UnmergedStage) :=
  ((bytes.splitOn 0).filter fun record => !record.isEmpty).foldlM (fun stages record => do
    if lsFilesMaxRecords ≤ stages.length then
      lsFilesFail s!"the listing exceeds {lsFilesMaxRecords} records"
    else pure (stages ++ [← parseUnmergedStage record])) []

/-- How many distinct paths the answer to `planLsFilesUnmerged` lists. -/
def conflictedCountOf (answer : GitAnswer) : Option Nat :=
  match answer with
  | .error _ => none
  | .ok outcome =>
      if cleanExit outcome then
        match parseLsFilesUnmerged outcome.stdout with
        | .ok stages => some (stages.map UnmergedStage.path).dedup.length
        | .error _ => none
      else none

def nameOf (answer : GitAnswer) : Option String :=
  match answer with
  | .error _ => none
  | .ok outcome =>
      if cleanExit outcome then
        (Utf8.decodeStrict outcome.stdout).map fun chars => String.ofList (trim chars)
      else none

end Refyard
