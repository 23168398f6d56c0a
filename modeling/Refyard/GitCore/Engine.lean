import Refyard.Foundation.Interaction
import Refyard.Writes.Facts

/-! The seam between the portable core and the host: a planned command goes out, how it ended
comes back. -/
namespace Refyard.GitCore

inductive GitTermination where
  | exit | signal | timeout | outputLimit | spawnError | unknown
  deriving DecidableEq

inductive GitFailureCode where
  | gitCommandFailed | gitNotStarted | gitTimedOut | gitOutputLimitExceeded
  | gitTerminatedBySignal | gitOutputUnparsable

structure GitCommandSpec where
  argv : List String
  cwdHandle : String
  deadlineClass : DeadlineClass
  description : String

/-- The raw outcome of one process, and what only Git knows of it: whether the command moved the
branch that is checked out. -/
structure GitRunResult where
  termination : GitTermination
  exitCode : Option Int
  stdout : Bytes
  stderr : Bytes
  movedBranch : Bool

abbrev Workflow := Interaction GitCommandSpec GitRunResult Empty

def GitRunResult.completed (result : GitRunResult) : Bool :=
  result.termination == .exit && result.exitCode == some 0

def failureCodeOf : GitTermination → GitFailureCode
  | .timeout => .gitTimedOut
  | .signal => .gitTerminatedBySignal
  | .spawnError => .gitNotStarted
  | .outputLimit => .gitOutputLimitExceeded
  | .exit | .unknown => .gitCommandFailed

def stderrDiagnosticMaxBytes : Nat := 256 * 1024

def diagnosticChar (byte : UInt8) : Option Char :=
  if byte = 0x0a then some '\n'
  else if 0x20 ≤ byte ∧ byte < 0x7f then some (byteChar byte)
  else if 0x80 ≤ byte then some Utf8.replacement
  else none

def boundedDiagnostic (stderr : Bytes) : String :=
  let text := (stderr.take stderrDiagnosticMaxBytes).filterMap diagnosticChar
  String.ofList (if 4000 < text.length then text.take 4000 ++ ['…'] else trimEnd text)

structure GitFailure where
  code : GitFailureCode
  exitCode : Option Int
  diagnostic : String

def failureOf (result : GitRunResult) : GitFailure where
  code := failureCodeOf result.termination
  exitCode := result.exitCode
  diagnostic := boundedDiagnostic result.stderr

end Refyard.GitCore
