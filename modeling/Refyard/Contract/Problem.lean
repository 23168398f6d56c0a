import Std.Data.ExtTreeMap

/-! The failures a client can branch on. -/
namespace Refyard

inductive ProblemCode where
  | unauthenticated
  | forbidden
  | notFound
  | invalidRequest
  | unsupportedOperation
  | invalidOperationPayload
  | unsupportedPathEncoding
  | staleSnapshot
  | stalePreview
  | conflict
  | idempotencyConflict
  | resourceBusy
  | limitExceeded
  | gitCommandFailed
  | needsAttention
  | uncertainOutcome
  | timeout
  | cancelled
  | unavailable
  | internalError
  deriving DecidableEq

/-- The source's `Number` carries a float that no host code builds. -/
inductive DetailValue where
  | text (value : String)
  | integer (value : Int)
  | boolean (value : Bool)
  deriving DecidableEq

structure Problem where
  code : ProblemCode
  message : String
  details : Option (Std.ExtTreeMap String DetailValue compare) := none
  retryable : Bool := false
  operationId : Option String := none
  deriving DecidableEq

namespace Problem

def new (code : ProblemCode) (message : String) : Problem := { code, message }

def asRetryable (problem : Problem) : Problem := { problem with retryable := true }

def withDetail (problem : Problem) (key : String) (value : DetailValue) : Problem :=
  { problem with details := some ((problem.details.getD ∅).insert key value) }

def forOperation (problem : Problem) (operationId : String) : Problem :=
  { problem with operationId := some operationId }

end Problem

/-- `internal` of the journal: a failure that is the host's own. -/
def internal (message : String) : Problem := .new .internalError message

end Refyard
