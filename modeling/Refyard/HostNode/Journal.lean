import Refyard.Foundation.InsertionMap
import Refyard.Foundation.IsoDate
import Refyard.Foundation.Json
import Refyard.Foundation.Utf8
import Mathlib.Data.List.Sort

/-! The journal store of the TypeScript host: a file with one JSON line for each transition,
of which the last one of an operation counts, and the same records in memory. -/
namespace Refyard.HostNode

/-- What `typeof` calls an object and is not null. -/
inductive JsObject where
  | record (members : List (String × Json))
  | list (items : List Json)

def JsObject.json : JsObject → Json
  | .record members => .object members
  | .list items => .array items

def jsObject : Option Json → Option JsObject
  | some (.object members) => some (.record members)
  | some (.array items) => some (.list items)
  | _ => none

/-- Kind and status are whatever text stands in the file, and the outcome whatever value. -/
structure JournalEntry where
  operationId : String
  clientRequestId : String
  actor : String
  kind : String
  target : JsObject
  status : String
  sequence : Int
  /-- A number that is no date is `none`. -/
  acceptedAtMs : Option Timestamp
  startedAtMs : Option Timestamp
  finishedAtMs : Option Timestamp
  payloadDigest : String
  repositoryId : String
  result : Json
  problem : Json
  unknownReason : Option String

structure RetentionPolicy where
  ttlMs : Int
  maxBytes : Nat

def isTerminalStatus (status : String) : Bool :=
  status = "succeeded" || status = "failed" || status = "needsAttention" ||
    status = "unknown" || status = "cancelled"

def mayPruneRecord (entry : JournalEntry) (nowMs : Int) (policy : RetentionPolicy) : Bool :=
  isTerminalStatus entry.status &&
    (entry.finishedAtMs.or entry.acceptedAtMs).any fun finishedAt =>
      policy.ttlMs ≤ nowMs - finishedAt.ms

def dateJson (time : Timestamp) : Json := .string (String.ofList (IsoDate.toISOString time))

def JournalEntry.members (entry : JournalEntry) (acceptedAt : Timestamp) : List (String × Json) :=
  [("operationId", .string entry.operationId), ("clientRequestId", .string entry.clientRequestId),
    ("actor", .string entry.actor), ("kind", .string entry.kind), ("target", entry.target.json),
    ("status", .string entry.status), ("sequence", .number entry.sequence),
    ("acceptedAt", dateJson acceptedAt), ("startedAt", entry.startedAtMs.elim .null dateJson),
    ("finishedAt", entry.finishedAtMs.elim .null dateJson),
    ("payloadDigest", .string entry.payloadDigest), ("repositoryId", .string entry.repositoryId),
    ("result", entry.result), ("problem", entry.problem),
    ("unknownReason", entry.unknownReason.elim .null .string)]

/-- Nothing is written where the time of acceptance is no date: `toISOString` throws. -/
def serialize (entry : JournalEntry) : Option (List Char) :=
  entry.acceptedAtMs.map fun acceptedAt =>
    Json.stringify (.object (entry.members acceptedAt)) ++ ['\n']

def field (members : List (String × Json)) (name : String) : Option Json :=
  (lastOf Prod.fst members name).map Prod.snd

def stringField (members : List (String × Json)) (name : String) : Option String :=
  match field members name with
  | some (.string text) => some text
  | _ => none

def numberField (members : List (String × Json)) (name : String) : Option Int :=
  match field members name with
  | some (.number value) => some value
  | _ => none

def parseTime (members : List (String × Json)) (name : String) : Option Timestamp :=
  (stringField members name).bind fun text => IsoDate.parse text.toList

def deserialize (line : List Char) : Option JournalEntry := do
  let some (.object members) := Json.parse line | none
  let operationId ← stringField members "operationId"
  let clientRequestId ← stringField members "clientRequestId"
  let actor ← stringField members "actor"
  let kind ← stringField members "kind"
  let status ← stringField members "status"
  let sequence ← numberField members "sequence"
  let acceptedAt ← stringField members "acceptedAt"
  let payloadDigest ← stringField members "payloadDigest"
  let repositoryId ← stringField members "repositoryId"
  let target ← jsObject (field members "target")
  some {
    operationId, clientRequestId, actor, kind, target, status, sequence
    acceptedAtMs := IsoDate.parse acceptedAt.toList
    startedAtMs := parseTime members "startedAt"
    finishedAtMs := parseTime members "finishedAt"
    payloadDigest, repositoryId
    result := (field members "result").getD .null
    problem := (field members "problem").getD .null
    unknownReason := stringField members "unknownReason" }

abbrev Entries := InsertionMap JournalEntry.operationId

def byteLength (text : List Char) : Nat := (Utf8.encode text).length

structure JournalStore where
  entries : Entries := .empty
  bytes : Nat := 0

/-- `index` counts the lines from zero. -/
def loadLines (filePath : String) (count index : Nat) (entries : Entries) :
    List (List Char) → Except String Entries
  | [] => .ok entries
  | line :: rest =>
      if line = [] then loadLines filePath count (index + 1) entries rest
      else
        match deserialize line with
        | some entry => loadLines filePath count (index + 1) (entries.set entry) rest
        | none =>
            if index + 1 ≠ count ∧ index + 2 ≠ count then
              .error s!"the journal at {filePath} has an unreadable record at line {index + 1}; refusing to interpret it"
            else loadLines filePath count (index + 1) entries rest

def load (filePath : String) (store : JournalStore) (file : Option Bytes) :
    Except String JournalStore :=
  match file with
  | none => .ok store
  | some bytes =>
      let text := Utf8.decode bytes
      let lines := text.splitOn '\n'
      (loadLines filePath lines.length 0 store.entries lines).map fun entries =>
        { entries, bytes := byteLength text }

structure CompactionPlan where
  kept : List JournalEntry
  dropped : Nat
  lines : List (List Char)

/-- Oldest first. What is not terminal may not be pruned, so one test parts the records. -/
def keptEntries (entries : Entries) (nowMs : Int) (policy : RetentionPolicy) : List JournalEntry :=
  (entries.values.insertionSort fun first second => first.sequence ≤ second.sequence).filter
    fun entry => !mayPruneRecord entry nowMs policy

def planCompaction (entries : Entries) (nowMs : Int) (policy : RetentionPolicy) :
    Option CompactionPlan := do
  let _ ← entries.values.mapM serialize
  let kept := keptEntries entries nowMs policy
  let lines ← kept.mapM serialize
  let dropped := entries.values.countP fun entry => mayPruneRecord entry nowMs policy
  some { kept, dropped, lines }

def CompactionPlan.content (plan : CompactionPlan) : Bytes := Utf8.encode plan.lines.flatten

/-- What replaces the records in memory. Each operation is kept once, so the sizes by operation
add up to those of the lines. -/
def CompactionPlan.store (plan : CompactionPlan) : JournalStore where
  entries := .ofList plan.kept
  bytes := (plan.lines.map byteLength).sum

end Refyard.HostNode
