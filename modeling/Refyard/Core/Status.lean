import Refyard.Core.Frames
import Refyard.Foundation.Utf8

/-! `git status --porcelain=v2 --branch -z`. The first byte of a frame is its type; the
fields behind it are read by position, and the path is everything after the last one. -/
namespace Refyard

inductive StatusRecordKind where
  | ordinary
  | renamed
  | copied
  | unmerged
  | untracked
  | ignored
  deriving DecidableEq

structure StatusUnmergedStage where
  stage : Nat
  mode : String
  oid : String
  deriving DecidableEq

structure StatusRecord where
  kind : StatusRecordKind
  indexStatus : String
  worktreeStatus : String
  submoduleField : String
  modeHead : Option String
  modeIndex : Option String
  modeWorktree : Option String
  oidHead : Option String
  oidIndex : Option String
  path : Bytes
  originalPath : Option Bytes
  score : Option Nat
  stages : List StatusUnmergedStage
  submoduleCommitChanged : Bool
  submoduleModified : Bool
  submoduleUntracked : Bool
  deriving DecidableEq

structure StatusBranch where
  seen : Bool
  initial : Bool
  detached : Bool
  oid : Option String
  head : Option String
  deriving DecidableEq

structure StatusParseResult where
  branch : StatusBranch
  upstream : Option String
  ahead : Option Nat
  behind : Option Nat
  stashCount : Option Nat
  records : List StatusRecord
  deriving DecidableEq

def statusFormat : String := "status --porcelain=v2 -z"

def statusMaxEntries : Nat := 100000

def StatusParseResult.start : StatusParseResult where
  branch := { seen := false, initial := false, detached := false, oid := none, head := none }
  upstream := none
  ahead := none
  behind := none
  stashCount := none
  records := []

namespace Status

open FrameReader

def fail {α : Type} (detail : String) : FrameReader α := FrameReader.fail statusFormat detail

def checkBound (records : List StatusRecord) (maxEntries : Nat) : Except CoreError Unit :=
  if maxEntries ≤ records.length then
    .error (.outputUnparsable statusFormat s!"status exceeded {maxEntries} entries")
  else .ok ()

def readSignedCount (field : String) (sign : Char) : Except CoreError Nat :=
  if field.toList.head? ≠ some sign then
    .error (.outputUnparsable statusFormat s!"expected '{sign}<n>' but found '{field}'")
  else if field.toList.tail.isEmpty || !field.toList.tail.all Char.isDigit then
    .error (.outputUnparsable statusFormat
      s!"expected a count after '{sign}' but found '{field}'")
  else
    match parseUnsigned 64 field.toList.tail with
    | some count => .ok count
    | none => .error (.outputUnparsable statusFormat "count out of range")

def readXy : FrameReader (String × String) := do
  let bytes ← takeBytes statusFormat 2
  let text ← decodeAscii bytes statusFormat
  pure (String.singleton (text.toList.getD 0 '.'), String.singleton (text.toList.getD 1 '.'))

def decodeMode (bytes : Bytes) : Option String :=
  if bytes.all (· == 0x30) then none else some (String.ofList (Utf8.decode bytes))

def readZeroedOid (text : String) : Option String :=
  if text.toList.all (· == '0') then none else some text

/-- `sub` is four characters: `N` or `S`, then the commit, worktree and untracked flags. -/
def submoduleFlags (sub : String) : Bool × Bool × Bool :=
  match sub.toList with
  | ['S', commit, modified, untracked] => (commit == 'C', modified == 'M', untracked == 'U')
  | _ => (false, false, false)

structure ChangedFields where
  indexStatus : String
  worktreeStatus : String
  sub : String
  modeHead : Option String
  modeIndex : Option String
  modeWorktree : Option String
  oidHead : String
  oidIndex : String

def readChanged : FrameReader ChangedFields := do
  expectSpace statusFormat
  let (indexStatus, worktreeStatus) ← readXy
  expectSpace statusFormat
  let subBytes ← takeBytes statusFormat 4
  let sub ← decodeAscii subBytes statusFormat
  expectSpace statusFormat
  let modeHead ← takeBytes statusFormat 6
  expectSpace statusFormat
  let modeIndex ← takeBytes statusFormat 6
  expectSpace statusFormat
  let modeWorktree ← takeBytes statusFormat 6
  expectSpace statusFormat
  let oidHead ← takeOid statusFormat
  expectSpace statusFormat
  let oidIndex ← takeOid statusFormat
  expectSpace statusFormat
  pure { indexStatus, worktreeStatus, sub, modeHead := decodeMode modeHead,
         modeIndex := decodeMode modeIndex, modeWorktree := decodeMode modeWorktree,
         oidHead, oidIndex }

def ChangedFields.record (fields : ChangedFields) (kind : StatusRecordKind) (path : Bytes)
    (originalPath : Option Bytes) (score : Option Nat) : StatusRecord where
  kind := kind
  indexStatus := fields.indexStatus
  worktreeStatus := fields.worktreeStatus
  submoduleField := fields.sub
  modeHead := fields.modeHead
  modeIndex := fields.modeIndex
  modeWorktree := fields.modeWorktree
  oidHead := readZeroedOid fields.oidHead
  oidIndex := readZeroedOid fields.oidIndex
  path := path
  originalPath := originalPath
  score := score
  stages := []
  submoduleCommitChanged := (submoduleFlags fields.sub).1
  submoduleModified := (submoduleFlags fields.sub).2.1
  submoduleUntracked := (submoduleFlags fields.sub).2.2

def parseOrdinary : FrameReader StatusRecord := do
  let fields ← readChanged
  let path ← takeRest
  if path.isEmpty then fail "ordinary entry has an empty path"
  else pure (fields.record .ordinary path none none)

/-- The digits of the score, up to the next space. Each byte is one character. -/
def takeScoreText : FrameReader String := fun cursor =>
  let digits := cursor.rest.takeWhile fun byte => byte ≠ 0x20
  .ok (asciiText digits, ⟨cursor.rest.drop digits.length, cursor.offset + digits.length⟩)

def parseRename (originalFrame : Bytes) : FrameReader StatusRecord := do
  let fields ← readChanged
  let letter ← takeBytes statusFormat 1
  let scoreKind ← decodeAscii letter statusFormat
  let scoreText ← takeScoreText
  if scoreText.toList.isEmpty then fail "rename/copy entry has no similarity score"
  else
    match parseUnsigned 32 scoreText.toList with
    | none => fail "rename/copy similarity score is not a number"
    | some score => do
        expectSpace statusFormat
        let path ← takeRest
        if path.isEmpty then fail "rename/copy entry has an empty path"
        else if originalFrame.isEmpty then fail "rename/copy entry has an empty original path"
        else
          let kind := if scoreKind = "C" then StatusRecordKind.copied else .renamed
          pure (fields.record kind path (some originalFrame) (some score))

def takeStageMode : FrameReader String := do
  let mode ← takeBytes statusFormat 6
  expectSpace statusFormat
  pure ((decodeMode mode).getD "000000")

def takeStageOid : FrameReader String := do
  let oid ← takeOid statusFormat
  expectSpace statusFormat
  pure oid

/-- The stages that exist: one that does not is written with an all-zero mode. -/
def stagesOf (modes oids : List String) : List StatusUnmergedStage :=
  ((modes.zip oids).zipIdx 1).filterMap fun ((mode, oid), stage) =>
    if mode = "000000" then none else some { stage, mode, oid }

def parseUnmerged : FrameReader StatusRecord := do
  expectSpace statusFormat
  let (indexStatus, worktreeStatus) ← readXy
  expectSpace statusFormat
  let subBytes ← takeBytes statusFormat 4
  let sub ← decodeAscii subBytes statusFormat
  expectSpace statusFormat
  let baseMode ← takeStageMode
  let oursMode ← takeStageMode
  let theirsMode ← takeStageMode
  let modeWorktree ← takeBytes statusFormat 6
  expectSpace statusFormat
  let base ← takeStageOid
  let ours ← takeStageOid
  let theirs ← takeStageOid
  let path ← takeRest
  if path.isEmpty then fail "unmerged entry has an empty path"
  else
    pure
      { kind := .unmerged
        indexStatus
        worktreeStatus
        submoduleField := sub
        modeHead := none
        modeIndex := none
        modeWorktree := decodeMode modeWorktree
        oidHead := none
        oidIndex := none
        path
        originalPath := none
        score := none
        stages := stagesOf [baseMode, oursMode, theirsMode] [base, ours, theirs]
        submoduleCommitChanged := false
        submoduleModified := false
        submoduleUntracked := false }

def pathOnlyStatus (kind : StatusRecordKind) : String :=
  match kind with
  | .ignored => "!"
  | _ => "?"

def pathOnlyRecord (kind : StatusRecordKind) (path : Bytes) : StatusRecord where
  kind := kind
  indexStatus := pathOnlyStatus kind
  worktreeStatus := pathOnlyStatus kind
  submoduleField := "N..."
  modeHead := none
  modeIndex := none
  modeWorktree := none
  oidHead := none
  oidIndex := none
  path := path
  originalPath := none
  score := none
  stages := []
  submoduleCommitChanged := false
  submoduleModified := false
  submoduleUntracked := false

def parsePathOnly (kind : StatusRecordKind) : FrameReader StatusRecord := do
  expectSpace statusFormat
  let path ← takeRest
  if path.isEmpty then fail "path-only entry has an empty path"
  else pure (pathOnlyRecord kind path)

/-- What follows the key of a `#` header. A header Git added later is ignored. -/
def headerValue (found : StatusParseResult) (key : String) : FrameReader StatusParseResult :=
  match key with
  | "branch.oid" => do
      expectSpace statusFormat
      let value ← takeRestAscii statusFormat
      let initial := value == "(initial)"
      pure { found with branch := { found.branch with
        seen := true, initial, oid := if initial then none else some value } }
  | "branch.head" => do
      expectSpace statusFormat
      let value ← takeRestAscii statusFormat
      let detached := value == "(detached)"
      pure { found with branch := { found.branch with
        seen := true, detached, head := if detached then none else some value } }
  | "branch.upstream" => do
      expectSpace statusFormat
      let value ← takeRestAscii statusFormat
      pure { found with upstream := some value }
  | "branch.ab" => do
      expectSpace statusFormat
      let plus ← takeAsciiField statusFormat
      let ahead ← readSignedCount plus '+'
      expectSpace statusFormat
      let minus ← takeAsciiField statusFormat
      let behind ← readSignedCount minus '-'
      pure { found with ahead := some ahead, behind := some behind }
  | "stash" => do
      expectSpace statusFormat
      let count ← takeNumber statusFormat
      pure { found with stashCount := some count }
  | _ => pure found

def readHeader (found : StatusParseResult) : FrameReader StatusParseResult := do
  expectSpace statusFormat
  let key ← takeAsciiField statusFormat
  headerValue found key

def pushRecord (found : StatusParseResult) (record : StatusRecord) : StatusParseResult :=
  { found with records := found.records ++ [record] }

def readRecord (maxEntries : Nat) (found : StatusParseResult)
    (reader : FrameReader StatusRecord) (fields : Bytes) : Except CoreError StatusParseResult := do
  checkBound found.records maxEntries
  let record ← reader.on fields
  pure (pushRecord found record)

/-- The loop over the frames. A rename takes the frame behind its own as well. -/
def readFrames (maxEntries : Nat) (found : StatusParseResult) :
    List Bytes → Except CoreError StatusParseResult
  | [] => .ok found
  | [] :: frames => readFrames maxEntries found frames
  | (0x23 :: fields) :: frames => do
      readFrames maxEntries (← (readHeader found).on fields) frames
  | (0x31 :: fields) :: frames => do
      readFrames maxEntries (← readRecord maxEntries found parseOrdinary fields) frames
  | [0x32 :: _] => do
      checkBound found.records maxEntries
      .error (.outputUnparsable statusFormat
        "rename record was not followed by its original path frame")
  | (0x32 :: fields) :: original :: frames => do
      readFrames maxEntries (← readRecord maxEntries found (parseRename original) fields) frames
  | (0x75 :: fields) :: frames => do
      readFrames maxEntries (← readRecord maxEntries found parseUnmerged fields) frames
  | (0x3f :: fields) :: frames => do
      readFrames maxEntries (← readRecord maxEntries found (parsePathOnly .untracked) fields) frames
  | (0x21 :: fields) :: frames => do
      readFrames maxEntries (← readRecord maxEntries found (parsePathOnly .ignored) fields) frames
  | (other :: _) :: _ =>
      .error (.outputUnparsable statusFormat s!"unknown record type '{byteChar other}'")

end Status

/-- Parses a complete status buffer. More entries than the bound are an error. -/
def parseStatus (bytes : Bytes) (maxEntries : Nat) : Except CoreError StatusParseResult := do
  Status.readFrames maxEntries .start (← splitNulFrames bytes statusFormat)

end Refyard
