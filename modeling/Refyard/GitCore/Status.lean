import Refyard.Core.Status
import Refyard.Foundation.Double

/-! The portable core's reading of `git status --porcelain=v2 --branch -z`. Numbers are doubles
here, and `Number.parseInt` makes one of any text. -/
namespace Refyard.GitCore

structure GitOutputParseError where
  format : String
  message : String
  offset : Option Nat

inductive Number where
  | nan
  | infinity (negative : Bool)
  | integer (value : Int)
  deriving DecidableEq

def Number.of (value : Int) : Number :=
  if 2 ^ 1024 ≤ Double.roundMagnitude value.natAbs then .infinity (value < 0)
  else .integer (Double.round value)

/-- `Number.parseInt(text, 10)`. -/
def parseInt (text : List Char) : Number :=
  let text := text.dropWhile isTrimmed
  let digits := (if text.head? = some '-' ∨ text.head? = some '+' then text.tail else text).takeWhile
    Char.isDigit
  if digits = [] then .nan
  else if text.head? = some '-' then .of (-decimalValue digits)
  else .of (decimalValue digits)

abbrev FrameReader (α : Type) := Reader GitOutputParseError UInt8 α

namespace FrameReader

def fail {α : Type} (format message : String) : FrameReader α := fun cursor =>
  .error { format, message, offset := some cursor.offset }

/-- The error names no format but `ascii`, and the byte's place. -/
def decodeAscii (start : Nat) (bytes : Bytes) : Except GitOutputParseError String :=
  match bytes.findIdx? fun byte => byte > 0x7f with
  | some index =>
      .error { format := "ascii", message := "expected an ASCII field but found a byte above 0x7f",
               offset := some (start + index) }
  | none => .ok (asciiText bytes)

def expectSpace (format : String) : FrameReader Unit := fun cursor =>
  match cursor.rest with
  | 0x20 :: rest => .ok ((), ⟨rest, cursor.offset + 1⟩)
  | _ => fail format "expected a space separator" cursor

def takeField (format : String) : FrameReader String := fun cursor =>
  let field := cursor.rest.takeWhile fun byte => byte ≠ 0x20
  if field.isEmpty then fail format "expected a field but found a separator" cursor
  else
    (decodeAscii cursor.offset field).map fun text =>
      (text, ⟨cursor.rest.drop field.length, cursor.offset + field.length⟩)

def takeBytes (format : String) (count : Nat) : FrameReader Bytes := fun cursor =>
  if cursor.rest.length < count then fail format s!"expected {count} more bytes" cursor
  else .ok (cursor.rest.take count, ⟨cursor.rest.drop count, cursor.offset + count⟩)

def takeFixedString (format : String) (count : Nat) : FrameReader String := do
  let bytes ← takeBytes format count
  decodeAscii 0 bytes

def takeRest : FrameReader Bytes := fun cursor =>
  .ok (cursor.rest, ⟨[], cursor.offset + cursor.rest.length⟩)

def takeRestAscii : FrameReader String := do
  let rest ← takeRest
  decodeAscii 0 rest

/-- The digits that `takeNumber` makes a number of. -/
def takeDigits (format : String) : FrameReader String := do
  let field ← takeField format
  if field.toList.all Char.isDigit then pure field
  else fail format s!"expected a decimal number but found '{field}'"

def isHexDigit (char : Char) : Bool := char.isDigit || ('a' ≤ char && char ≤ 'f')

def isObjectName (text : String) : Bool :=
  (text.length == 40 || text.length == 64) && text.toList.all isHexDigit

def takeOid (format : String) : FrameReader String := do
  let field ← takeField format
  if isObjectName field then pure field
  else fail format s!"expected a Git object name but found '{field}'"

end FrameReader

/-- `NulFramer.push` on the whole stream: the frames, and what no NUL has ended. -/
def pushFrames (frame : Bytes) : Bytes → List Bytes × Bytes
  | [] => ([], frame)
  | byte :: rest =>
      if byte = 0 then (frame :: (pushFrames [] rest).1, (pushFrames [] rest).2)
      else pushFrames (frame ++ [byte]) rest

def splitNulFrames (bytes : Bytes) (format : String) : Except GitOutputParseError (List Bytes) :=
  let (frames, pending) := pushFrames [] bytes
  if pending.length > 0 then
    .error { format, offset := none, message :=
      s!"stream ended with {pending.length} bytes after the last NUL terminator" }
  else .ok frames

structure StatusRecord where
  kind : StatusRecordKind
  indexStatus : String
  worktreeStatus : String
  submoduleField : String
  modeHead : Option String
  modeIndex : Option String
  modeWorktree : Option String
  oidHead : Option String
  oidIndex : Option String
  path : Bytes
  originalPath : Option Bytes
  score : Option Number
  stages : List StatusUnmergedStage
  submoduleCommitChanged : Bool
  submoduleModified : Bool
  submoduleUntracked : Bool
  deriving DecidableEq

structure StatusParseResult where
  branch : StatusBranch
  upstream : Option String
  aheadBehind : Option (Number × Number)
  stashCount : Option Number
  records : List StatusRecord
  deriving DecidableEq

def StatusParseResult.start : StatusParseResult where
  branch := { seen := false, initial := false, detached := false, oid := none, head := none }
  upstream := none
  aheadBehind := none
  stashCount := none
  records := []

namespace Status

open Refyard.GitCore.FrameReader

structure ChangedFields where
  indexStatus : String
  worktreeStatus : String
  sub : String
  modeHead : Bytes
  modeIndex : Bytes
  modeWorktree : Bytes
  oidHead : String
  oidIndex : String

inductive Fields where
  | ordinary (changed : ChangedFields) (path : Bytes)
  | renamed (changed : ChangedFields) (scoreKind scoreText : String) (path originalPath : Bytes)
  | unmerged (indexStatus worktreeStatus sub : String) (stageModes : List Bytes)
      (modeWorktree : Bytes) (oids : List String) (path : Bytes)
  | pathOnly (kind : StatusRecordKind) (path : Bytes)

/-- A `#` header as it was read. -/
inductive Header where
  | branchOid (value : String)
  | branchHead (value : String)
  | upstream (value : String)
  | aheadBehind (ahead behind : List Char)
  | stash (digits : List Char)
  | other

/-- `/^0+$/`. -/
def isZeroes (text : List Char) : Bool := !text.isEmpty && text.all (· == '0')

def readZeroedOid (value : String) : Option String :=
  if isZeroes value.toList then none else some value

def decodeMode (bytes : Bytes) : Option String :=
  if isZeroes (bytes.map byteChar) then none else some (asciiText bytes)

/-- `parseCommonFields`. -/
def readXy : FrameReader (String × String) := do
  let xy ← takeFixedString statusFormat 2
  pure (String.singleton (xy.toList.getD 0 '.'), String.singleton (xy.toList.getD 1 '.'))

/-- What `parseOrdinary` and `parseRename` begin with. -/
def readChanged : FrameReader ChangedFields := do
  expectSpace statusFormat
  let (indexStatus, worktreeStatus) ← readXy
  expectSpace statusFormat
  let sub ← takeFixedString statusFormat 4
  expectSpace statusFormat
  let modeHead ← takeBytes statusFormat 6
  expectSpace statusFormat
  let modeIndex ← takeBytes statusFormat 6
  expectSpace statusFormat
  let modeWorktree ← takeBytes statusFormat 6
  expectSpace statusFormat
  let oidHead ← takeOid statusFormat
  expectSpace statusFormat
  let oidIndex ← takeOid statusFormat
  expectSpace statusFormat
  pure { indexStatus, worktreeStatus, sub, modeHead, modeIndex, modeWorktree, oidHead, oidIndex }

def refuse {α : Type} (message : String) : FrameReader α :=
  throw { format := statusFormat, message, offset := none }

def parseOrdinary : FrameReader Fields := do
  let changed ← readChanged
  let path ← takeRest
  if path.isEmpty then refuse "ordinary entry has an empty path"
  else pure (.ordinary changed path)

def takeScoreText : FrameReader String := fun cursor =>
  let text := cursor.rest.takeWhile fun byte => byte ≠ 0x20
  .ok (asciiText text, ⟨cursor.rest.drop text.length, cursor.offset + text.length⟩)

def parseRename (originalFrame : Bytes) : FrameReader Fields := do
  let changed ← readChanged
  let scoreKind ← takeFixedString statusFormat 1
  let scoreText ← takeScoreText
  if scoreText.toList.isEmpty then refuse "rename/copy entry has no similarity score"
  else do
    expectSpace statusFormat
    let path ← takeRest
    if path.isEmpty then refuse "rename/copy entry has an empty path"
    else if originalFrame.isEmpty then refuse "rename/copy entry has an empty original path"
    else pure (.renamed changed scoreKind scoreText path originalFrame)

def takeStageMode : FrameReader Bytes := do
  let mode ← takeBytes statusFormat 6
  expectSpace statusFormat
  pure mode

def takeStageOid : FrameReader String := do
  let oid ← takeOid statusFormat
  expectSpace statusFormat
  pure oid

def parseUnmerged : FrameReader Fields := do
  expectSpace statusFormat
  let (indexStatus, worktreeStatus) ← readXy
  expectSpace statusFormat
  let sub ← takeFixedString statusFormat 4
  expectSpace statusFormat
  let baseMode ← takeStageMode
  let oursMode ← takeStageMode
  let theirsMode ← takeStageMode
  let modeWorktree ← takeBytes statusFormat 6
  expectSpace statusFormat
  let base ← takeStageOid
  let ours ← takeStageOid
  let theirs ← takeStageOid
  let path ← takeRest
  if path.isEmpty then refuse "unmerged entry has an empty path"
  else
    pure (.unmerged indexStatus worktreeStatus sub [baseMode, oursMode, theirsMode] modeWorktree
      [base, ours, theirs] path)

/-- `kind` as the type writes it. -/
def kindText : StatusRecordKind → String
  | .ordinary => "ordinary"
  | .renamed => "renamed"
  | .copied => "copied"
  | .unmerged => "unmerged"
  | .untracked => "untracked"
  | .ignored => "ignored"

def parsePathOnly (kind : StatusRecordKind) : FrameReader Fields := do
  expectSpace statusFormat
  let path ← takeRest
  if path.isEmpty then refuse s!"{kindText kind} entry has an empty path"
  else pure (.pathOnly kind path)

def readSignedCount (field : String) (sign : Char) : FrameReader (List Char) :=
  if field.toList.head? ≠ some sign then
    refuse s!"expected '{sign}<n>' but found '{field}'"
  else if !field.toList.tail.all Char.isDigit then
    refuse s!"expected a count after '{sign}' but found '{field}'"
  else pure field.toList.tail

def headerValue (key : String) : FrameReader Header :=
  match key with
  | "branch.oid" => do
      expectSpace statusFormat
      let value ← takeRestAscii
      pure (.branchOid value)
  | "branch.head" => do
      expectSpace statusFormat
      let value ← takeRestAscii
      pure (.branchHead value)
  | "branch.upstream" => do
      expectSpace statusFormat
      let value ← takeRestAscii
      pure (.upstream value)
  | "branch.ab" => do
      expectSpace statusFormat
      let plus ← takeField statusFormat
      let ahead ← readSignedCount plus '+'
      expectSpace statusFormat
      let minus ← takeField statusFormat
      let behind ← readSignedCount minus '-'
      pure (.aheadBehind ahead behind)
  | "stash" => do
      expectSpace statusFormat
      let digits ← takeDigits statusFormat
      pure (.stash digits.toList)
  | _ => pure .other

def readHeader : FrameReader Header := do
  expectSpace statusFormat
  let key ← takeField statusFormat
  headerValue key

def Header.apply (found : StatusParseResult) : Header → StatusParseResult
  | .branchOid value =>
      let initial := value == "(initial)"
      { found with branch := { found.branch with
          seen := true, initial, oid := if initial then none else some value } }
  | .branchHead value =>
      let detached := value == "(detached)"
      { found with branch := { found.branch with
          seen := true, detached, head := if detached then none else some value } }
  | .upstream value => { found with upstream := some value }
  | .aheadBehind ahead behind => { found with aheadBehind := some (parseInt ahead, parseInt behind) }
  | .stash digits => { found with stashCount := some (parseInt digits) }
  | .other => found

def changedRecord (changed : ChangedFields) (kind : StatusRecordKind) (path : Bytes)
    (originalPath : Option Bytes) (score : Option Number) : StatusRecord where
  kind := kind
  indexStatus := changed.indexStatus
  worktreeStatus := changed.worktreeStatus
  submoduleField := changed.sub
  modeHead := decodeMode changed.modeHead
  modeIndex := decodeMode changed.modeIndex
  modeWorktree := decodeMode changed.modeWorktree
  oidHead := readZeroedOid changed.oidHead
  oidIndex := readZeroedOid changed.oidIndex
  path := path
  originalPath := originalPath
  score := score
  stages := []
  submoduleCommitChanged := (Refyard.Status.submoduleFlags changed.sub).1
  submoduleModified := (Refyard.Status.submoduleFlags changed.sub).2.1
  submoduleUntracked := (Refyard.Status.submoduleFlags changed.sub).2.2

def Fields.record : Fields → StatusRecord
  | .ordinary changed path => changedRecord changed .ordinary path none none
  | .renamed changed scoreKind scoreText path originalPath =>
      changedRecord changed (if scoreKind = "C" then .copied else .renamed) path
        (some originalPath) (some (parseInt scoreText.toList))
  | .unmerged indexStatus worktreeStatus sub stageModes modeWorktree oids path =>
      { kind := .unmerged
        indexStatus
        worktreeStatus
        submoduleField := sub
        modeHead := none
        modeIndex := none
        modeWorktree := decodeMode modeWorktree
        oidHead := none
        oidIndex := none
        path
        originalPath := none
        score := none
        stages := Refyard.Status.stagesOf (stageModes.map fun mode => (decodeMode mode).getD "000000") oids
        submoduleCommitChanged := false
        submoduleModified := false
        submoduleUntracked := false }
  | .pathOnly kind path =>
      { kind
        indexStatus := if kind = .untracked then "?" else "!"
        worktreeStatus := if kind = .untracked then "?" else "!"
        submoduleField := "N..."
        modeHead := none
        modeIndex := none
        modeWorktree := none
        oidHead := none
        oidIndex := none
        path
        originalPath := none
        score := none
        stages := []
        submoduleCommitChanged := false
        submoduleModified := false
        submoduleUntracked := false }

def checkBound (records : List StatusRecord) (maxEntries : Nat) : Except GitOutputParseError Unit :=
  if maxEntries ≤ records.length then
    .error { format := statusFormat, message := s!"status exceeded {maxEntries} entries",
             offset := none }
  else .ok ()

def pushRecord (found : StatusParseResult) (fields : Fields) : StatusParseResult :=
  { found with records := found.records ++ [fields.record] }

/-- The loop over the frames. The bound does not count where a path is untracked or ignored. -/
def readFrames (maxEntries : Nat) (found : StatusParseResult) :
    List Bytes → Except GitOutputParseError StatusParseResult
  | [] => .ok found
  | [] :: frames => readFrames maxEntries found frames
  | (0x23 :: fields) :: frames => do
      readFrames maxEntries ((← readHeader.on fields).apply found) frames
  | (0x31 :: fields) :: frames => do
      checkBound found.records maxEntries
      readFrames maxEntries (pushRecord found (← parseOrdinary.on fields)) frames
  | [0x32 :: fields] => do
      checkBound found.records maxEntries
      .error { format := statusFormat, offset := some (fields.length + 1),
               message := "rename record was not followed by its original path frame" }
  | (0x32 :: fields) :: original :: frames => do
      checkBound found.records maxEntries
      readFrames maxEntries (pushRecord found (← (parseRename original).on fields)) frames
  | (0x75 :: fields) :: frames => do
      checkBound found.records maxEntries
      readFrames maxEntries (pushRecord found (← parseUnmerged.on fields)) frames
  | (0x3f :: fields) :: frames => do
      readFrames maxEntries (pushRecord found (← (parsePathOnly .untracked).on fields)) frames
  | (0x21 :: fields) :: frames => do
      readFrames maxEntries (pushRecord found (← (parsePathOnly .ignored).on fields)) frames
  | (other :: _) :: _ =>
      .error { format := statusFormat, message := s!"unknown record type '{byteChar other}'",
               offset := some 0 }

end Status

def parseStatus (bytes : Bytes) (maxEntries : Nat) :
    Except GitOutputParseError StatusParseResult := do
  Status.readFrames maxEntries .start (← splitNulFrames bytes statusFormat)

end Refyard.GitCore
