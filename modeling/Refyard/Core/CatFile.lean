import Refyard.Core.Bytes
import Refyard.Foundation.Scan
import Refyard.Foundation.StreamDecoder

/-! `git cat-file --batch` framing: a header line, exactly as many bytes as it promises,
and a newline. The decoder is fed chunks and never emits a partial object. -/
namespace Refyard

/-- `CORE_LIMITS.objectMaxBytes`. -/
def objectMaxBytes : Nat := 16 * 1024 * 1024

def catFileFormat : String := "cat-file --batch"

inductive CatFileObjectType where
  | commit
  | tree
  | blob
  | tag
  deriving DecidableEq

def CatFileObjectType.asStr : CatFileObjectType → String
  | .commit => "commit"
  | .tree => "tree"
  | .blob => "blob"
  | .tag => "tag"

def CatFileObjectType.fromName (name : String) : Option CatFileObjectType :=
  if name = "commit" then some .commit
  else if name = "tree" then some .tree
  else if name = "blob" then some .blob
  else if name = "tag" then some .tag
  else none

inductive CatFileEntry where
  | object (oid : String) (objectType : CatFileObjectType) (body : Bytes)
  | missing (input : String)
  deriving DecidableEq

inductive HeaderLine where
  | object (oid : String) (objectType : CatFileObjectType) (size : Nat)
  | missing (input : String)

def catFileUnparsable (detail : String) : CoreError := .outputUnparsable catFileFormat detail

def parseTypeAndSize (oid : String) (typeText sizeText : List Char) :
    Except CoreError HeaderLine :=
  if sizeText.isEmpty || !sizeText.all Char.isDigit then
    .error (catFileUnparsable s!"unrecognised object size '{String.ofList sizeText}'")
  else
    match CatFileObjectType.fromName (String.ofList typeText) with
    | none => .error (catFileUnparsable s!"unexpected object type '{String.ofList typeText}'")
    | some objectType =>
        let size := decimalValue sizeText
        -- a size no `usize` can hold is oversized, whatever it is
        if 2 ^ 64 ≤ size then
          .error (catFileUnparsable
            s!"object of {String.ofList sizeText} bytes exceeds the {objectMaxBytes} byte limit")
        else if size > objectMaxBytes then
          .error (catFileUnparsable
            s!"object of {size} bytes exceeds the {objectMaxBytes} byte limit")
        else .ok (.object oid objectType size)

def parseHeaderLine (line : Bytes) : Except CoreError HeaderLine := do
  let text ← decodeAscii line catFileFormat
  match splitOnce ' ' text.toList with
  | none => .error (catFileUnparsable s!"unrecognised header line '{text}'")
  | some (name, rest) =>
      let first := String.ofList name
      if rest = "missing".toList || "missing ".toList.isPrefixOf rest then .ok (.missing first)
      else if "ambiguous".toList.isPrefixOf rest then
        .error (catFileUnparsable s!"object name '{first}' is ambiguous")
      else
        match rest.splitOn ' ' with
        | [typeText, sizeText] => parseTypeAndSize first typeText sizeText
        | _ => .error (catFileUnparsable s!"unrecognised header line '{text}'")

def materialize (header body : Bytes) : Except CoreError CatFileEntry := do
  match ← parseHeaderLine header with
  | .object oid objectType _ => .ok (.object oid objectType body)
  | .missing _ =>
      .error (catFileUnparsable "internal: missing-object header reached materialisation")

/-- A header that promised a body which has not arrived whole, and how long it is. -/
structure CatFileMode where
  expectedBody : Option Nat := none
  headerLine : Bytes := []

abbrev CatFileVerdict := FrameVerdict CatFileMode UInt8 CoreError CatFileEntry

def readBody (headerLine : Bytes) (expected : Nat) (buffer : Bytes) : CatFileVerdict :=
  if buffer.length < expected + 1 then .wait
  else
    let body := buffer.take expected
    if buffer[expected]? ≠ some 0x0a then
      .fail (catFileUnparsable
        s!"object body of {expected} bytes was not followed by a newline (at byte {expected})")
    else if body.length > objectMaxBytes then
      .fail (catFileUnparsable
        s!"object body of {body.length} bytes exceeds the {objectMaxBytes} byte limit")
    else
      match materialize headerLine body with
      | .error error => .fail error
      | .ok entry => .advance {} [entry] (buffer.drop (expected + 1))

def readHeader (headerLine buffer : Bytes) : CatFileVerdict :=
  match buffer.findIdx? fun byte => byte = 0x0a with
  | none => .wait
  | some lineEnd =>
      let line := headerLine ++ buffer.take lineEnd
      let rest := buffer.drop (lineEnd + 1)
      match parseHeaderLine line with
      | .error error => .fail error
      | .ok (.missing input) => .advance {} [.missing input] rest
      | .ok (.object _ _ size) => .advance { expectedBody := some size, headerLine := line } [] rest

def readCatFile (mode : CatFileMode) (buffer : Bytes) : CatFileVerdict :=
  match mode.expectedBody with
  | some expected => readBody mode.headerLine expected buffer
  | none => readHeader mode.headerLine buffer

variable {headerLine buffer : Bytes}
variable {rest : Bytes} {expected : Nat} {next : CatFileMode} {out : List CatFileEntry}

theorem readBody_shorter (h : readBody headerLine expected buffer = .advance next out rest) :
    rest.length < buffer.length := by
  unfold readBody at h
  split at h
  · contradiction
  · rename_i whole
    dsimp only at h
    split at h
    · contradiction
    · split at h
      · contradiction
      · split at h
        · contradiction
        · cases h
          rw [List.length_drop]
          omega

theorem readHeader_shorter (h : readHeader headerLine buffer = .advance next out rest) :
    rest.length < buffer.length := by
  unfold readHeader at h
  split at h
  · contradiction
  · rename_i lineEnd found
    have inside := (List.findIdx?_eq_some_iff_getElem.mp found).1
    dsimp only at h
    split at h
    · contradiction
    · cases h
      rw [List.length_drop]
      omega
    · cases h
      rw [List.length_drop]
      omega

theorem readBody_stable (h : readBody headerLine expected buffer ≠ .wait) (more : Bytes) :
    readBody headerLine expected (buffer ++ more) =
      (readBody headerLine expected buffer).append more := by
  unfold readBody at h ⊢
  split at h
  · contradiction
  · rename_i whole
    have longer : ¬(buffer ++ more).length < expected + 1 := by
      rw [List.length_append]
      omega
    rw [if_neg longer, if_neg whole, List.getElem?_append_left (by omega),
      List.take_append_of_le_length (by omega), List.drop_append_of_le_length (by omega)]
    simp only
    split
    · rfl
    · split
      · rfl
      · cases materialize headerLine (buffer.take expected) <;> rfl

theorem readHeader_stable (h : readHeader headerLine buffer ≠ .wait) (more : Bytes) :
    readHeader headerLine (buffer ++ more) = (readHeader headerLine buffer).append more := by
  unfold readHeader at h ⊢
  split at h
  · contradiction
  · rename_i lineEnd found
    have inside := (List.findIdx?_eq_some_iff_getElem.mp found).1
    rw [List.findIdx?_append, found]
    simp only [Option.some_or]
    rw [List.take_append_of_le_length (by omega), List.drop_append_of_le_length (by omega)]
    split <;> rfl

def catFile : Framing CatFileMode UInt8 CoreError CatFileEntry where
  read := readCatFile
  shorter := by
    intro mode buffer next out rest h
    unfold readCatFile at h
    split at h
    · exact readBody_shorter h
    · exact readHeader_shorter h
  stable := by
    intro mode buffer h more
    unfold readCatFile at h ⊢
    split at h
    · exact readBody_stable h more
    · exact readHeader_stable h more

abbrev CatFileDecoder := Pending CatFileMode UInt8

namespace CatFileDecoder

def new : CatFileDecoder := { mode := {}, buffer := [] }

def push (decoder : CatFileDecoder) (chunk : Bytes) :
    Except CoreError (List CatFileEntry × CatFileDecoder) :=
  catFile.push decoder chunk

/-- What a failing read leaves: a line that was taken is gone, a body that was not is there. -/
def leave (decoder : CatFileDecoder) : CatFileDecoder :=
  match decoder.mode.expectedBody with
  | some expected =>
      if decoder.buffer[expected]? ≠ some 0x0a ∨
          (decoder.buffer.take expected).length > objectMaxBytes then decoder
      else { mode := {}, buffer := decoder.buffer.drop (expected + 1) }
  | none =>
      match decoder.buffer.findIdx? fun byte => byte = 0x0a with
      | none => decoder
      | some lineEnd => { mode := {}, buffer := decoder.buffer.drop (lineEnd + 1) }

def pushKept (decoder : CatFileDecoder) (chunk : Bytes) :
    Except CoreError (List CatFileEntry) × CatFileDecoder :=
  catFile.drainLeft leave (decoder.feed chunk)

def answers (decoder : CatFileDecoder) :
    List Bytes → List (Except CoreError (List CatFileEntry)) × CatFileDecoder
  | [] => ([], decoder)
  | chunk :: chunks =>
      let (answer, next) := decoder.pushKept chunk
      let (later, last) := answers next chunks
      (answer :: later, last)

def finish (decoder : CatFileDecoder) : Except CoreError Unit :=
  match decoder.mode.expectedBody with
  | some expected =>
      .error (.outputIncomplete catFileFormat
        s!"stream ended after a header promising {expected} bytes")
  | none =>
      if decoder.buffer.isEmpty then .ok ()
      else
        .error (.outputIncomplete catFileFormat
          s!"stream ended with {decoder.buffer.length} bytes of an unfinished header")

end CatFileDecoder

/-- A whole stream, as a caller reads it: every chunk is pushed, then the end is checked. -/
def decodeChunks (chunks : List Bytes) : Except CoreError (List CatFileEntry) :=
  match catFile.pushAll CatFileDecoder.new chunks with
  | .error error => .error error
  | .ok (entries, decoder) =>
      match CatFileDecoder.finish decoder with
      | .error error => .error error
      | .ok () => .ok entries

end Refyard
