import Refyard.Core.Bytes
import Refyard.Foundation.Reader
import Refyard.Foundation.Scan
import Refyard.Foundation.Utf8

/-! The unified-diff parser. It goes line by line and knows a header by how its line begins,
whether or not a hunk is in progress. -/
namespace Refyard

def patchFormat : String := "diff patch"

def noNewlineMarker : String := "\\ No newline at end of file"

def gitlinkMode : String := "160000"

def patchMaxBytesPerFile : Nat := 2 * 1024 * 1024

def patchMaxLinesPerFile : Nat := 20000

inductive PatchLineKind where
  | context
  | add
  | remove
  deriving DecidableEq

structure PatchLine where
  kind : PatchLineKind
  text : String
  noNewline : Bool
  deriving DecidableEq

structure PatchHunk where
  header : String
  oldStart : Nat
  oldLines : Nat
  newStart : Nat
  newLines : Nat
  lines : List PatchLine
  deriving DecidableEq

inductive FilePatchBody where
  | text (hunks : List PatchHunk)
  | binary
  | submodule (oldOid newOid : Option String)
  | modeOnly (oldMode newMode : Option String)
  | unavailable (reason : String)
  deriving DecidableEq

structure HeaderPaths where
  old : Option String
  new : Option String
  deriving DecidableEq

structure ParsedFilePatch where
  headerPaths : HeaderPaths
  oldMode : Option String
  newMode : Option String
  isNew : Bool
  isDeleted : Bool
  isRename : Bool
  similarity : Option Nat
  body : FilePatchBody
  deriving DecidableEq

structure ParsePatchResult where
  files : List ParsedFilePatch
  truncated : Bool
  deriving DecidableEq

structure ParsePatchOptions where
  maxBytes : Option Nat
  maxLines : Option Nat

structure MutableFile where
  headerPaths : HeaderPaths
  oldMode : Option String
  newMode : Option String
  isNew : Bool
  isDeleted : Bool
  isRename : Bool
  similarity : Option Nat
  hunks : List PatchHunk
  binary : Bool
  submodule : Bool
  recordedOid : Option String
  indexOid : Option String
  unavailableReason : Option String

def MutableFile.new : MutableFile where
  headerPaths := { old := none, new := none }
  oldMode := none
  newMode := none
  isNew := false
  isDeleted := false
  isRename := false
  similarity := none
  hunks := []
  binary := false
  submodule := false
  recordedOid := none
  indexOid := none
  unavailableReason := none

namespace Patch

/-! Lines and their text. -/

/-- Splits at newlines. Only the empty rest behind the last newline is dropped. -/
def splitLinesFrom (line : Bytes) : Bytes → List Bytes
  | [] => if line.isEmpty then [] else [line]
  | byte :: rest =>
      if byte = 0x0a then line :: splitLinesFrom [] rest else splitLinesFrom (line ++ [byte]) rest

def splitLines (bytes : Bytes) : List Bytes := splitLinesFrom [] bytes

def replacement : Char := Char.ofNat 0xfffd

def isContinuation (byte : UInt8) : Bool := byte.toNat / 0x40 = 2

def extend (codePoint : Nat) (byte : UInt8) : Nat := codePoint * 0x40 + byte.toNat % 0x40

def charFromU32 (codePoint : Nat) : Char :=
  if codePoint.isValidChar then Char.ofNat codePoint else replacement

/-- Decodes a line as UTF-8 with replacement. A character that the line's end cuts off ends
the text. -/
def decodeLine : Bytes → List Char
  | [] => []
  | first :: rest =>
      let lead := first.toNat
      if lead < 0x80 then Char.ofNat lead :: decodeLine rest
      else if lead / 0x20 = 6 then
        match rest with
        | second :: behind =>
            if isContinuation second then
              charFromU32 (extend (lead % 0x20) second) :: decodeLine behind
            else replacement :: decodeLine (second :: behind)
        | _ => [replacement]
      else if lead / 0x10 = 14 then
        match rest with
        | second :: third :: behind =>
            if isContinuation second && isContinuation third then
              charFromU32 (extend (extend (lead % 0x10) second) third) :: decodeLine behind
            else replacement :: decodeLine (second :: third :: behind)
        | _ => [replacement]
      else if lead / 8 = 30 then
        match rest with
        | second :: third :: fourth :: behind =>
            if isContinuation second && isContinuation third && isContinuation fourth then
              charFromU32 (extend (extend (extend (lead % 8) second) third) fourth) ::
                decodeLine behind
            else replacement :: decodeLine (second :: third :: fourth :: behind)
        | _ => [replacement]
      else replacement :: decodeLine rest

/-! Headers. -/

def isWhiteSpace (char : Char) : Bool :=
  let code := char.toNat
  (9 ≤ code && code ≤ 13) || code == 0x20 || code == 0x85 || code == 0xa0 || code == 0x1680 ||
    (0x2000 ≤ code && code ≤ 0x200a) || code == 0x2028 || code == 0x2029 || code == 0x202f ||
    code == 0x205f || code == 0x3000

def trim (text : List Char) : List Char :=
  ((text.dropWhile isWhiteSpace).reverse.dropWhile isWhiteSpace).reverse

/-- Strips the `a/` or `b/` prefix, and quotes around what is left. -/
def stripPathPrefix (value : List Char) : String :=
  if value = "/dev/null".toList then String.ofList value
  else
    let withoutPrefix :=
      ((stripPrefix "a/".toList value).or (stripPrefix "b/".toList value)).getD value
    if 1 < withoutPrefix.length && withoutPrefix.head? == some '"' &&
        withoutPrefix.getLast? == some '"' then
      String.ofList withoutPrefix.tail.dropLast
    else String.ofList withoutPrefix

def isLowerHex (text : List Char) : Bool :=
  !text.isEmpty && text.all fun char => char.isDigit || ('a' ≤ char && char ≤ 'f')

/-- Splits at the first `..`. -/
def splitDots (front : List Char) : List Char → Option (List Char × List Char)
  | '.' :: '.' :: rest => some (front, rest)
  | char :: rest => splitDots (front ++ [char]) rest
  | [] => none

/-- `<old>..<new>[ <mode>]`: the mode, when there is one. -/
def parseIndexMode (rest : List Char) : Option String :=
  let (hashes, mode) :=
    match splitOnce ' ' rest with
    | some (hashes, mode) => (hashes, some mode)
    | none => (rest, none)
  match splitDots [] hashes, mode with
  | some (old, new), some mode =>
      if !isLowerHex old || !isLowerHex new then none
      else if mode.isEmpty || !mode.all Char.isDigit then none
      else some (String.ofList mode)
  | _, _ => none

inductive Header where
  | index (value : List Char)
  | oldMode (value : List Char)
  | newMode (value : List Char)
  | newFileMode (value : List Char)
  | deletedFileMode (value : List Char)
  | similarity (value : List Char)
  | renameFrom (value : List Char)
  | renameTo (value : List Char)
  | oldPath (value : List Char)
  | newPath (value : List Char)
  | binary
  | subproject (value : List Char)

def headerTable : List (String × (List Char → Header)) :=
  [("index ", .index), ("old mode ", .oldMode), ("new mode ", .newMode),
    ("new file mode ", .newFileMode), ("deleted file mode ", .deletedFileMode),
    ("similarity index ", .similarity), ("rename from ", .renameFrom),
    ("rename to ", .renameTo), ("--- ", .oldPath), ("+++ ", .newPath),
    ("Binary files ", fun _ => .binary), ("GIT binary patch", fun _ => .binary),
    ("Subproject commit ", .subproject)]

def header? (line : List Char) : Option Header :=
  headerTable.findSome? fun (literal, header) =>
    (stripPrefix literal.toList line).map header

def withHeader (file : MutableFile) : Header → MutableFile
  | .index value =>
      match parseIndexMode value with
      | none => file
      | some mode =>
          { file with oldMode := file.oldMode.or (some mode), newMode := file.newMode.or (some mode) }
  | .oldMode value => { file with oldMode := some (String.ofList (trim value)) }
  | .newMode value => { file with newMode := some (String.ofList (trim value)) }
  | .newFileMode value =>
      { file with isNew := true, newMode := some (String.ofList (trim value)) }
  | .deletedFileMode value =>
      { file with isDeleted := true, oldMode := some (String.ofList (trim value)) }
  | .similarity value =>
      { file with similarity := parseUnsigned 64 (trim (value.erase '%')), isRename := true }
  | .renameFrom value =>
      { file with
        isRename := true
        headerPaths := { file.headerPaths with old := some (String.ofList value) } }
  | .renameTo value =>
      { file with
        isRename := true
        headerPaths := { file.headerPaths with new := some (String.ofList value) } }
  | .oldPath value =>
      { file with headerPaths := { file.headerPaths with old := some (stripPathPrefix value) } }
  | .newPath value =>
      { file with headerPaths := { file.headerPaths with new := some (stripPathPrefix value) } }
  | .binary => { file with binary := true }
  | .subproject value =>
      let oid := String.ofList (trim value)
      let file := { file with submodule := true }
      if !isObjectName (Utf8.encode oid.toList) then file
      else if file.recordedOid.isNone then { file with recordedOid := some oid }
      else { file with indexOid := some oid }

/-! Hunk headers. The positions are the cursor's; why a header is no hunk header is not
told. -/

abbrev HunkReader (α : Type) := Reader Unit Char α

def expect (literal : String) : HunkReader Unit := fun cursor =>
  match stripPrefix literal.toList cursor.rest with
  | some rest => .ok ((), ⟨rest, cursor.offset + literal.length⟩)
  | none => .error ()

/-- Digits that a `usize` holds. -/
def number : HunkReader Nat := fun cursor =>
  let digits := cursor.rest.takeWhile Char.isDigit
  if digits.isEmpty then .error ()
  else if decimalValue digits < 2 ^ 64 then
    .ok (decimalValue digits, ⟨cursor.rest.drop digits.length, cursor.offset + digits.length⟩)
  else .error ()

def count : HunkReader Nat := fun cursor =>
  match cursor.rest with
  | ',' :: rest => number ⟨rest, cursor.offset + 1⟩
  | _ => .ok (1, cursor)

/-- `@@ -<oldStart>[,<oldLines>] +<newStart>[,<newLines>] @@<text>`. -/
def hunkHeader : HunkReader (Nat × Nat × Nat × Nat) := do
  expect "@@ -"
  let oldStart ← number
  let oldLines ← count
  expect " +"
  let newStart ← number
  let newLines ← count
  expect " @@"
  pure (oldStart, oldLines, newStart, newLines)

def parseHunkHeader (line : List Char) : Option (Nat × Nat × Nat × Nat) :=
  (hunkHeader.on line).toOption

/-! The loop. -/

structure PatchState where
  files : List ParsedFilePatch
  current : Option MutableFile
  currentHunk : Option PatchHunk

def flushHunk (state : PatchState) : PatchState :=
  match state.currentHunk, state.current with
  | some hunk, some file =>
      { state with current := some { file with hunks := file.hunks ++ [hunk] },
                   currentHunk := none }
  | _, _ => { state with currentHunk := none }

def submoduleOid (line : PatchLine) : Option String :=
  match stripPrefix "Subproject commit ".toList line.text.toList with
  | some oid => if isObjectName (Utf8.encode oid) then some (String.ofList oid) else none
  | none => none

def oidOfKind (kind : PatchLineKind) (lines : List PatchLine) : Option String :=
  (lines.filter fun line => line.kind == kind).findSome? submoduleOid

def body (file : MutableFile) : FilePatchBody :=
  let isSubmodule :=
    file.submodule || file.oldMode == some gitlinkMode || file.newMode == some gitlinkMode
  if file.binary then .binary
  else if isSubmodule then
    let lines := file.hunks.flatMap PatchHunk.lines
    .submodule (file.recordedOid.or (oidOfKind .remove lines))
      (file.indexOid.or (oidOfKind .add lines))
  else
    match file.unavailableReason with
    | some reason => .unavailable reason
    | none =>
        if file.hunks.isEmpty then .modeOnly file.oldMode file.newMode else .text file.hunks

def intoPatch (file : MutableFile) : ParsedFilePatch where
  headerPaths := file.headerPaths
  oldMode := file.oldMode
  newMode := file.newMode
  isNew := file.isNew
  isDeleted := file.isDeleted
  isRename := file.isRename
  similarity := file.similarity
  body := body file

def flushFile (state : PatchState) : PatchState :=
  match state.current with
  | none => state
  | some file => { state with files := state.files ++ [intoPatch file], current := none }

def unparsable (detail : String) : CoreError := .outputUnparsable patchFormat detail

def markLast : List PatchLine → Option (List PatchLine)
  | [] => none
  | [last] => some [{ last with noNewline := true }]
  | line :: lines => (markLast lines).map (line :: ·)

/-- The kind that a marker stands for. An empty line is an empty context line. -/
def lineKind : List Char → Option PatchLineKind
  | '+' :: _ => some .add
  | '-' :: _ => some .remove
  | ' ' :: _ => some .context
  | [] => some .context
  | _ => none

/-- A line in a hunk that is no header. One that is no hunk line either ends the hunk. -/
def hunkLine (state : PatchState) (hunk : PatchHunk) (line : List Char) :
    Except CoreError PatchState :=
  if line = noNewlineMarker.toList then
    match markLast hunk.lines with
    | some lines => .ok { state with currentHunk := some { hunk with lines } }
    | none => .error (unparsable "'no newline' marker with no preceding line")
  else
    match lineKind line with
    | some kind =>
        let added : PatchLine := { kind, text := String.ofList line.tail, noNewline := false }
        .ok { state with currentHunk := some { hunk with lines := hunk.lines ++ [added] } }
    | none => .ok (flushHunk state)

def step (state : PatchState) (line : List Char) : Except CoreError PatchState :=
  if (stripPrefix "diff --git ".toList line).isSome then
    .ok { flushFile (flushHunk state) with current := some .new }
  else
    match state.current with
    | none => .ok state
    | some file =>
        match header? line with
        | some header => .ok { state with current := some (withHeader file header) }
        | none =>
            if (stripPrefix "@@".toList line).isSome then
              match parseHunkHeader line with
              | none =>
                  .error (unparsable s!"unrecognised hunk header '{String.ofList line}'")
              | some (oldStart, oldLines, newStart, newLines) =>
                  .ok { flushHunk state with
                    currentHunk := some { header := String.ofList line, oldStart, oldLines,
                                          newStart, newLines, lines := [] } }
            else
              match state.currentHunk with
              | none => .ok state
              | some hunk => hunkLine state hunk line

/-- The lines up to the first one over a bound, and whether there is such a line. -/
def run (maxBytes maxLines : Nat) (lineCount : Nat) (state : PatchState) :
    List Bytes → Except CoreError (PatchState × Bool)
  | [] => .ok (state, false)
  | line :: lines =>
      if maxLines < lineCount + 1 || maxBytes < line.length then .ok (state, true)
      else do run maxBytes maxLines (lineCount + 1) (← step state (decodeLine line)) lines

end Patch

def parsePatch (bytes : Bytes) (options : ParsePatchOptions) :
    Except CoreError ParsePatchResult := do
  let maxBytes := options.maxBytes.getD patchMaxBytesPerFile
  let maxLines := options.maxLines.getD patchMaxLinesPerFile
  let start : Patch.PatchState := { files := [], current := none, currentHunk := none }
  let (state, truncated) ← Patch.run maxBytes maxLines 0 start (Patch.splitLines bytes)
  let state := if truncated then state else Patch.flushHunk state
  pure { files := (Patch.flushFile state).files, truncated }

end Refyard
