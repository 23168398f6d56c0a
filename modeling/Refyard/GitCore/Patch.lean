import Refyard.Core.Patch
import Refyard.Foundation.Fallible
import Refyard.Foundation.Sections
import Refyard.Foundation.Utf16
import Refyard.GitCore.Status

/-! The portable core's unified-diff parser. Its texts are sixteen-bit units and its numbers
doubles. The hunk in progress is reported wherever the loop ends. -/
namespace Refyard.GitCore

abbrev Units := List Nat

def literal (text : String) : Units := Utf16.encode text.toList

def patchMaxBytesPerFile : Number := .integer (2 * 1024 * 1024)

def patchMaxLinesPerFile : Number := .integer 20000

/-- `String.fromCodePoint` throws where there is no such code point. -/
inductive PatchError where
  | gitOutputParse (format : String) (message : Units)
  | range
  deriving DecidableEq

structure PatchLine where
  kind : PatchLineKind
  text : Units
  noNewline : Bool
  deriving DecidableEq

structure PatchHunk where
  header : Units
  oldStart : Number
  oldLines : Number
  newStart : Number
  newLines : Number
  lines : List PatchLine
  deriving DecidableEq

inductive FilePatchBody where
  | text (hunks : List PatchHunk)
  | binary
  | submodule (oldOid newOid : Option Units)
  | modeOnly (oldMode newMode : Option Units)
  | unavailable (reason : Units)
  deriving DecidableEq

structure HeaderPaths where
  old : Option Units
  new : Option Units
  deriving DecidableEq

structure ParsedFilePatch where
  headerPaths : HeaderPaths
  oldMode : Option Units
  newMode : Option Units
  isNew : Bool
  isDeleted : Bool
  isRename : Bool
  similarity : Option Number
  body : FilePatchBody
  deriving DecidableEq

structure ParsePatchResult where
  files : List ParsedFilePatch
  truncated : Bool
  deriving DecidableEq

/-- A bound with a fraction is one without it here, as it is compared with integers. -/
structure ParsePatchOptions where
  maxBytes : Option Number
  maxLines : Option Number

structure MutableFile where
  headerPaths : HeaderPaths
  oldMode : Option Units
  newMode : Option Units
  isNew : Bool
  isDeleted : Bool
  isRename : Bool
  similarity : Option Number
  hunks : List PatchHunk
  binary : Bool
  submodule : Bool
  recordedOid : Option Units
  indexOid : Option Units
  unavailableReason : Option Units

def newFile : MutableFile where
  headerPaths := { old := none, new := none }
  oldMode := none
  newMode := none
  isNew := false
  isDeleted := false
  isRename := false
  similarity := none
  hunks := []
  binary := false
  submodule := false
  recordedOid := none
  indexOid := none
  unavailableReason := none

namespace Patch

/-! Lines and their text. -/

/-- The lines of the engine: the empty rest behind the last newline is none. -/
def splitLines (bytes : Bytes) : List Bytes := Refyard.Patch.splitLines bytes

/-- A surrogate stays one, and no text has a code point above the last plane. -/
def fromCodePoint (codePoint : Nat) : Option Units :=
  if codePoint < 0x10000 then some [codePoint]
  else if codePoint ≤ 0x10ffff then
    some [0xd800 + (codePoint - 0x10000) / 0x400, 0xdc00 + (codePoint - 0x10000) % 0x400]
  else none

def replacement : Nat := 0xfffd

def extend (codePoint : Nat) (byte : UInt8) : Nat := Refyard.Patch.extend codePoint byte

def isContinuation (byte : UInt8) : Bool := Refyard.Patch.isContinuation byte

/-- Decodes a line as UTF-8 with replacement. A character that the line's end cuts off ends
the text. -/
def decodeLine : Bytes → Option Units
  | [] => some []
  | first :: rest =>
      let lead := first.toNat
      if lead < 0x80 then (decodeLine rest).map (lead :: ·)
      else if lead / 0x20 = 6 then
        match rest with
        | second :: behind =>
            if isContinuation second then do
              return (← fromCodePoint (extend (lead % 0x20) second)) ++ (← decodeLine behind)
            else (decodeLine (second :: behind)).map (replacement :: ·)
        | _ => some [replacement]
      else if lead / 0x10 = 14 then
        match rest with
        | second :: third :: behind =>
            if isContinuation second && isContinuation third then do
              return (← fromCodePoint (extend (extend (lead % 0x10) second) third)) ++
                (← decodeLine behind)
            else (decodeLine (second :: third :: behind)).map (replacement :: ·)
        | _ => some [replacement]
      else if lead / 8 = 30 then
        match rest with
        | second :: third :: fourth :: behind =>
            if isContinuation second && isContinuation third && isContinuation fourth then do
              return (← fromCodePoint (extend (extend (extend (lead % 8) second) third) fourth)) ++
                (← decodeLine behind)
            else (decodeLine (second :: third :: fourth :: behind)).map (replacement :: ·)
        | _ => some [replacement]
      else (decodeLine rest).map (replacement :: ·)

/-! What the regular expressions match. -/

def isDigit (unit : Nat) : Bool := 0x30 ≤ unit && unit ≤ 0x39

def isHex (unit : Nat) : Bool := isDigit unit || (0x61 ≤ unit && unit ≤ 0x66)

def isDot (unit : Nat) : Bool := unit ≠ 0x0a && unit ≠ 0x0d && unit ≠ 0x2028 && unit ≠ 0x2029

def many (test : Nat → Bool) (text : Units) : Option (Units × Units) :=
  let found := text.takeWhile test
  if found = [] then none else some (found, text.dropWhile test)

/-- `/^([0-9a-f]+)\.\.([0-9a-f]+)(?: (\d+))?$/` behind the header: the mode, when there is one. -/
def indexMode (value : Units) : Option Units := do
  let (_, rest) ← many isHex value
  let (_, rest) ← many isHex (← stripPrefix (literal "..") rest)
  let (mode, rest) ← many isDigit (← stripPrefix (literal " ") rest)
  if rest = [] then some mode else none

/-- `/^[0-9a-f]{40}$|^[0-9a-f]{64}$/`. -/
def isObjectName (text : Units) : Bool :=
  (text.length == 40 || text.length == 64) && text.all isHex

def toNumber (digits : Units) : Number := parseInt (digits.map Char.ofNat)

/-- `(\d+)(?:,(\d+))?`: a count that is absent means one line. -/
def range (text : Units) : Option (Number × Number × Units) := do
  let (start, rest) ← many isDigit text
  match stripPrefix (literal ",") rest with
  | some rest =>
      let (count, rest) ← many isDigit rest
      some (toNumber start, toNumber count, rest)
  | none => some (toNumber start, .integer 1, rest)

/-- `/^@@ -(\d+)(?:,(\d+))? \+(\d+)(?:,(\d+))? @@(.*)$/`. -/
def hunkHeader (line : Units) : Option (Number × Number × Number × Number) := do
  let (oldStart, oldLines, rest) ← range (← stripPrefix (literal "@@ -") line)
  let (newStart, newLines, rest) ← range (← stripPrefix (literal " +") rest)
  let rest ← stripPrefix (literal " @@") rest
  if rest.all isDot then some (oldStart, oldLines, newStart, newLines) else none

/-! Headers. -/

def trim (text : Units) : Units :=
  let isTrimmed (unit : Nat) : Bool := Refyard.isTrimmed (Char.ofNat unit)
  ((text.dropWhile isTrimmed).reverse.dropWhile isTrimmed).reverse

/-- Strips the `a/` or `b/` prefix, and quotes around what is left. -/
def stripPathPrefix (value : Units) : Units :=
  if value = literal "/dev/null" then value
  else
    let withoutPrefix :=
      ((stripPrefix (literal "a/") value).or (stripPrefix (literal "b/") value)).getD value
    if 1 < withoutPrefix.length && withoutPrefix.head? == some 0x22 &&
        withoutPrefix.getLast? == some 0x22 then
      withoutPrefix.tail.dropLast
    else withoutPrefix

inductive Header where
  | index (value : Units)
  | oldMode (value : Units)
  | newMode (value : Units)
  | newFileMode (value : Units)
  | deletedFileMode (value : Units)
  | similarity (value : Units)
  | renameFrom (value : Units)
  | renameTo (value : Units)
  | oldPath (value : Units)
  | newPath (value : Units)
  | binary
  | subproject (value : Units)

def headerTable : List (String × (Units → Header)) :=
  [("index ", .index), ("old mode ", .oldMode), ("new mode ", .newMode),
    ("new file mode ", .newFileMode), ("deleted file mode ", .deletedFileMode),
    ("similarity index ", .similarity), ("rename from ", .renameFrom),
    ("rename to ", .renameTo), ("--- ", .oldPath), ("+++ ", .newPath),
    ("Binary files ", fun _ => .binary), ("GIT binary patch", fun _ => .binary),
    ("Subproject commit ", .subproject)]

def header? (line : Units) : Option Header :=
  headerTable.findSome? fun (start, header) => (stripPrefix (literal start) line).map header

def withHeader (file : MutableFile) : Header → MutableFile
  | .index value =>
      match indexMode value with
      | none => file
      | some mode =>
          { file with oldMode := file.oldMode.or (some mode), newMode := file.newMode.or (some mode) }
  | .oldMode value => { file with oldMode := some (trim value) }
  | .newMode value => { file with newMode := some (trim value) }
  | .newFileMode value => { file with isNew := true, newMode := some (trim value) }
  | .deletedFileMode value => { file with isDeleted := true, oldMode := some (trim value) }
  | .similarity value =>
      { file with
        similarity := (some (toNumber (value.erase 0x25))).filter fun value => value ≠ .nan
        isRename := true }
  | .renameFrom value =>
      { file with isRename := true, headerPaths := { file.headerPaths with old := some value } }
  | .renameTo value =>
      { file with isRename := true, headerPaths := { file.headerPaths with new := some value } }
  | .oldPath value =>
      { file with headerPaths := { file.headerPaths with old := some (stripPathPrefix value) } }
  | .newPath value =>
      { file with headerPaths := { file.headerPaths with new := some (stripPathPrefix value) } }
  | .binary => { file with binary := true }
  | .subproject value =>
      let oid := trim value
      let file := { file with submodule := true }
      if !isObjectName oid then file
      else if file.recordedOid.isNone then { file with recordedOid := some oid }
      else { file with indexOid := some oid }

/-! The loop. -/

structure PatchState where
  files : List ParsedFilePatch
  current : Option MutableFile
  currentHunk : Option PatchHunk

def flushHunk (state : PatchState) : PatchState :=
  match state.current, state.currentHunk with
  | some file, some hunk =>
      { state with current := some { file with hunks := file.hunks ++ [hunk] },
                   currentHunk := none }
  | _, _ => { state with currentHunk := none }

/-- `/^Subproject commit ([0-9a-f]{40}|[0-9a-f]{64})$/`. -/
def submoduleOid (line : PatchLine) : Option Units :=
  (stripPrefix (literal "Subproject commit ") line.text).filter isObjectName

def oidOfKind (kind : PatchLineKind) (lines : List PatchLine) : Option Units :=
  (lines.filter fun line => line.kind == kind).findSome? submoduleOid

def bodyOf (file : MutableFile) : FilePatchBody :=
  if file.binary then .binary
  else if file.submodule || file.oldMode == some (literal "160000") ||
      file.newMode == some (literal "160000") then
    let lines := file.hunks.flatMap PatchHunk.lines
    .submodule (file.recordedOid.or (oidOfKind .remove lines))
      (file.indexOid.or (oidOfKind .add lines))
  else
    match file.unavailableReason with
    | some reason => .unavailable reason
    | none =>
        if file.hunks.isEmpty then .modeOnly file.oldMode file.newMode else .text file.hunks

def parsed (file : MutableFile) : ParsedFilePatch where
  headerPaths := file.headerPaths
  oldMode := file.oldMode
  newMode := file.newMode
  isNew := file.isNew
  isDeleted := file.isDeleted
  isRename := file.isRename
  similarity := file.similarity
  body := bodyOf file

def flushFile (state : PatchState) : PatchState :=
  match state.current with
  | none => state
  | some file => { state with files := state.files ++ [parsed file], current := none }

def unparsable (message : Units) : PatchError := .gitOutputParse "diff patch" message

def markLast : List PatchLine → Option (List PatchLine)
  | [] => none
  | [last] => some [{ last with noNewline := true }]
  | line :: lines => (markLast lines).map (line :: ·)

/-- The kind that a marker stands for. An empty line is an empty context line. -/
def lineKind : Units → Option PatchLineKind
  | 0x2b :: _ => some .add
  | 0x2d :: _ => some .remove
  | 0x20 :: _ => some .context
  | [] => some .context
  | _ => none

/-- A line in a hunk that is no header. One that is no hunk line either ends the hunk. -/
def hunkLine (state : PatchState) (hunk : PatchHunk) (line : Units) :
    Except PatchError PatchState :=
  if line = literal "\\ No newline at end of file" then
    match markLast hunk.lines with
    | some lines => .ok { state with currentHunk := some { hunk with lines } }
    | none => .error (unparsable (literal "'no newline' marker with no preceding line"))
  else
    match lineKind line with
    | some kind =>
        let added : PatchLine := { kind, text := line.tail, noNewline := false }
        .ok { state with currentHunk := some { hunk with lines := hunk.lines ++ [added] } }
    | none => .ok (flushHunk state)

def step (state : PatchState) (line : Units) : Except PatchError PatchState :=
  if (stripPrefix (literal "diff --git ") line).isSome then
    .ok { flushFile (flushHunk state) with current := some newFile }
  else
    match state.current with
    | none => .ok state
    | some file =>
        match header? line with
        | some header => .ok { state with current := some (withHeader file header) }
        | none =>
            if (stripPrefix (literal "@@") line).isSome then
              match hunkHeader line with
              | none =>
                  .error (unparsable (literal "unrecognised hunk header '" ++ line ++ literal "'"))
              | some (oldStart, oldLines, newStart, newLines) =>
                  .ok { flushHunk state with
                    currentHunk := some { header := line, oldStart, oldLines, newStart, newLines,
                                          lines := [] } }
            else
              match state.currentHunk with
              | none => .ok state
              | some hunk => hunkLine state hunk line

def exceeds (count : Nat) : Number → Bool
  | .nan => false
  | .infinity negative => negative
  | .integer value => value < count

def readLine (state : PatchState) (bytes : Bytes) : Except PatchError PatchState :=
  match decodeLine bytes with
  | none => .error .range
  | some line => step state line

/-- The lines up to the first one over a bound, and whether there is such a line. -/
def run (maxBytes maxLines : Number) (lineCount : Nat) (state : PatchState) :
    List Bytes → Except PatchError (PatchState × Bool)
  | [] => .ok (state, false)
  | line :: lines =>
      if exceeds (lineCount + 1) maxLines || exceeds line.length maxBytes then .ok (state, true)
      else do run maxBytes maxLines (lineCount + 1) (← readLine state line) lines

end Patch

def parsePatch (bytes : Bytes) (options : ParsePatchOptions) :
    Except PatchError ParsePatchResult := do
  let maxBytes := options.maxBytes.getD patchMaxBytesPerFile
  let maxLines := options.maxLines.getD patchMaxLinesPerFile
  let start : Patch.PatchState := { files := [], current := none, currentHunk := none }
  let (state, truncated) ← Patch.run maxBytes maxLines 0 start (Patch.splitLines bytes)
  pure { files := (Patch.flushFile (Patch.flushHunk state)).files, truncated }

/-! The result in sections: each file is one, each hunk a group of its lines. -/
namespace Patch

def holding (file : MutableFile) (hunks : List PatchHunk) : MutableFile := { file with hunks }

variable (file : MutableFile) (files : List ParsedFilePatch)
  {last : Sections.State MutableFile PatchHunk ParsedFilePatch}

theorem hunks_withHeader (header : Header) : (withHeader file header).hunks = file.hunks := by
  cases header with
  | index value => cases matched : indexMode value <;> simp [withHeader, matched]
  | subproject value =>
    unfold withHeader
    dsimp only
    split
    · rfl
    · split <;> rfl
  | _ => rfl

theorem withHeader_holding (hunks : List PatchHunk) (header : Header) :
    withHeader (holding file hunks) header = holding (withHeader file header) hunks := by
  cases header with
  | index value => cases matched : indexMode value <;> simp [withHeader, holding, matched]
  | subproject value =>
    unfold withHeader holding
    dsimp only
    split
    · rfl
    · split <;> rfl
  | _ => rfl

def filing : Sections.Filing MutableFile Header PatchHunk ParsedFilePatch where
  new := newFile
  tell := withHeader
  held := MutableFile.hunks
  holding := holding
  shut := parsed
  held_new := rfl
  held_tell := hunks_withHeader
  tell_holding := withHeader_holding
  held_holding := fun _ _ => rfl
  holding_holding := fun _ _ _ => rfl
  holding_held := fun _ => rfl

abbrev reading : Sections.Reading MutableFile Header PatchHunk ParsedFilePatch := filing.asReading

def flat (state : PatchState) : Sections.Flat MutableFile PatchHunk ParsedFilePatch :=
  ⟨state.files, state.current, state.currentHunk⟩

def sections (state : PatchState) : Sections.State MutableFile PatchHunk ParsedFilePatch :=
  filing.view (flat state)

variable (state : PatchState) (bytes : Bytes) {options : ParsePatchOptions}

theorem flat_flushHunk : flat (flushHunk state) = filing.flushGroup (flat state) := by
  obtain ⟨files, _ | file, _ | hunk⟩ := state <;> rfl

theorem flat_flushFile : flat (flushFile state) = filing.shutFile (flat state) := by
  obtain ⟨files, _ | file, hunk⟩ := state <;> rfl

def marked (hunk : PatchHunk) : Option PatchHunk :=
  (markLast hunk.lines).map fun lines => { hunk with lines }

def added (kind : PatchLineKind) (line : Units) (hunk : PatchHunk) : PatchHunk :=
  { hunk with lines := hunk.lines ++ [{ kind, text := line.tail, noNewline := false }] }

def isFileLine (line : Units) : Bool := (stripPrefix (literal "diff --git ") line).isSome

def hunkAct (line : Units) : Sections.Inner PatchHunk :=
  if line = literal "\\ No newline at end of file" then .line marked
  else
    match lineKind line with
    | some kind => .line fun hunk => some (added kind line hunk)
    | none => .ends

def textAct (line : Units) : Sections.Act Header PatchHunk :=
  if isFileLine line then .opens
  else
    match header? line with
    | some header => .header header
    | none =>
        if (stripPrefix (literal "@@") line).isSome then
          match hunkHeader line with
          | none => .inner .refused
          | some (oldStart, oldLines, newStart, newLines) =>
              .inner (.group { header := line, oldStart, oldLines, newStart, newLines, lines := [] })
        else .inner (hunkAct line)

def lineAct (bytes : Bytes) : Sections.Act Header PatchHunk :=
  match decodeLine bytes with
  | none => .fails
  | some line => textAct line

theorem textAct_inside {line : Units} (inside : isFileLine line = false) :
    textAct line ≠ .opens ∧ textAct line ≠ .fails := by
  unfold textAct
  rw [inside, if_neg Bool.false_ne_true]
  repeat' split
  all_goals exact ⟨nofun, nofun⟩

theorem hunkLine_flat (file : MutableFile) (hunk : PatchHunk) (line : Units) :
    (hunkLine ⟨files, some file, some hunk⟩ hunk line).toOption.map flat =
      filing.step ⟨files, some file, some hunk⟩ (.inner (hunkAct line)) := by
  unfold hunkLine hunkAct
  split
  · change _ = ((marked hunk).map _)
    unfold marked
    cases markLast hunk.lines <;> rfl
  · cases lineKind line <;> rfl

theorem hunkAct_none (file : MutableFile) (line : Units) :
    filing.step ⟨files, some file, none⟩ (.inner (hunkAct line)) = some ⟨files, some file, none⟩ := by
  unfold hunkAct
  split
  · rfl
  · cases lineKind line <;> rfl

theorem step_flat (line : Units) :
    (step state line).toOption.map flat = filing.step (flat state) (textAct line) := by
  obtain ⟨files, current, hunk⟩ := state
  cases opens : isFileLine line with
  | true =>
    have act : textAct line = .opens := if_pos opens
    have stepped : step ⟨files, current, hunk⟩ line =
        .ok { flushFile (flushHunk ⟨files, current, hunk⟩) with current := some newFile } :=
      if_pos opens
    rw [act, stepped]
    cases current <;> cases hunk <;> rfl
  | false =>
    cases current with
    | none =>
      have stepped : step ⟨files, none, hunk⟩ line = .ok ⟨files, none, hunk⟩ :=
        if_neg (Bool.eq_false_iff.mp opens)
      obtain ⟨no_file, fine⟩ := textAct_inside opens
      rw [stepped]
      cases kind : textAct line with
      | fails => exact absurd kind fine
      | opens => exact absurd kind no_file
      | header | inner => rfl
    | some file =>
      unfold step textAct
      unfold isFileLine at opens ⊢
      rw [opens, if_neg Bool.false_ne_true, if_neg Bool.false_ne_true]
      cases header? line with
      | some header => rfl
      | none =>
        dsimp only
        split
        · cases hunkHeader line with
          | none => rfl
          | some numbers =>
            obtain ⟨oldStart, oldLines, newStart, newLines⟩ := numbers
            cases hunk <;> rfl
        · cases hunk with
          | some hunk => exact hunkLine_flat files file hunk line
          | none => exact (hunkAct_none files file line).symm

theorem readLine_sections (bytes : Bytes) : (readLine state bytes).toOption.map sections =
      Sections.step reading (sections state) (lineAct bytes) := by
  rw [sections, ← Sections.Filing.view_step]
  unfold readLine lineAct
  cases decodeLine bytes with
  | none =>
    obtain ⟨files, _ | file, hunk⟩ := state <;> rfl
  | some line =>
    rw [← step_flat, Option.map_map]
    rfl

theorem finish_sections :
    Sections.finish reading (sections state) = (flushFile (flushHunk state)).files := by
  rw [sections, Sections.Filing.finish_view, ← flat_flushHunk, ← flat_flushFile]
  rfl

def maxBytesOf (options : ParsePatchOptions) : Number := options.maxBytes.getD patchMaxBytesPerFile

def maxLinesOf (options : ParsePatchOptions) : Number := options.maxLines.getD patchMaxLinesPerFile

def beyond (options : ParsePatchOptions) (lineCount : Nat) (line : Bytes) : Bool :=
  exceeds lineCount (maxLinesOf options) || exceeds line.length (maxBytesOf options)

def acts (lines : List Bytes) : List (Sections.Act Header PatchHunk) := lines.map lineAct

def cutAt (bytes : Bytes) (options : ParsePatchOptions) : List Bytes × List Bytes :=
  Sections.cutLines (beyond options) 0 (splitLines bytes)

theorem cutAt_append (options : ParsePatchOptions) :
    (cutAt bytes options).1 ++ (cutAt bytes options).2 = splitLines bytes :=
  Sections.cutLines_append 0 (splitLines bytes)

theorem cutAt_nan : cutAt bytes ⟨some .nan, some .nan⟩ = (splitLines bytes, []) :=
  Sections.cutLines_within fun _ _ _ _ => rfl

theorem run_eq_loop (options : ParsePatchOptions) (lineCount : Nat) (state : PatchState)
    (lines : List Bytes) : run (maxBytesOf options) (maxLinesOf options) lineCount state lines =
      Sections.loop readLine (beyond options) lineCount state lines := by
  induction lines generalizing lineCount state with
  | nil => rfl
  | cons line lines ih =>
    unfold run Sections.loop
    rw [← beyond]
    split
    · rfl
    · exact congrArg _ (funext fun next => ih (lineCount + 1) next)

theorem run_sections (options : ParsePatchOptions) (state : PatchState) (lines : List Bytes) :
    (run (maxBytesOf options) (maxLinesOf options) 0 state lines).toOption.map
        (fun result => (sections result.1, result.2)) = (Sections.run reading (sections state)
        (acts (Sections.cutLines (beyond options) 0 lines).1)).map fun last =>
          (last, !(Sections.cutLines (beyond options) 0 lines).2.isEmpty) := by
  rw [run_eq_loop]
  exact Sections.loop_sections readLine_sections 0 state lines

def nothing : Sections.State MutableFile PatchHunk ParsedFilePatch := ⟨[], none⟩

theorem parsePatch_sections (options : ParsePatchOptions) : (parsePatch bytes options).toOption =
      (Sections.run reading nothing (acts (cutAt bytes options).1)).map fun last =>
        ⟨Sections.finish reading last, !(cutAt bytes options).2.isEmpty⟩ := by
  have ran := run_sections options ⟨[], none, none⟩ (splitLines bytes)
  have result := congrArg (Option.map fun found => ParsePatchResult.mk
    (Sections.finish reading found.1) found.2) ran
  rw [Option.map_map, Option.map_map] at result
  refine Eq.trans ?_ result
  unfold parsePatch
  rw [toOption_bind, Option.map_eq_bind]
  apply congrArg (Option.bind _)
  funext read
  exact congrArg (fun files => some (ParsePatchResult.mk files read.2)) (finish_sections read.1).symm

/-! The hunks that are reported. -/

def isText (known : MutableFile) : Bool :=
  !known.binary && !known.submodule && known.oldMode != some (literal "160000") &&
    known.newMode != some (literal "160000") && known.unavailableReason.isNone

def hunksOf (file : ParsedFilePatch) : List PatchHunk :=
  match file.body with
  | .text hunks => hunks
  | _ => []

def hunkAt (result : ParsePatchResult) (file place : Nat) : Option PatchHunk :=
  Sections.groupAt hunksOf result.files file place

structure Counted (hunk : PatchHunk) : Prop where
  old : hunk.oldLines = .integer (hunk.lines.countP fun line => line.kind ≠ .add)
  new : hunk.newLines = .integer (hunk.lines.countP fun line => line.kind ≠ .remove)

/-- No hunk of a truncated result is a part of one: each has the lines that its header counts, and
is there in the whole patch. -/
structure ShowsWholeHunks (bytes : Bytes) (result : ParsePatchResult) : Prop where
  counted : result.truncated = true → ∀ file ∈ result.files, ∀ hunk ∈ hunksOf file, Counted hunk
  whole : ∀ wide all, parsePatch bytes wide = .ok all → all.truncated = false →
    ∀ file place hunk, hunkAt result file place = some hunk → hunkAt all file place = some hunk

/-- The lines that go into a hunk, told by the text behind its header. -/
def hunkKinds : List Bytes → List PatchLineKind
  | [] => []
  | line :: lines =>
      match lineAct line with
      | .header _ => hunkKinds lines
      | .inner (.line _) => ((decodeLine line).bind lineKind).toList ++ hunkKinds lines
      | _ => []

/-- The text behind a hunk's header has as many lines for it as the header counts. -/
structure Filled (header : PatchHunk) (lines : List Bytes) : Prop where
  old : header.oldLines = .integer ((hunkKinds lines).countP fun kind => kind ≠ .add)
  new : header.newLines = .integer ((hunkKinds lines).countP fun kind => kind ≠ .remove)

/-- A cut of a text that is not inside a hunk which is shown: the headers of hunks above it, in files
whose body is text, are followed by their lines, and what is below changes neither the hunk nor the
file that is open there. -/
structure BetweenHunks (above below : List Bytes) : Prop where
  filled : ∀ before opener inside header empty behind,
    above = before ++ opener :: (inside ++ header :: behind) → lineAct opener = .opens →
      (∀ line ∈ inside, lineAct line ≠ .opens) → lineAct header = .inner (.group empty) →
        isText (Sections.told reading reading.new (acts (inside ++ header :: behind))) = true →
          Filled empty behind
  stays : ∀ last, Sections.run reading nothing (acts above) = some last →
    ∀ known groups, last.current = some (known, groups) → isText known = true →
      groups.all ≠ [] → (Sections.run reading last (acts below)).isSome →
        isText (Sections.told reading known (acts below)) = true ∧
          ∀ hunk, groups.growing = some hunk → Sections.grown hunk (acts below) = some hunk

theorem hunksOf_shut (known : MutableFile) (hunks : List PatchHunk) :
    hunksOf (reading.shut known hunks) = if isText known then hunks else [] := by
  obtain ⟨_, oldMode, newMode, _, _, _, _, _, binary, submodule, _, _, reason⟩ := known
  change hunksOf (parsed (holding _ hunks)) = _
  unfold hunksOf holding parsed bodyOf isText
  cases binary
  · cases submodule
    · by_cases old : oldMode = some (literal "160000")
      · simp [old]
      · by_cases new : newMode = some (literal "160000")
        · simp [new]
        · cases reason <;> cases hunks <;> simp [old, new]
    · simp
  · simp

theorem parsePatch_ok {bytes : Bytes} {result : ParsePatchResult} :
    parsePatch bytes options = .ok result ↔
      ∃ last, Sections.run reading nothing (acts (cutAt bytes options).1) = some last ∧
        result = ⟨Sections.finish reading last, !(cutAt bytes options).2.isEmpty⟩ := by
  rw [← toOption_eq_some, parsePatch_sections, Option.map_eq_some_iff]
  exact exists_congr fun last => and_congr_right fun _ => eq_comm

theorem whole_of_cut {bytes : Bytes} {all : ParsePatchResult}
    (ran : Sections.run reading nothing (acts (cutAt bytes options).1) = some last) :
    (∃ wide, parsePatch bytes wide = .ok all ∧ all.truncated = false) ↔
      ∃ final, Sections.run reading last (acts (cutAt bytes options).2) = some final ∧
        all = ⟨Sections.finish reading final, false⟩ := by
  have joined : Sections.run reading nothing (acts (splitLines bytes)) =
      Sections.run reading last (acts (cutAt bytes options).2) := by
    rw [← cutAt_append bytes options, acts, List.map_append, Sections.run_append]
    change (Sections.run reading nothing (acts (cutAt bytes options).1)).bind _ = _
    rw [ran]
    rfl
  constructor
  · rintro ⟨wide, whole, complete⟩
    obtain ⟨final, through, rfl⟩ := parsePatch_ok.mp whole
    have uncut : (cutAt bytes wide).2 = [] := by simpa using complete
    have lines : (cutAt bytes wide).1 = splitLines bytes := by
      rw [← cutAt_append bytes wide, uncut, List.append_nil]
    rw [lines, joined] at through
    exact ⟨final, through, by rw [uncut]; rfl⟩
  · rintro ⟨final, through, rfl⟩
    refine ⟨⟨some .nan, some .nan⟩, parsePatch_ok.mpr ⟨final, ?_, ?_⟩, rfl⟩
    · rw [cutAt_nan, joined, through]
    · rw [cutAt_nan]
      rfl

theorem kinds_markLast {lines marked : List PatchLine} (found : markLast lines = some marked) :
    marked.map PatchLine.kind = lines.map PatchLine.kind := by
  induction lines generalizing marked with
  | nil => cases found
  | cons line lines ih =>
    cases lines with
    | nil =>
      cases found
      rfl
    | cons next lines =>
      obtain ⟨rest, later, rfl⟩ := Option.map_eq_some_iff.mp found
      exact congrArg (line.kind :: ·) (ih later)

theorem textAct_inner {line : Units} {inner : Sections.Inner PatchHunk}
    (act : textAct line = .inner inner) : inner = hunkAct line ∨ inner = .refused ∨
      ∃ empty, inner = .group empty ∧ empty.lines = [] := by
  unfold textAct at act
  split at act
  · cases act
  · split at act
    · cases act
    · split at act
      · split at act
        · cases act
          exact .inr (.inl rfl)
        · cases act
          exact .inr (.inr ⟨_, rfl, rfl⟩)
      · cases act
        exact .inl rfl

theorem lineAct_line {line : Bytes} {change : PatchHunk → Option PatchHunk}
    (act : lineAct line = .inner (.line change)) {hunk next : PatchHunk}
    (changes : change hunk = some next) : next.oldLines = hunk.oldLines ∧
      next.newLines = hunk.newLines ∧ next.lines.map PatchLine.kind =
        hunk.lines.map PatchLine.kind ++ ((decodeLine line).bind lineKind).toList := by
  unfold lineAct at act
  split at act
  · cases act
  · next text decodes =>
    rw [decodes, Option.bind_some]
    obtain same | refused | ⟨empty, group, -⟩ := textAct_inner act
    · unfold hunkAct at same
      split at same
      · next marker =>
        cases same
        obtain ⟨lines, marks, rfl⟩ := Option.map_eq_some_iff.mp changes
        have kind : lineKind text = none := by
          rw [marker]
          rfl
        exact ⟨rfl, rfl, by rw [kind, kinds_markLast marks, Option.toList_none, List.append_nil]⟩
      · split at same
        · next kind found =>
          cases same
          cases changes
          rw [found]
          exact ⟨rfl, rfl, List.map_append⟩
        · cases same
    · cases refused
    · cases group

theorem grown_kinds {lines : List Bytes} {hunk full : PatchHunk}
    (grew : Sections.grown hunk (acts lines) = some full) : full.oldLines = hunk.oldLines ∧
      full.newLines = hunk.newLines ∧
        full.lines.map PatchLine.kind = hunk.lines.map PatchLine.kind ++ hunkKinds lines := by
  induction lines generalizing hunk with
  | nil =>
    cases grew
    exact ⟨rfl, rfl, (List.append_nil _).symm⟩
  | cons line lines ih =>
    unfold hunkKinds
    change Sections.grown hunk (lineAct line :: acts lines) = some full at grew
    cases act : lineAct line with
    | fails =>
      rw [act] at grew
      cases grew
    | opens =>
      rw [act] at grew
      cases grew
      exact ⟨rfl, rfl, (List.append_nil _).symm⟩
    | header value =>
      rw [act] at grew
      exact ih grew
    | inner inner =>
      rw [act] at grew
      cases inner with
      | line change =>
        obtain ⟨next, changes, later⟩ := Option.bind_eq_some_iff.mp grew
        obtain ⟨old, new, kinds⟩ := lineAct_line act changes
        obtain ⟨sameOld, sameNew, behind⟩ := ih later
        exact ⟨sameOld.trans old, sameNew.trans new,
          by rw [behind, kinds, List.append_assoc]⟩
      | _ =>
        cases grew
        exact ⟨rfl, rfl, (List.append_nil _).symm⟩

theorem lineAct_group {line : Bytes} {empty : PatchHunk}
    (act : lineAct line = .inner (.group empty)) : empty.lines = [] := by
  unfold lineAct at act
  split at act
  · cases act
  · next text decodes =>
    obtain same | refused | ⟨header, group, nothing⟩ := textAct_inner act
    · unfold hunkAct at same
      split at same
      · cases same
      · split at same <;> cases same
    · cases refused
    · cases group
      exact nothing

theorem counted_grown {lines : List Bytes} {header hunk : PatchHunk}
    (empty : header.lines = []) (grew : Sections.grown header (acts lines) = some hunk) :
    Counted hunk ↔ Filled header lines := by
  obtain ⟨old, new, kinds⟩ := grown_kinds grew
  rw [empty, List.map_nil, List.nil_append] at kinds
  have count (test : PatchLineKind → Bool) :
      (hunk.lines.countP fun line => test line.kind) = (hunkKinds lines).countP test := by
    rw [← kinds, List.countP_map]
    rfl
  constructor
  · rintro ⟨counts_old, counts_new⟩
    exact ⟨by rw [← old, counts_old, count fun kind => kind ≠ .add],
      by rw [← new, counts_new, count fun kind => kind ≠ .remove]⟩
  · rintro ⟨fills_old, fills_new⟩
    exact ⟨by rw [old, fills_old, count fun kind => kind ≠ .add],
      by rw [new, fills_new, count fun kind => kind ≠ .remove]⟩

theorem counted_iff {lines : List Bytes}
    (ran : Sections.run reading nothing (acts lines) = some last) :
    (∀ file ∈ Sections.finish reading last, ∀ hunk ∈ hunksOf file, Counted hunk) ↔
      ∀ before opener inside header empty behind,
        lines = before ++ opener :: (inside ++ header :: behind) → lineAct opener = .opens →
          (∀ line ∈ inside, lineAct line ≠ .opens) → lineAct header = .inner (.group empty) →
            isText (Sections.told reading reading.new (acts (inside ++ header :: behind))) = true →
              Filled empty behind := by
  constructor
  · rintro counted before opener inside header empty behind rfl opens closed act text
    have opened : acts (before ++ opener :: (inside ++ header :: behind)) =
        acts before ++ .opens :: acts (inside ++ header :: behind) := by
      rw [acts, List.map_append, List.map_cons, opens]
      rfl
    have begun : acts (inside ++ header :: behind) =
        acts inside ++ .inner (.group empty) :: acts behind := by
      rw [acts, List.map_append, List.map_cons, act]
      rfl
    rw [opened] at ran
    obtain ⟨shut, whole, more, gathers, shown⟩ := Sections.finish_of_opens ran
    have shows : ∀ hunk ∈ whole, Counted hunk := by
      have each := counted (reading.shut _ whole)
        (shown ▸ List.mem_append_right _ List.mem_cons_self)
      rwa [hunksOf_shut, if_pos text] at each
    have inner : .opens ∉ acts inside := by
      intro member
      obtain ⟨line, listed, other⟩ := List.mem_map.mp member
      exact closed line listed other
    rw [begun] at gathers
    obtain ⟨hunk, grew⟩ := Sections.exists_grown gathers inner
    have listed := (Sections.mem_gathered gathers).mpr (.inr (.inr ⟨_, _, _, rfl, inner, grew⟩))
    exact (counted_grown (lineAct_group act) grew).mp (shows hunk listed)
  · intro filled file member hunk shown
    obtain shut | ⟨known, groups, whole, current, -, -⟩ | ⟨front, back, whole, cut, gathers, rfl⟩ :=
      Sections.mem_finish ran member
    · cases shut
    · cases current
    · rw [hunksOf_shut, List.mem_ite_nil_right] at shown
      obtain ⟨text, shown⟩ := shown
      obtain done | ⟨begun, growing, -⟩ | ⟨inside, empty, behind, begins, closed, grew⟩ :=
        (Sections.mem_gathered gathers).mp shown
      · cases done
      · cases growing
      · subst begins
        obtain ⟨before, opened, rfl, rfl, opening⟩ := List.map_eq_append_iff.mp cut
        obtain ⟨opener, later, rfl, opens, inner⟩ := List.map_eq_cons_iff.mp opening
        obtain ⟨within, begun, rfl, rfl, beginning⟩ := List.map_eq_append_iff.mp inner
        obtain ⟨header, rest, rfl, act, rfl⟩ := List.map_eq_cons_iff.mp beginning
        rw [counted_grown (lineAct_group act) grew]
        refine filled before opener within header empty rest rfl opens ?_ act ?_
        · intro line listed other
          exact closed (List.mem_map.mpr ⟨line, listed, other⟩)
        · rwa [acts, inner]

theorem whole_iff {bytes : Bytes}
    (ran : Sections.run reading nothing (acts (cutAt bytes options).1) = some last)
    (truncated : Bool) : (∀ wide all, parsePatch bytes wide = .ok all → all.truncated = false →
      ∀ file place hunk, hunkAt ⟨Sections.finish reading last, truncated⟩ file place = some hunk →
        hunkAt all file place = some hunk) ↔
    ∀ known groups, last.current = some (known, groups) → isText known = true →
      groups.all ≠ [] → (Sections.run reading last (acts (cutAt bytes options).2)).isSome →
        isText (Sections.told reading known (acts (cutAt bytes options).2)) = true ∧
          ∀ hunk, groups.growing = some hunk →
            Sections.grown hunk (acts (cutAt bytes options).2) = some hunk := by
  constructor
  · intro kept known groups current text some_hunk through
    obtain ⟨final, through⟩ := Option.isSome_iff_exists.mp through
    obtain ⟨wide, whole, complete⟩ := (whole_of_cut ran).mpr ⟨final, through, rfl⟩
    obtain ⟨still, begins⟩ := (Sections.kept_iff hunksOf_shut through).mp (kept wide _ whole complete)
      known groups current text some_hunk
    obtain ⟨full, gathers⟩ := Sections.exists_gathered current through
    exact ⟨still, (Sections.all_prefix_iff gathers).mp (begins full gathers)⟩
  · intro stays wide all whole complete
    obtain ⟨final, through, rfl⟩ := (whole_of_cut ran).mp ⟨wide, whole, complete⟩
    refine (Sections.kept_iff hunksOf_shut through).mpr fun known groups current text some_hunk => ?_
    obtain ⟨still, unchanged⟩ := stays known groups current text some_hunk
      (Option.isSome_iff_exists.mpr ⟨final, through⟩)
    exact ⟨still, fun full gathers => (Sections.all_prefix_iff gathers).mpr unchanged⟩

/-- The hunk in progress is reported at a cut too, so a patch shows whole hunks exactly where it is
not truncated or the cut is between them. -/
theorem showsWholeHunks_iff {bytes : Bytes} {options : ParsePatchOptions}
    {result : ParsePatchResult} (parsed : parsePatch bytes options = .ok result) :
    ShowsWholeHunks bytes result ↔ (result.truncated = true →
      BetweenHunks (cutAt bytes options).1 (cutAt bytes options).2) := by
  obtain ⟨last, ran, rfl⟩ := parsePatch_ok.mp parsed
  have shown := whole_iff ran
  constructor
  · intro shows truncated
    refine ⟨(counted_iff ran).mp (shows.counted truncated), fun other same => ?_⟩
    cases ran.symm.trans same
    exact (shown _).mp shows.whole
  · intro between
    refine ⟨fun truncated => (counted_iff ran).mpr (between truncated).filled, (shown _).mpr ?_⟩
    cases cut : (cutAt bytes options).2 with
    | nil =>
      intro known groups _ text _ _
      exact ⟨text, fun hunk _ => rfl⟩
    | cons line rest =>
      rw [cut] at between
      exact (between rfl).stays last ran

def twoLines : Bytes := "diff --git \n@@ -1 +1 @@\n-a\n+b\n".toUTF8.toList

def firstLine : PatchHunk where
  header := literal "@@ -1 +1 @@"
  oldStart := .integer 1
  oldLines := .integer 1
  newStart := .integer 1
  newLines := .integer 1
  lines := [⟨.remove, literal "a", false⟩]

def ofTwoLines : ParsePatchResult := ⟨[Patch.parsed { newFile with hunks := [firstLine] }], true⟩

theorem parsePatch_twoLines : parsePatch twoLines ⟨none, some (.integer 3)⟩ = .ok ofTwoLines := by
  unfold twoLines
  rw [toList_toUTF8, String.toList_ofList]
  decide +kernel

theorem not_showsWholeHunks_twoLines :
    parsePatch twoLines ⟨none, some (.integer 3)⟩ = .ok ofTwoLines ∧ ofTwoLines.truncated = true ∧
      ¬ShowsWholeHunks twoLines ofTwoLines := by
  refine ⟨parsePatch_twoLines, rfl, fun shows => ?_⟩
  have counted := (shows.counted rfl _ List.mem_cons_self firstLine List.mem_cons_self).new
  revert counted
  decide +kernel

theorem showsWholeHunks_twoLines : ShowsWholeHunks twoLines ofTwoLines ↔
    (ofTwoLines.truncated = true → BetweenHunks (cutAt twoLines ⟨none, some (.integer 3)⟩).1
      (cutAt twoLines ⟨none, some (.integer 3)⟩).2) :=
  showsWholeHunks_iff parsePatch_twoLines

end Patch

end Refyard.GitCore
