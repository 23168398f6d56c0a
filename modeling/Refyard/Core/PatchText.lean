import Refyard.Core.Patch

/-! Unified diffs as Git renders them, and the lines that the parser sees of one. -/
namespace Refyard

abbrev OneLine := { text : List Char // '\n' ∉ text }

def OneLine.empty : OneLine := ⟨[], List.not_mem_nil⟩

/-- One line of a hunk, with or without the marker that its newline is missing. -/
structure GitLine where
  kind : PatchLineKind
  text : OneLine
  noNewline : Bool

/-- A hunk. `context` is what Git prints behind the second `@@`. -/
structure GitHunk where
  oldStart : UInt64
  newStart : UInt64
  context : OneLine
  lines : List GitLine
  fits : lines.length < 2 ^ 64

/-- A path behind `---` or `+++`, as far as it is printed: a path with a space ends with a
tab, and one with an unusual byte is escaped and quoted. -/
inductive PathToken where
  | devNull
  | bare (path : OneLine) (plain : '"' ∉ path.1)
  | quoted (path : OneLine) (tab : Bool)

abbrev ModeText := { mode : List Char // mode ≠ [] ∧ ∀ char ∈ mode, char.isDigit = true }

abbrev Abbreviation :=
  { name : List Char // name ≠ [] ∧ ∀ char ∈ name, char.isDigit = true ∨ ('a' ≤ char ∧ char ≤ 'f') }

inductive ModeHeader where
  | unchanged
  | changed (old new : ModeText)
  | created (mode : ModeText)
  | deleted (mode : ModeText)

inductive MoveHeader where
  | stays
  | rewritten (dissimilarity : Fin 101)
  | renamed (similarity : Fin 101) (source target : OneLine)
  | copied (similarity : Fin 101) (source target : OneLine)

/-- The line with the object names. It shows the mode only when the mode is unchanged. -/
inductive IndexHeader where
  | absent
  | bare (old new : Abbreviation)
  | withMode (old new : Abbreviation) (mode : ModeText)

/-- A submodule's commit on one side, and whether its work tree has changes of its own. -/
structure GitlinkSide where
  oid : ObjectName
  dirty : Bool

inductive BinaryLine where
  | size (delta : Bool) (bytes : Nat)
  | data (text : OneLine) (noSpace : ' ' ∉ text.1) (noHunk : text.1.head? ≠ some '@')

inductive GitContent where
  | nothing
  | binary (names : OneLine)
  | binaryPatch (lines : List BinaryLine)
  | text (old new : PathToken) (hunks : List GitHunk) (some_hunk : hunks ≠ [])
  | gitlink (old new : PathToken) (before after : Option GitlinkSide)

def ModeHeader.old : ModeHeader → Option ModeText
  | .changed old _ => some old
  | .deleted mode => some mode
  | _ => none

def ModeHeader.new : ModeHeader → Option ModeText
  | .changed _ new => some new
  | .created mode => some mode
  | _ => none

def IndexHeader.mode : IndexHeader → Option ModeText
  | .withMode _ _ mode => some mode
  | _ => none

def ModeText.text (mode : ModeText) : String := String.ofList mode.1

def GitContent.Suits (content : GitContent) (gitlink : Bool) : Prop :=
  match content with
  | .gitlink .. => gitlink = true
  | .nothing => gitlink = false
  | .text .. => gitlink = false
  | _ => True

structure GitFilePatch where
  names : OneLine
  modes : ModeHeader
  move : MoveHeader
  index : IndexHeader
  content : GitContent
  modeOnce : index.mode.isSome → modes = .unchanged
  suits : content.Suits
    (((modes.old.or index.mode).map ModeText.text == some "160000") ||
      ((modes.new.or index.mode).map ModeText.text == some "160000"))

/-! The rendering. -/

def percentText (percent : Fin 101) : List Char := (decimalText percent).toList ++ ['%']

def ModeHeader.lines : ModeHeader → List (List Char)
  | .unchanged => []
  | .changed old new => ["old mode ".toList ++ old.1, "new mode ".toList ++ new.1]
  | .created mode => ["new file mode ".toList ++ mode.1]
  | .deleted mode => ["deleted file mode ".toList ++ mode.1]

def MoveHeader.lines : MoveHeader → List (List Char)
  | .stays => []
  | .rewritten percent => ["dissimilarity index ".toList ++ percentText percent]
  | .renamed percent source target =>
      ["similarity index ".toList ++ percentText percent, "rename from ".toList ++ source.1,
        "rename to ".toList ++ target.1]
  | .copied percent source target =>
      ["similarity index ".toList ++ percentText percent, "copy from ".toList ++ source.1,
        "copy to ".toList ++ target.1]

def IndexHeader.lines : IndexHeader → List (List Char)
  | .absent => []
  | .bare old new => ["index ".toList ++ (old.1 ++ "..".toList ++ new.1)]
  | .withMode old new mode =>
      ["index ".toList ++ (old.1 ++ "..".toList ++ new.1 ++ ' ' :: mode.1)]

def BinaryLine.line : BinaryLine → List Char
  | .size delta bytes =>
      (if delta then "delta ".toList else "literal ".toList) ++ (decimalText bytes).toList
  | .data text _ _ => text.1

def devNullText : List Char := "/dev/null".toList

def PathToken.render (side : String) : PathToken → List Char
  | .devNull => devNullText
  | .bare path _ => side.toList ++ path.1
  | .quoted path tab =>
      '"' :: (side.toList ++ path.1 ++ '"' :: if tab then ['\t'] else [])

def marker : PatchLineKind → Char
  | .context => ' '
  | .add => '+'
  | .remove => '-'

def GitLine.lines (line : GitLine) : List (List Char) :=
  (marker line.kind :: line.text.1) ::
    if line.noNewline then ["\\ No newline at end of file".toList] else []

def GitHunk.oldLines (hunk : GitHunk) : Nat := hunk.lines.countP fun line => line.kind ≠ .add

def GitHunk.newLines (hunk : GitHunk) : Nat := hunk.lines.countP fun line => line.kind ≠ .remove

def countText (count : Nat) : List Char :=
  if count = 1 then [] else ',' :: (decimalText count).toList

def GitHunk.ranges (hunk : GitHunk) : List Char :=
  "@@ -".toList ++ ((decimalText hunk.oldStart.toNat).toList ++ (countText hunk.oldLines ++
    (" +".toList ++ ((decimalText hunk.newStart.toNat).toList ++ (countText hunk.newLines ++
      " @@".toList)))))

def GitHunk.header (hunk : GitHunk) : List Char := hunk.ranges ++ hunk.context.1

def GitHunk.allLines (hunk : GitHunk) : List (List Char) :=
  hunk.header :: hunk.lines.flatMap GitLine.lines

theorem newline_notMem_objectText (oid : ObjectName) : '\n' ∉ oid.text.toList := by
  rw [ObjectName.text, toList_asciiText, List.mem_map]
  rintro ⟨byte, member, same⟩
  have newline : byte = 0x0a := by rw [← charByte_byteChar byte, same]; rfl
  rw [newline] at member
  exact notMem_objectName oid (by decide) member

def GitlinkSide.text (side : GitlinkSide) : OneLine :=
  ⟨"Subproject commit ".toList ++ (side.oid.text.toList ++
      if side.dirty then "-dirty".toList else []), by
    rw [List.mem_append, List.mem_append, not_or, not_or]
    refine ⟨by decide, newline_notMem_objectText side.oid, ?_⟩
    split <;> decide⟩

def gitlinkLines (before after : Option GitlinkSide) : List GitLine :=
  (before.toList.map fun side => ⟨.remove, side.text, false⟩) ++
    (after.toList.map fun side => ⟨.add, side.text, false⟩)

def gitlinkHunk (before after : Option GitlinkSide) : GitHunk where
  oldStart := if before.isSome then 1 else 0
  newStart := if after.isSome then 1 else 0
  context := ⟨[], by decide⟩
  lines := gitlinkLines before after
  fits := by
    unfold gitlinkLines
    cases before <;> cases after <;> simp

def pathLines (old new : PathToken) : List (List Char) :=
  ["--- ".toList ++ old.render "a/", "+++ ".toList ++ new.render "b/"]

def GitContent.lines : GitContent → List (List Char)
  | .nothing => []
  | .binary names => ["Binary files ".toList ++ names.1]
  | .binaryPatch lines => "GIT binary patch".toList :: lines.map BinaryLine.line
  | .text old new hunks _ => pathLines old new ++ hunks.flatMap GitHunk.allLines
  | .gitlink old new before after => pathLines old new ++ (gitlinkHunk before after).allLines

def GitFilePatch.lines (file : GitFilePatch) : List (List Char) :=
  ("diff --git ".toList ++ file.names.1) ::
    (file.modes.lines ++ (file.move.lines ++ (file.index.lines ++ file.content.lines)))

def patchLines (files : List GitFilePatch) : List (List Char) := files.flatMap GitFilePatch.lines

def renderPatch (files : List GitFilePatch) : Bytes :=
  (patchLines files).flatMap fun line => Utf8.encode line ++ [0x0a]

/-! What a file patch says. -/

def GitLine.expected (line : GitLine) : PatchLine where
  kind := line.kind
  text := String.ofList line.text.1
  noNewline := line.noNewline

def GitHunk.expected (hunk : GitHunk) : PatchHunk where
  header := String.ofList hunk.header
  oldStart := hunk.oldStart.toNat
  oldLines := hunk.oldLines
  newStart := hunk.newStart.toNat
  newLines := hunk.newLines
  lines := hunk.lines.map GitLine.expected

/-- The path as it is written. An escaped path keeps its prefix, and its quotes where a tab
follows them. -/
def PathToken.expected (side : String) : PathToken → String
  | .devNull => "/dev/null"
  | .bare path _ => String.ofList path.1
  | .quoted path false => String.ofList (side.toList ++ path.1)
  | .quoted path true => String.ofList (PathToken.render side (.quoted path true))

def MoveHeader.source : MoveHeader → Option String
  | .renamed _ source _ => some (String.ofList source.1)
  | .copied _ source _ => some (String.ofList source.1)
  | _ => none

def MoveHeader.target : MoveHeader → Option String
  | .renamed _ _ target => some (String.ofList target.1)
  | .copied _ _ target => some (String.ofList target.1)
  | _ => none

def MoveHeader.isRename : MoveHeader → Bool
  | .renamed .. => true
  | _ => false

def MoveHeader.similarity : MoveHeader → Option Nat
  | .renamed percent _ _ => some percent
  | .copied percent _ _ => some percent
  | _ => none

def GitContent.old : GitContent → Option String
  | .text old _ _ _ => some (old.expected "a/")
  | .gitlink old _ _ _ => some (old.expected "a/")
  | _ => none

def GitContent.new : GitContent → Option String
  | .text _ new _ _ => some (new.expected "b/")
  | .gitlink _ new _ _ => some (new.expected "b/")
  | _ => none

def GitlinkSide.expected (side : GitlinkSide) : Option String :=
  if side.dirty then none else some side.oid.text

/-- A removed line that does not look like the header of the old path, or an added one that
does not look like the header of the new path, or a context line. -/
def GitLine.Kept (line : GitLine) : Prop :=
  match line.kind with
  | .context => True
  | .add => ¬ "++ ".toList <+: line.text.1
  | .remove => ¬ "-- ".toList <+: line.text.1

namespace GitFilePatch

def oldMode (file : GitFilePatch) : Option String :=
  (file.modes.old.or file.index.mode).map ModeText.text

def newMode (file : GitFilePatch) : Option String :=
  (file.modes.new.or file.index.mode).map ModeText.text

def expectedBody (file : GitFilePatch) : FilePatchBody :=
  match file.content with
  | .nothing => .modeOnly file.oldMode file.newMode
  | .binary _ => .binary
  | .binaryPatch _ => .binary
  | .text _ _ hunks _ => .text (hunks.map GitHunk.expected)
  | .gitlink _ _ before after =>
      .submodule (before.bind GitlinkSide.expected) (after.bind GitlinkSide.expected)

def expected (file : GitFilePatch) : ParsedFilePatch where
  headerPaths :=
    { old := file.content.old.or file.move.source, new := file.content.new.or file.move.target }
  oldMode := file.oldMode
  newMode := file.newMode
  isNew := match file.modes with | .created _ => true | _ => false
  isDeleted := match file.modes with | .deleted _ => true | _ => false
  isRename := file.move.isRename
  similarity := file.move.similarity
  body := file.expectedBody

/-- The hunks in which a line can be lost. A submodule's lines are Git's own. -/
def hunks (file : GitFilePatch) : List GitHunk :=
  match file.content with
  | .text _ _ hunks _ => hunks
  | _ => []

structure Readable (file : GitFilePatch) : Prop where
  kept : ∀ hunk ∈ file.hunks, ∀ line ∈ hunk.lines, line.Kept
  noCopy : ∀ similarity source target, file.move ≠ .copied similarity source target

end GitFilePatch

end Refyard
