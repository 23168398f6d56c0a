import Refyard.Core.PatchSteps

/-! What the parser makes of a rendered diff. -/
namespace Refyard

namespace Patch

/-! Bodies. -/

theorem header?_binaryLine (line : BinaryLine) :
    stripPrefix "diff --git ".toList line.line = none ∧ header? line.line = none ∧
      stripPrefix "@@".toList line.line = none := by
  cases line with
  | size delta bytes => cases delta <;> exact ⟨rfl, rfl, rfl⟩
  | data text noSpace noHunk =>
    have spaced (literal : String) (space : ' ' ∈ literal.toList) :
        stripPrefix literal.toList text.1 = none :=
      stripPrefix_eq_none.mpr fun front => noSpace (front.subset space)
    refine ⟨spaced _ (by decide), header?_eq_none ?_, stripPrefix_eq_none.mpr ?_⟩
    · simp only [headerTable, List.Forall]
      refine ⟨?_, ?_, ?_, ?_, ?_, ?_, ?_, ?_, ?_, ?_, ?_, ?_, ?_⟩ <;> exact spaced _ (by decide)
    · rintro ⟨rest, shape⟩
      have begins : (BinaryLine.data text noSpace noHunk).line.head? = some '@' := by
        rw [← shape]
        rfl
      exact noHunk begins

variable (files : List ParsedFilePatch) {next state : PatchState} {file : GitFilePatch}

theorem steps_binaryLines (file : MutableFile) (lines : List BinaryLine) :
    steps (heading files file) (lines.map BinaryLine.line) = .ok (heading files file) := by
  induction lines with
  | nil => rfl
  | cons line lines ih =>
    obtain ⟨sameFile, plain, noHunk⟩ := header?_binaryLine line
    rw [List.map_cons, steps_ignored files file _ sameFile plain noHunk, ih]

theorem kept_gitlink (before after : Option GitlinkSide) :
    ∀ line ∈ (gitlinkHunk before after).lines, line.Kept := by
  have subject (side : GitlinkSide) (literal : List Char) (first : literal.head? = some '-' ∨
      literal.head? = some '+') : ¬ literal <+: side.text.1 := by
    rintro ⟨rest, shape⟩
    have begins : (literal ++ rest).head? = some 'S' := by rw [shape]; rfl
    cases literal with
    | nil => simp at first
    | cons char literal =>
      rw [List.cons_append, List.head?_cons] at begins
      rw [List.head?_cons, begins] at first
      exact absurd first (by decide)
  intro line member
  simp only [gitlinkHunk, gitlinkLines, List.mem_append, List.mem_map, Option.mem_toList] at member
  rcases member with ⟨side, -, rfl⟩ | ⟨side, -, rfl⟩
  · exact subject side _ (.inl rfl)
  · exact subject side _ (.inr rfl)

def withHunks (file : MutableFile) (hunks : List PatchHunk) : MutableFile :=
  { file with hunks := file.hunks ++ hunks }

def contented (file : GitFilePatch) : MutableFile :=
  match file.content with
  | .nothing => headed file
  | .binary _ => { headed file with binary := true }
  | .binaryPatch _ => { headed file with binary := true }
  | .text old new hunks _ =>
      withHunks (withPaths (headed file) old new) (hunks.map GitHunk.expected)
  | .gitlink old new before after =>
      withHunks (withPaths (headed file) old new) [(gitlinkHunk before after).expected]

theorem steps_content_kept (file : GitFilePatch)
    (kept : ∀ hunk ∈ file.hunks, ∀ line ∈ hunk.lines, line.Kept) :
    ∃ next, steps (heading files (headed file)) file.content.lines = .ok next ∧
      flushHunk next = heading files (contented file) := by
  unfold GitFilePatch.hunks at kept
  unfold contented
  cases content : file.content with
  | nothing => exact ⟨_, rfl, rfl⟩
  | binary names =>
    refine ⟨_, steps_header files (headed file) (fun _ => .binary) names.1 [] ?_, rfl⟩
    simp [headerTable]
  | binaryPatch lines =>
    refine ⟨heading files { headed file with binary := true }, ?_, rfl⟩
    have member : ("GIT binary patch", fun _ => Header.binary) ∈ headerTable := by
      simp [headerTable]
    refine (steps_header files (headed file) _ [] _ member).trans ?_
    exact steps_binaryLines files _ lines
  | text old new hunks some_hunk =>
    rw [content] at kept
    obtain ⟨next, went, pushed⟩ :=
      steps_hunks_kept hunks (show flushHunk (heading files (withPaths (headed file) old new)) =
        heading files (withPaths (headed file) old new) from rfl) kept
    exact ⟨next, (steps_paths files _ old new _).trans went, pushed⟩
  | gitlink old new before after =>
    obtain ⟨next, went, pushed⟩ :=
      steps_hunk_kept (show flushHunk (heading files (withPaths (headed file) old new)) =
        heading files (withPaths (headed file) old new) from rfl) (gitlinkHunk before after)
        (kept_gitlink before after)
    exact ⟨next, (steps_paths files _ old new _).trans went, pushed⟩

theorem headed_hunks (file : GitFilePatch) : (headed file).hunks = [] := by
  unfold headed
  cases file.modes <;> cases file.move <;> rfl

/-- What is read of a file in which lines may be lost: the rest of its fields are as they
were, and its hunks are all there only if no line is lost. -/
theorem steps_content (file : GitFilePatch)
    (went : steps (heading files (headed file)) file.content.lines = .ok next) :
    ∃ found, flushHunk next = heading files found ∧ found.isRename = (headed file).isRename ∧
      (found.hunks = file.hunks.map GitHunk.expected →
        ∀ hunk ∈ file.hunks, ∀ line ∈ hunk.lines, line.Kept) := by
  by_cases text : ∃ old new hunks some_hunk, file.content = .text old new hunks some_hunk
  · obtain ⟨old, new, hunks, some_hunk, content⟩ := text
    rw [content] at went
    change steps _ (pathLines old new ++ _) = _ at went
    rw [steps_paths] at went
    obtain ⟨paths, found, pushed, exactly⟩ :=
      steps_hunks hunks (show flushHunk (heading files (withPaths (headed file) old new)) =
        heading files (withPaths (headed file) old new) from rfl) went
    refine ⟨_, pushed, rfl, fun same => ?_⟩
    have none_before : (withPaths (headed file) old new).hunks = [] := headed_hunks file
    have shape : file.hunks = hunks := by
      unfold GitFilePatch.hunks
      rw [content]
    rw [none_before, List.nil_append, shape] at same
    rw [shape]
    exact exactly same
  · have none_lost : file.hunks = [] := by
      unfold GitFilePatch.hunks
      cases content : file.content with
      | text old new hunks some_hunk =>
        exact absurd ⟨old, new, hunks, some_hunk, content⟩ text
      | _ => rfl
    obtain ⟨same, reached, pushed⟩ := steps_content_kept files file (by rw [none_lost]; nofun)
    rw [reached] at went
    refine ⟨contented file, by rw [← Except.ok.inj went]; exact pushed, ?_, ?_⟩
    · unfold contented
      cases file.content <;> rfl
    · rw [none_lost]
      exact fun _ => nofun

theorem headed_eq
    (noCopy : ∀ similarity source target, file.move ≠ .copied similarity source target) :
    headed file = { MutableFile.new with
      headerPaths := { old := file.move.source, new := file.move.target }
      oldMode := file.oldMode
      newMode := file.newMode
      isNew := file.expected.isNew
      isDeleted := file.expected.isDeleted
      isRename := file.move.isRename
      similarity := file.move.similarity } := by
  unfold headed GitFilePatch.expected GitFilePatch.oldMode GitFilePatch.newMode
  cases file.modes <;> cases move : file.move with
  | copied similarity source target => exact absurd move (noCopy similarity source target)
  | _ => rfl

theorem body_eq_text {file : MutableFile} {hunks : List PatchHunk}
    (text : body file = .text hunks) : file.hunks = hunks := by
  unfold body at text
  dsimp only at text
  split at text
  · contradiction
  · split at text
    · contradiction
    · split at text
      · contradiction
      · split at text
        · contradiction
        · exact FilePatchBody.text.inj text

theorem encode_objectText (oid : ObjectName) : Utf8.encode oid.text.toList = oid.1 := by
  rw [ObjectName.text, toList_asciiText, Utf8.encode_ascii (objectName_le oid)]

theorem submoduleOid_side (kind : PatchLineKind) (side : GitlinkSide) :
    submoduleOid (GitLine.expected ⟨kind, side.text, false⟩) = side.expected := by
  obtain ⟨oid, dirty⟩ := side
  have subject : (GitLine.expected ⟨kind, GitlinkSide.text ⟨oid, dirty⟩, false⟩).text.toList =
      "Subproject commit ".toList ++ (oid.text.toList ++ if dirty then "-dirty".toList else []) :=
    String.toList_ofList
  unfold submoduleOid
  rw [subject, stripPrefix_append]
  dsimp only
  cases dirty with
  | false =>
    rw [if_neg Bool.false_ne_true, List.append_nil, encode_objectText, oid.2, if_pos rfl,
      String.ofList_toList]
    rfl
  | true =>
    have hyphen : (0x2d : UInt8) ∈ Utf8.encode (oid.text.toList ++ "-dirty".toList) := by
      rw [Utf8.encode_append, List.mem_append]
      exact .inr (by decide)
    have other : isObjectName (Utf8.encode (oid.text.toList ++ "-dirty".toList)) = false := by
      by_contra named
      exact notMem_objectName ⟨_, eq_true_of_ne_false named⟩ (by decide) hyphen
    rw [if_pos rfl, other]
    rfl

theorem oidOfKind_gitlink (before after : Option GitlinkSide) :
    oidOfKind .remove (gitlinkHunk before after).expected.lines = before.bind GitlinkSide.expected ∧
      oidOfKind .add (gitlinkHunk before after).expected.lines = after.bind GitlinkSide.expected := by
  have first (kind : PatchLineKind) (side : GitlinkSide) :
      [GitLine.expected ⟨kind, side.text, false⟩].findSome? submoduleOid = side.expected := by
    rw [List.findSome?_singleton, submoduleOid_side]
  cases before with
  | none =>
    cases after with
    | none => exact ⟨rfl, rfl⟩
    | some after => exact ⟨rfl, first .add after⟩
  | some before =>
    cases after with
    | none => exact ⟨first .remove before, rfl⟩
    | some after => exact ⟨first .remove before, first .add after⟩

theorem intoPatch_contented
    (noCopy : ∀ similarity source target, file.move ≠ .copied similarity source target) :
    intoPatch (contented file) = file.expected := by
  have suits := file.suits
  change file.content.Suits ((file.oldMode == some gitlinkMode) || (file.newMode == some gitlinkMode))
    at suits
  have shape := headed_eq noCopy
  unfold contented
  cases content : file.content with
  | nothing =>
    rw [content] at suits
    have noGitlink : (file.oldMode == some gitlinkMode || file.newMode == some gitlinkMode) =
      false := suits
    rw [shape]
    simp only [intoPatch, body, MutableFile.new, Bool.false_or, noGitlink, GitFilePatch.expected,
      GitFilePatch.expectedBody, content, GitContent.old, GitContent.new, Option.none_or]
    rfl
  | binary names =>
    rw [shape]
    simp only [intoPatch, body, MutableFile.new, GitFilePatch.expected,
      GitFilePatch.expectedBody, content, GitContent.old, GitContent.new, Option.none_or]
    rfl
  | binaryPatch lines =>
    rw [shape]
    simp only [intoPatch, body, MutableFile.new, GitFilePatch.expected,
      GitFilePatch.expectedBody, content, GitContent.old, GitContent.new, Option.none_or]
    rfl
  | text old new hunks some_hunk =>
    rw [content] at suits
    have noGitlink : (file.oldMode == some gitlinkMode || file.newMode == some gitlinkMode) =
      false := suits
    have some_expected : (hunks.map GitHunk.expected).isEmpty = false := by
      simpa using some_hunk
    rw [shape]
    simp only [intoPatch, body, withHunks, withPaths, MutableFile.new, Bool.false_or, noGitlink,
      List.nil_append, some_expected, GitFilePatch.expected, GitFilePatch.expectedBody, content,
      GitContent.old, GitContent.new, Option.some_or]
    rfl
  | gitlink old new before after =>
    rw [content] at suits
    have gitlink : (file.oldMode == some gitlinkMode || file.newMode == some gitlinkMode) =
      true := suits
    obtain ⟨removed, added⟩ := oidOfKind_gitlink before after
    rw [shape]
    simp only [intoPatch, body, withHunks, withPaths, MutableFile.new, Bool.false_or, gitlink,
      List.nil_append, List.flatMap_singleton, removed, added, Option.none_or,
      GitFilePatch.expected, GitFilePatch.expectedBody, content, GitContent.old, GitContent.new,
      Option.some_or]
    rfl

/-! Files. -/

theorem closed_of_flushHunk {files : List ParsedFilePatch} {file : MutableFile}
    (at_file : flushHunk state = heading files file) :
    closed state = files ++ [intoPatch file] := by
  unfold closed
  rw [at_file]
  rfl

theorem steps_file_readable (readable : file.Readable) (state : PatchState) :
    ∃ next, steps state file.lines = .ok next ∧ closed next = closed state ++ [file.expected] := by
  obtain ⟨next, went, pushed⟩ := steps_content_kept (closed state) file readable.kept
  refine ⟨next, (steps_headers state file).trans went, ?_⟩
  rw [closed_of_flushHunk pushed, intoPatch_contented readable.noCopy]

theorem steps_file (file : GitFilePatch) (went : steps state file.lines = .ok next) :
    ∃ found, closed next = closed state ++ [found] ∧ (found = file.expected → file.Readable) := by
  rw [steps_headers] at went
  obtain ⟨found, pushed, renamed, exactly⟩ := steps_content (closed state) file went
  refine ⟨intoPatch found, closed_of_flushHunk pushed, fun same => ⟨?_, ?_⟩⟩
  · cases content : file.content with
    | text old new hunks some_hunk =>
      have bodies := congrArg ParsedFilePatch.body same
      change body found = file.expectedBody at bodies
      rw [GitFilePatch.expectedBody, content] at bodies
      apply exactly
      rw [body_eq_text bodies, GitFilePatch.hunks, content]
    | _ =>
      rw [GitFilePatch.hunks, content]
      exact nofun
  · intro similarity source target copied
    have flags := congrArg ParsedFilePatch.isRename same
    change found.isRename = file.move.isRename at flags
    have taken : (headed file).isRename = true := by
      unfold headed
      rw [copied]
      rfl
    rw [renamed, taken, copied] at flags
    contradiction

theorem steps_files_readable {files : List GitFilePatch} (readable : ∀ file ∈ files, file.Readable)
    (state : PatchState) : ∃ next, steps state (patchLines files) = .ok next ∧
      closed next = closed state ++ files.map GitFilePatch.expected := by
  unfold patchLines
  induction files generalizing state with
  | nil => exact ⟨state, rfl, by simp⟩
  | cons file files ih =>
    obtain ⟨between, went, first⟩ := steps_file_readable (readable file (by simp)) state
    obtain ⟨next, rest, all⟩ := ih (fun other member => readable other (by simp [member])) between
    refine ⟨next, ?_, by simp [all, first]⟩
    rw [List.flatMap_cons, steps_append, went]
    exact rest

theorem steps_files (files : List GitFilePatch) (went : steps state (patchLines files) = .ok next) :
    ∃ found, closed next = closed state ++ found ∧
      (found = files.map GitFilePatch.expected → ∀ file ∈ files, file.Readable) := by
  unfold patchLines at went
  induction files generalizing state with
  | nil =>
    rw [← Except.ok.inj went]
    exact ⟨[], (List.append_nil _).symm, fun _ file member => absurd member List.not_mem_nil⟩
  | cons file files ih =>
    rw [List.flatMap_cons, steps_append] at went
    cases first : steps state file.lines with
    | error error =>
      rw [first] at went
      contradiction
    | ok between =>
      rw [first] at went
      obtain ⟨found, pushed, exactly⟩ := steps_file file first
      obtain ⟨more, all, allExactly⟩ := ih went
      refine ⟨found :: more, by simp [all, pushed], fun same other member => ?_⟩
      rw [List.map_cons, List.cons.injEq] at same
      rcases List.mem_cons.mp member with rfl | later
      · exact exactly same.1
      · exact allExactly same.2 other later

end Patch

/-- The bounds are large enough for a diff: for its lines, and for the bytes of each. -/
structure ParsePatchOptions.Suffice (options : ParsePatchOptions) (files : List GitFilePatch) :
    Prop where
  lines : (patchLines files).length ≤ options.maxLines.getD patchMaxLinesPerFile
  bytes : ∀ line ∈ patchLines files,
    (Utf8.encode line).length ≤ options.maxBytes.getD patchMaxBytesPerFile

namespace Patch

theorem newline_notMem_digits {digits : List Char}
    (all : ∀ char ∈ digits, char.isDigit = true) : '\n' ∉ digits := fun member =>
  absurd (all '\n' member) (by decide)

theorem newline_notMem_decimal (value : Nat) : '\n' ∉ (decimalText value).toList :=
  not_mem_decimalText (by decide) value

theorem newline_notMem_token (token : PathToken) {side : String} (plain : '\n' ∉ side.toList) :
    '\n' ∉ token.render side := by
  cases token with
  | devNull => exact (by decide : '\n' ∉ devNullText)
  | bare path _ => simp [PathToken.render, plain, path.2]
  | quoted path tab => cases tab <;> simp [PathToken.render, plain, path.2]

theorem newline_notMem_modes (modes : ModeHeader) : ∀ line ∈ modes.lines, '\n' ∉ line := by
  have mode (mode : ModeText) : '\n' ∉ mode.1 := newline_notMem_digits mode.2.2
  cases modes <;> simp [ModeHeader.lines, mode]

theorem newline_notMem_move (move : MoveHeader) : ∀ line ∈ move.lines, '\n' ∉ line := by
  cases move with
  | stays => simp [MoveHeader.lines]
  | rewritten percent => simp [MoveHeader.lines, percentText, newline_notMem_decimal]
  | renamed percent source target =>
    simp [MoveHeader.lines, percentText, newline_notMem_decimal, source.2, target.2]
  | copied percent source target =>
    simp [MoveHeader.lines, percentText, newline_notMem_decimal, source.2, target.2]

theorem newline_notMem_index (index : IndexHeader) : ∀ line ∈ index.lines, '\n' ∉ line := by
  have name (name : Abbreviation) : '\n' ∉ name.1 :=
    notMem_abbreviation name (by decide) (by decide)
  have mode (mode : ModeText) : '\n' ∉ mode.1 := newline_notMem_digits mode.2.2
  cases index <;> simp [IndexHeader.lines, name, mode]

theorem newline_notMem_hunk (hunk : GitHunk) : ∀ line ∈ hunk.allLines, '\n' ∉ line := by
  have count (value : Nat) : '\n' ∉ countText value := by
    unfold countText
    split
    · simp
    · simp [newline_notMem_decimal]
  have mark (kind : PatchLineKind) : '\n' ≠ marker kind := by
    cases kind <;> decide
  intro line member
  unfold GitHunk.allLines at member
  rw [List.mem_cons, List.mem_flatMap] at member
  rcases member with rfl | ⟨gitLine, -, member⟩
  · simp [GitHunk.header, GitHunk.ranges, newline_notMem_decimal, count, hunk.context.2]
  · unfold GitLine.lines at member
    rcases List.mem_cons.mp member with rfl | member
    · simp [mark, gitLine.text.2]
    · split at member
      · rw [List.mem_singleton.mp member]
        decide
      · contradiction

theorem newline_notMem_content (content : GitContent) : ∀ line ∈ content.lines, '\n' ∉ line := by
  have paths (old new : PathToken) : ∀ line ∈ pathLines old new, '\n' ∉ line := by
    have oldPath := newline_notMem_token old (by decide : '\n' ∉ "a/".toList)
    have newPath := newline_notMem_token new (by decide : '\n' ∉ "b/".toList)
    simp only [pathLines, List.mem_cons, List.not_mem_nil, or_false]
    rintro line (rfl | rfl)
    · rw [List.mem_append, not_or]
      exact ⟨by decide, oldPath⟩
    · rw [List.mem_append, not_or]
      exact ⟨by decide, newPath⟩
  intro line member
  cases content with
  | nothing => contradiction
  | binary names =>
    rw [List.mem_singleton.mp member]
    simp [names.2]
  | binaryPatch lines =>
    rcases List.mem_cons.mp member with rfl | member
    · decide
    · obtain ⟨binaryLine, -, rfl⟩ := List.mem_map.mp member
      cases binaryLine with
      | size delta bytes => cases delta <;> simp [BinaryLine.line, newline_notMem_decimal]
      | data text _ _ => exact text.2
  | text old new hunks _ =>
    rcases List.mem_append.mp member with member | member
    · exact paths old new line member
    · obtain ⟨hunk, -, inside⟩ := List.mem_flatMap.mp member
      exact newline_notMem_hunk hunk line inside
  | gitlink old new before after =>
    rcases List.mem_append.mp member with member | member
    · exact paths old new line member
    · exact newline_notMem_hunk _ line member

theorem newline_notMem_patchLines (files : List GitFilePatch) :
    ∀ line ∈ patchLines files, '\n' ∉ line := by
  intro line member
  obtain ⟨file, -, inside⟩ := List.mem_flatMap.mp member
  unfold GitFilePatch.lines at inside
  simp only [List.mem_cons, List.mem_append] at inside
  rcases inside with rfl | inside | inside | inside | inside
  · simp [file.names.2]
  · exact newline_notMem_modes file.modes line inside
  · exact newline_notMem_move file.move line inside
  · exact newline_notMem_index file.index line inside
  · exact newline_notMem_content file.content line inside

theorem parsePatch_render (files : List GitFilePatch) {options : ParsePatchOptions}
    (suffice : options.Suffice files) : parsePatch (renderPatch files) options =
      (steps { files := [], current := none, currentHunk := none } (patchLines files)).map
        fun state => { files := closed state, truncated := false } := by
  unfold parsePatch renderPatch
  rw [splitLines_render (newline_notMem_patchLines files)]
  dsimp only
  rw [run_encode _ _ _ suffice.bytes (by rw [Nat.zero_add]; exact suffice.lines)]
  change Except.bind (Except.map _ (steps _ _)) _ = _
  cases steps { files := [], current := none, currentHunk := none } (patchLines files) <;> rfl

end Patch

/-- With bounds large enough, a rendered diff is read back exactly if it is readable. -/
theorem patch_round_trip (files : List GitFilePatch) (options : ParsePatchOptions)
    (suffice : options.Suffice files) : parsePatch (renderPatch files) options =
        .ok { files := files.map GitFilePatch.expected, truncated := false } ↔
      ∀ file ∈ files, file.Readable := by
  rw [Patch.parsePatch_render files suffice]
  constructor
  · intro parsed
    cases went : Patch.steps { files := [], current := none, currentHunk := none }
        (patchLines files) with
    | error error =>
      rw [went] at parsed
      contradiction
    | ok next =>
      rw [went] at parsed
      obtain ⟨found, all, exactly⟩ := Patch.steps_files files went
      have same := congrArg ParsePatchResult.files (Except.ok.inj parsed)
      exact exactly (all.symm.trans same)
  · intro readable
    obtain ⟨next, went, all⟩ := Patch.steps_files_readable readable
      { files := [], current := none, currentHunk := none }
    rw [went, Except.map, all]
    rfl

def removalOf (text : OneLine) : GitFilePatch where
  names := ⟨"a/q.sql b/q.sql".toList, by decide⟩
  modes := .unchanged
  move := .stays
  index := .absent
  content := .text (.bare ⟨"q.sql".toList, by decide⟩ (by decide))
    (.bare ⟨"q.sql".toList, by decide⟩ (by decide))
    [{ oldStart := 1, newStart := 0, context := .empty, fits := by simp
       lines := [{ kind := .remove, text, noNewline := false }] }] (by simp)
  modeOnce := nofun
  suits := rfl

theorem patch_round_trip_removal : parsePatch (renderPatch [removalOf ⟨"drop".toList, by decide⟩])
          { maxBytes := none, maxLines := none } =
        .ok { files := [removalOf ⟨"drop".toList, by decide⟩].map GitFilePatch.expected,
              truncated := false } ↔
      ∀ file ∈ [removalOf ⟨"drop".toList, by decide⟩], file.Readable :=
  patch_round_trip _ _ ⟨by decide +kernel, by decide +kernel⟩

/-- The removed line `-- drop` is taken for a header: it is lost, and the path is wrong. -/
theorem removed_comment_is_lost : parsePatch (renderPatch [removalOf ⟨"-- drop".toList, by decide⟩])
        { maxBytes := none, maxLines := none } =
      .ok { files := [{ (removalOf ⟨"-- drop".toList, by decide⟩).expected with
              headerPaths := { old := some "drop", new := some "q.sql" }
              body := .text [{ header := "@@ -1 +0,0 @@", oldStart := 1, oldLines := 1,
                               newStart := 0, newLines := 0, lines := [] }] }],
            truncated := false } ∧
      parsePatch (renderPatch [removalOf ⟨"-- drop".toList, by decide⟩])
          { maxBytes := none, maxLines := none } ≠
        .ok { files := [removalOf ⟨"-- drop".toList, by decide⟩].map GitFilePatch.expected,
              truncated := false } := by
  decide +kernel

end Refyard
