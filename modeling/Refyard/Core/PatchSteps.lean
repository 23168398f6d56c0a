import Refyard.Core.DecodeLine
import Refyard.Core.PatchText

/-! What the parser does with the lines of a rendered diff: headers first, then hunks. -/
namespace Refyard

namespace Patch

/-! Lines. -/

theorem splitLinesFrom_line (front back rest : Bytes) (one : (0x0a : UInt8) ∉ back) :
    splitLinesFrom front (back ++ 0x0a :: rest) = (front ++ back) :: splitLinesFrom [] rest := by
  induction back generalizing front with
  | nil => simp [splitLinesFrom]
  | cons byte back ih =>
    rw [List.mem_cons, not_or] at one
    rw [List.cons_append, splitLinesFrom, if_neg fun same => one.1 same.symm, ih _ one.2]
    simp

theorem splitLines_render {lines : List (List Char)} (one : ∀ line ∈ lines, '\n' ∉ line) :
    splitLines (lines.flatMap fun line => Utf8.encode line ++ [0x0a]) = lines.map Utf8.encode := by
  unfold splitLines
  induction lines with
  | nil => rfl
  | cons line lines ih =>
    have first := Utf8.newline_notMem_encode (one line (by simp))
    rw [List.flatMap_cons, List.append_assoc, List.singleton_append,
      splitLinesFrom_line [] _ _ first, ih fun other member => one other (by simp [member])]
    rfl

theorem run_encode {maxBytes maxLines : Nat} (lines : List (List Char)) (count : Nat)
    (state : PatchState) (bytes : ∀ line ∈ lines, (Utf8.encode line).length ≤ maxBytes)
    (enough : count + lines.length ≤ maxLines) :
    run maxBytes maxLines count state (lines.map Utf8.encode) =
      (lines.foldlM step state).map fun state => (state, false) := by
  induction lines generalizing count state with
  | nil => rfl
  | cons line lines ih =>
    rw [List.length_cons] at enough
    have short := bytes line (by simp)
    have within : ¬ (decide (maxLines < count + 1) ||
        decide (maxBytes < (Utf8.encode line).length)) = true := by
      simp only [Bool.or_eq_true, decide_eq_true_eq]
      omega
    rw [List.map_cons, run, if_neg within, decodeLine_encode, List.foldlM_cons]
    cases step state line with
    | error error => rfl
    | ok next =>
      exact ih (count + 1) next (fun other member => bytes other (by simp [member])) (by omega)

/-! Headers. -/

def steps (state : PatchState) (lines : List (List Char)) : Except CoreError PatchState :=
  lines.foldlM step state

variable (state : PatchState) {literal : String} {line text : List Char} {file : MutableFile}
  (files : List ParsedFilePatch) {char : Char} {value : Nat} (hunk : GitHunk) {next : PatchState}

@[simp] theorem steps_nil : steps state [] = .ok state := rfl

theorem steps_cons (line : List Char) (lines : List (List Char)) :
    steps state (line :: lines) = (step state line).bind fun next => steps next lines := rfl

theorem steps_append (front back : List (List Char)) :
    steps state (front ++ back) = (steps state front).bind fun next => steps next back :=
  List.foldlM_append

def closed (state : PatchState) : List ParsedFilePatch := (flushFile (flushHunk state)).files

def heading (files : List ParsedFilePatch) (file : MutableFile) : PatchState :=
  { files, current := some file, currentHunk := none }

theorem step_diff (names : List Char) :
    step state ("diff --git ".toList ++ names) = .ok (heading (closed state) .new) := by
  have nothing : (flushFile (flushHunk state)).currentHunk = none := by
    unfold flushFile flushHunk
    cases state.currentHunk <;> cases state.current <;> rfl
  unfold step
  rw [stripPrefix_append, if_pos Option.isSome_some]
  unfold heading closed
  rw [← nothing]

variable {header : List Char → Header} (name : Abbreviation) (lines : List GitLine)
  (hunks : List GitHunk)

theorem header?_of_mem (value : List Char) (member : (literal, header) ∈ headerTable) :
    header? (literal.toList ++ value) = some (header value) ∧
      stripPrefix "diff --git ".toList (literal.toList ++ value) = none := by
  simp only [headerTable, List.mem_cons, Prod.mk.injEq, List.not_mem_nil, or_false] at member
  rcases member with ⟨rfl, rfl⟩ | ⟨rfl, rfl⟩ | ⟨rfl, rfl⟩ | ⟨rfl, rfl⟩ | ⟨rfl, rfl⟩ | ⟨rfl, rfl⟩ |
    ⟨rfl, rfl⟩ | ⟨rfl, rfl⟩ | ⟨rfl, rfl⟩ | ⟨rfl, rfl⟩ | ⟨rfl, rfl⟩ | ⟨rfl, rfl⟩ | ⟨rfl, rfl⟩ <;>
    exact ⟨rfl, rfl⟩

theorem header?_eq_none
    (plain : headerTable.Forall fun entry => stripPrefix entry.1.toList line = none) :
    header? line = none := by
  unfold header?
  rw [List.findSome?_eq_none_iff]
  intro entry member
  dsimp only
  rw [List.forall_iff_forall_mem.mp plain entry member, Option.map_none]

theorem step_header {state : PatchState} (value : List Char)
    (member : (literal, header) ∈ headerTable) (inside : state.current = some file) :
    step state (literal.toList ++ value) =
      .ok { state with current := some (withHeader file (header value)) } := by
  obtain ⟨known, sameFile⟩ := header?_of_mem value member
  unfold step
  rw [sameFile, inside]
  rw [if_neg (by decide), known]

theorem steps_header (file : MutableFile) (header : List Char → Header) (value : List Char)
    (lines : List (List Char)) (member : (literal, header) ∈ headerTable) :
    steps (heading files file) ((literal.toList ++ value) :: lines) =
      steps (heading files (withHeader file (header value))) lines := by
  rw [steps_cons, step_header value member rfl]
  rfl

theorem steps_ignored (file : MutableFile) (lines : List (List Char))
    (sameFile : stripPrefix "diff --git ".toList line = none) (plain : header? line = none)
    (noHunk : stripPrefix "@@".toList line = none) :
    steps (heading files file) (line :: lines) = steps (heading files file) lines := by
  have ignored : step (heading files file) line = .ok (heading files file) := by
    unfold step heading
    rw [sameFile]
    rw [if_neg (by decide), plain]
    rw [noHunk, if_neg (by decide)]
  rw [steps_cons, ignored]
  rfl

theorem trim_of_visible (visible : ∀ char ∈ text, isWhiteSpace char = false) :
    trim text = text := by
  have drop (text : List Char) (visible : ∀ char ∈ text, isWhiteSpace char = false) :
      text.dropWhile isWhiteSpace = text := by
    cases text with
    | nil => rfl
    | cons char text => rw [List.dropWhile_cons_of_neg (by simp [visible char (by simp)])]
  unfold trim
  rw [drop text visible, drop text.reverse fun char member => visible char (by simpa using member),
    List.reverse_reverse]

theorem visible_of_isDigit (digit : char.isDigit = true) : isWhiteSpace char = false := by
  have bounds := toNat_of_isDigit digit
  unfold isWhiteSpace
  simp only [Bool.or_eq_false_iff, Bool.and_eq_false_iff, decide_eq_false_iff_not, beq_eq_false_iff_ne]
  omega

theorem trim_digits {digits : List Char} (all : ∀ char ∈ digits, char.isDigit = true) :
    trim digits = digits :=
  trim_of_visible fun char member => visible_of_isDigit (all char member)

theorem similarity_percent (percent : Fin 101) :
    parseUnsigned 64 (trim ((percentText percent).erase '%')) = some percent.val := by
  have below := percent.isLt
  have absent := not_mem_decimalText (show '%'.isDigit = false by decide) percent.val
  have erased : (percentText percent).erase '%' = (decimalText percent.val).toList := by
    unfold percentText
    rw [List.erase_append_right _ absent, List.erase_cons_head, List.append_nil]
  rw [erased, trim_digits (isDigit_decimalText percent.val), parseUnsigned_decimalText (by omega)]

def withModes (file : MutableFile) : ModeHeader → MutableFile
  | .unchanged => file
  | .changed old new =>
      { file with oldMode := some (ModeText.text old), newMode := some (ModeText.text new) }
  | .created mode => { file with isNew := true, newMode := some (ModeText.text mode) }
  | .deleted mode => { file with isDeleted := true, oldMode := some (ModeText.text mode) }

theorem steps_modes (file : MutableFile) (modes : ModeHeader) (lines : List (List Char)) :
    steps (heading files file) (modes.lines ++ lines) =
      steps (heading files (withModes file modes)) lines := by
  have digits (mode : ModeText) : String.ofList (trim mode.1) = ModeText.text mode := by
    rw [trim_digits mode.2.2, ModeText.text]
  cases modes with
  | unchanged => rfl
  | changed old new =>
    refine (steps_header files file .oldMode old.1 _ (by simp [headerTable])).trans ?_
    refine (steps_header files _ .newMode new.1 _ (by simp [headerTable])).trans ?_
    simp only [withHeader, withModes, digits]
    rfl
  | created mode =>
    refine (steps_header files file .newFileMode mode.1 _ (by simp [headerTable])).trans ?_
    simp only [withHeader, withModes, digits]
    rfl
  | deleted mode =>
    refine (steps_header files file .deletedFileMode mode.1 _ (by simp [headerTable])).trans ?_
    simp only [withHeader, withModes, digits]
    rfl

/-- What the move headers change. A copy is taken for a rename without paths. -/
def withMove (file : MutableFile) : MoveHeader → MutableFile
  | .stays => file
  | .rewritten _ => file
  | .renamed percent source target =>
      { file with
        isRename := true
        similarity := some percent
        headerPaths := { old := some (String.ofList source.1), new := some (String.ofList target.1) } }
  | .copied percent _ _ => { file with isRename := true, similarity := some percent }

theorem steps_move (file : MutableFile) (move : MoveHeader) (lines : List (List Char)) :
    steps (heading files file) (move.lines ++ lines) =
      steps (heading files (withMove file move)) lines := by
  cases move with
  | stays => rfl
  | rewritten percent => exact steps_ignored files file lines rfl rfl rfl
  | renamed percent source target =>
    refine (steps_header files file .similarity _ _ (by simp [headerTable])).trans ?_
    refine (steps_header files _ .renameFrom source.1 _ (by simp [headerTable])).trans ?_
    refine (steps_header files _ .renameTo target.1 _ (by simp [headerTable])).trans ?_
    simp only [withHeader, withMove, similarity_percent]
    rfl
  | copied percent source target =>
    refine (steps_header files file .similarity _ _ (by simp [headerTable])).trans ?_
    refine (steps_ignored files _ _ rfl rfl rfl).trans ?_
    refine (steps_ignored files _ _ rfl rfl rfl).trans ?_
    simp only [withHeader, withMove, similarity_percent]
    rfl

theorem notMem_abbreviation (digit : char.isDigit = false) (outside : ¬ ('a' ≤ char ∧ char ≤ 'f')) :
    char ∉ name.1 := by
  intro member
  rcases name.2.2 char member with known | inside
  · rw [digit] at known
    contradiction
  · exact outside inside

theorem isLowerHex_abbreviation : isLowerHex name.1 = true := by
  have all : name.1.all (fun char => char.isDigit || (decide ('a' ≤ char) && decide (char ≤ 'f'))) =
      true := by
    rw [List.all_eq_true]
    intro char member
    simpa using name.2.2 char member
  have some_char := name.2.1
  unfold isLowerHex
  rw [all, Bool.and_true]
  simpa using some_char

theorem splitDots_append {old : List Char} (front new : List Char) (absent : '.' ∉ old) :
    splitDots front (old ++ '.' :: '.' :: new) = some (front ++ old, new) := by
  induction old generalizing front with
  | nil => simp [splitDots]
  | cons char old ih =>
    rw [List.mem_cons, not_or] at absent
    rw [List.cons_append, splitDots, ih _ absent.2]
    · simp
    · rintro rest rfl
      exact absurd rfl absent.1

theorem parseIndexMode_bare (old new : Abbreviation) :
    parseIndexMode (old.1 ++ "..".toList ++ new.1) = none := by
  have space : ' ' ∉ old.1 ++ "..".toList ++ new.1 := by
    rw [List.mem_append, List.mem_append, not_or, not_or]
    exact ⟨⟨notMem_abbreviation old (by decide) (by decide), by decide⟩,
      notMem_abbreviation new (by decide) (by decide)⟩
  unfold parseIndexMode
  rw [splitOnce_of_notMem space]
  dsimp only
  cases splitDots [] (old.1 ++ "..".toList ++ new.1) <;> rfl

theorem parseIndexMode_withMode (old new : Abbreviation) (mode : ModeText) :
    parseIndexMode (old.1 ++ "..".toList ++ new.1 ++ ' ' :: mode.1) =
      some (ModeText.text mode) := by
  have space : ' ' ∉ old.1 ++ "..".toList ++ new.1 := by
    rw [List.mem_append, List.mem_append, not_or, not_or]
    exact ⟨⟨notMem_abbreviation old (by decide) (by decide), by decide⟩,
      notMem_abbreviation new (by decide) (by decide)⟩
  have dots : splitDots [] (old.1 ++ "..".toList ++ new.1) = some (old.1, new.1) := by
    rw [List.append_assoc]
    exact splitDots_append [] new.1 (notMem_abbreviation old (by decide) (by decide))
  have digits : mode.1.all Char.isDigit = true := List.all_eq_true.mpr mode.2.2
  have some_digit := mode.2.1
  unfold parseIndexMode
  rw [splitOnce_append space]
  dsimp only
  rw [dots]
  dsimp only
  rw [isLowerHex_abbreviation, isLowerHex_abbreviation, if_neg (by decide), digits,
    if_neg (by simpa using some_digit)]
  rfl

def withIndex (file : MutableFile) (index : IndexHeader) : MutableFile :=
  { file with
    oldMode := file.oldMode.or (index.mode.map ModeText.text)
    newMode := file.newMode.or (index.mode.map ModeText.text) }

theorem steps_index (file : MutableFile) (index : IndexHeader) (lines : List (List Char)) :
    steps (heading files file) (index.lines ++ lines) =
      steps (heading files (withIndex file index)) lines := by
  cases index with
  | absent => simp [IndexHeader.lines, withIndex, IndexHeader.mode]
  | bare old new =>
    refine (steps_header files file .index _ _ (by simp [headerTable])).trans ?_
    simp only [withHeader, parseIndexMode_bare, withIndex, IndexHeader.mode, Option.map_none,
      Option.or_none]
    rfl
  | withMode old new mode =>
    refine (steps_header files file .index _ _ (by simp [headerTable])).trans ?_
    simp only [withHeader, parseIndexMode_withMode, withIndex, IndexHeader.mode]
    rfl

theorem ne_devNull {value : List Char} (first : value.head? = some char) (other : char ≠ '/') :
    value ≠ "/dev/null".toList := by
  rintro rfl
  exact other (Option.some.inj first).symm

theorem stripPathPrefix_bare {value path : List Char} (other : value ≠ "/dev/null".toList)
    (stripped : ((stripPrefix "a/".toList value).or (stripPrefix "b/".toList value)).getD value =
      path) (open_end : ¬ (path.head? = some '"' ∧ path.getLast? = some '"')) :
    stripPathPrefix value = String.ofList path := by
  unfold stripPathPrefix
  rw [if_neg other]
  rw [stripped, if_neg]
  simp only [Bool.and_eq_true, beq_iff_eq, decide_eq_true_eq]
  rintro ⟨⟨-, first⟩, last⟩
  exact open_end ⟨first, last⟩

theorem stripPathPrefix_quoted (path : List Char) :
    stripPathPrefix ('"' :: (path ++ ['"'])) = String.ofList path := by
  have other : '"' :: (path ++ ['"']) ≠ "/dev/null".toList :=
    ne_devNull rfl (by decide : '"' ≠ '/')
  have noOld : stripPrefix "a/".toList ('"' :: (path ++ ['"'])) = none := rfl
  have noNew : stripPrefix "b/".toList ('"' :: (path ++ ['"'])) = none := rfl
  have last : ('"' :: (path ++ ['"'])).getLast? = some '"' := by
    rw [← List.cons_append, List.getLast?_concat]
  unfold stripPathPrefix
  rw [if_neg other, noOld, noNew, Option.or_none, Option.getD_none]
  dsimp only
  rw [last, if_pos (by simp), List.tail_cons, List.dropLast_concat]

theorem stripPathPrefix_render (token : PathToken) {side : String} (known : side ∈ ["a/", "b/"]) :
    stripPathPrefix (token.render side) = token.expected side := by
  have prefixes : side = "a/" ∨ side = "b/" := by simpa using known
  cases token with
  | devNull => rfl
  | bare path plain =>
    apply stripPathPrefix_bare
    · rcases prefixes with rfl | rfl
      · exact ne_devNull rfl (by decide : 'a' ≠ '/')
      · exact ne_devNull rfl (by decide : 'b' ≠ '/')
    · rcases prefixes with rfl | rfl <;> rfl
    · exact fun ⟨first, _⟩ => plain (List.mem_of_head? first)
  | quoted path tab =>
    cases tab with
    | true =>
      refine stripPathPrefix_bare (ne_devNull rfl (by decide : '"' ≠ '/')) rfl ?_
      rintro ⟨-, last⟩
      simp [PathToken.render, List.getLast?_cons, List.getLast?_append] at last
    | false =>
      rw [PathToken.render, PathToken.expected]
      exact stripPathPrefix_quoted (side.toList ++ path.1)

def headed (file : GitFilePatch) : MutableFile :=
  withIndex (withMove (withModes .new file.modes) file.move) file.index

theorem steps_headers (file : GitFilePatch) :
    steps state file.lines = steps (heading (closed state) (headed file)) file.content.lines := by
  unfold GitFilePatch.lines
  rw [steps_cons, step_diff]
  refine (steps_modes _ _ _ _).trans ?_
  refine (steps_move _ _ _ _).trans ?_
  exact steps_index _ _ _ _

def withPaths (file : MutableFile) (old new : PathToken) : MutableFile :=
  { file with
    headerPaths := { old := some (old.expected "a/"), new := some (new.expected "b/") } }

theorem steps_paths (file : MutableFile) (old new : PathToken) (lines : List (List Char)) :
    steps (heading files file) (pathLines old new ++ lines) =
      steps (heading files (withPaths file old new)) lines := by
  refine (steps_header files file .oldPath _ _ (by simp [headerTable])).trans ?_
  refine (steps_header files _ .newPath _ _ (by simp [headerTable])).trans ?_
  simp only [withHeader, stripPathPrefix_render _ (show "a/" ∈ ["a/", "b/"] by simp),
    stripPathPrefix_render _ (show "b/" ∈ ["a/", "b/"] by simp)]
  rfl

/-! Hunks. -/

def NoDigit (rest : List Char) : Prop := ∀ char ∈ rest.head?, char.isDigit = false

def BlankNext (rest : List Char) : Prop := ∀ char ∈ rest.head?, char = ' '

theorem reads_expect (literal : String) : Reads (expect literal) Anything literal.toList () := by
  intro rest _ offset
  unfold expect
  rw [String.length_toList]
  simp only [StateT.run, stripPrefix_append]

theorem reads_number (fits : value < 2 ^ 64) :
    Reads number NoDigit (decimalText value).toList value := by
  intro rest followed offset
  have digits := isDigit_decimalText value
  have stops : rest.takeWhile Char.isDigit = [] := by
    cases rest with
    | nil => rfl
    | cons char rest => rw [List.takeWhile_cons_of_neg (by simp [followed char rfl])]
  have taken : ((decimalText value).toList ++ rest).takeWhile Char.isDigit =
      (decimalText value).toList := by
    rw [List.takeWhile_append_of_pos digits, stops, List.append_nil]
  have some_digit := decimalText_ne value
  change number ⟨(decimalText value).toList ++ rest, offset⟩ = _
  unfold number
  dsimp only
  rw [taken, decimalValue_decimalText, if_neg (by simpa using some_digit), if_pos fits,
    List.drop_left]

theorem reads_count (fits : value < 2 ^ 64) : Reads count BlankNext (countText value) value := by
  intro rest followed offset
  unfold countText
  by_cases one : value = 1
  · rw [if_pos one, one]
    cases rest with
    | nil => rfl
    | cons char rest =>
      rw [followed char rfl]
      rfl
  · have noDigit : NoDigit rest := by
      intro char head
      rw [followed char head]
      decide
    rw [if_neg one]
    refine (reads_number fits rest noDigit (offset + 1)).trans ?_
    rw [List.length_cons, Nat.add_assoc, Nat.add_comm 1]

theorem noDigit_countText {rest : List Char} (blank : BlankNext rest) :
    NoDigit (countText value ++ rest) := by
  intro char head
  unfold countText at head
  by_cases one : value = 1
  · rw [if_pos one] at head
    rw [blank char head]
    decide
  · rw [if_neg one] at head
    rw [← Option.some.inj head]
    decide

theorem count_fits : hunk.oldLines < 2 ^ 64 ∧ hunk.newLines < 2 ^ 64 :=
  ⟨Nat.lt_of_le_of_lt List.countP_le_length hunk.fits,
    Nat.lt_of_le_of_lt List.countP_le_length hunk.fits⟩

theorem reads_hunkHeader : Reads hunkHeader Anything hunk.ranges
      (hunk.oldStart.toNat, hunk.oldLines, hunk.newStart.toNat, hunk.newLines) := by
  have fits := count_fits hunk
  have plus (rest : List Char) : BlankNext (" +".toList ++ rest) := by
    rintro char ⟨⟩
    rfl
  refine (reads_expect "@@ -").then ?_
  refine (reads_number hunk.oldStart.toNat_lt).bind ?_ fun rest _ => ?_
  · refine (reads_count fits.1).bind ?_ fun rest _ => ?_
    · refine (reads_expect " +").then ?_
      refine (reads_number hunk.newStart.toNat_lt).bind ?_ fun rest _ => ?_
      · refine (reads_count fits.2).bind ?_ fun rest _ => ?_
        · exact (reads_expect " @@").finish (Reads.pure _)
        · rintro char ⟨⟩
          rfl
      · rw [List.append_assoc]
        exact noDigit_countText (by rintro char ⟨⟩; rfl)
    · rw [List.append_assoc]
      exact plus _
  · rw [List.append_assoc]
    exact noDigit_countText (by rw [List.append_assoc]; exact plus _)

theorem parseHunkHeader_header : parseHunkHeader hunk.header =
      some (hunk.oldStart.toNat, hunk.oldLines, hunk.newStart.toNat, hunk.newLines) := by
  have read := (reads_hunkHeader hunk).on_front (show Anything hunk.context.1 from trivial)
  unfold parseHunkHeader GitHunk.header
  rw [read]
  rfl

def inHunk (files : List ParsedFilePatch) (file : MutableFile) (hunk : PatchHunk) : PatchState :=
  { files, current := some file, currentHunk := some hunk }

theorem step_hunkLine (file : MutableFile) (hunk : PatchHunk)
    (sameFile : stripPrefix "diff --git ".toList line = none) (plain : header? line = none)
    (noHunk : stripPrefix "@@".toList line = none) :
    step (inHunk files file hunk) line = hunkLine (inHunk files file hunk) hunk line := by
  unfold step inHunk
  rw [sameFile]
  rw [if_neg (by decide), plain]
  rw [noHunk, if_neg (by decide)]

theorem hunkLine_marker (hunk : PatchHunk) (kind : PatchLineKind) (text : List Char) :
    hunkLine state hunk (marker kind :: text) =
      .ok { state with currentHunk := some { hunk with
        lines := hunk.lines ++ [⟨kind, String.ofList text, false⟩] } } := by
  have other : marker kind :: text ≠ noNewlineMarker.toList := by
    intro same
    have first : some (marker kind) = some '\\' := congrArg List.head? same
    cases kind <;> exact absurd first (by decide)
  unfold hunkLine
  cases kind <;> rfl

theorem step_context (file : MutableFile) (hunk : PatchHunk) (text : List Char) :
    step (inHunk files file hunk) (' ' :: text) = .ok (inHunk files file { hunk with
        lines := hunk.lines ++ [⟨.context, String.ofList text, false⟩] }) := by
  exact hunkLine_marker _ _ .context text

theorem step_add (file : MutableFile) (hunk : PatchHunk) (kept : ¬ "++ ".toList <+: text) :
    step (inHunk files file hunk) ('+' :: text) = .ok (inHunk files file { hunk with
        lines := hunk.lines ++ [⟨.add, String.ofList text, false⟩] }) := by
  have plain : header? ('+' :: text) = none := by
    have other : stripPrefix "+++ ".toList ('+' :: text) = none := by
      change stripPrefix "++ ".toList text = none
      exact stripPrefix_eq_none.mpr kept
    apply header?_eq_none
    exact ⟨rfl, rfl, rfl, rfl, rfl, rfl, rfl, rfl, rfl, other, rfl, rfl, rfl⟩
  rw [step_hunkLine files file hunk rfl plain rfl]
  exact hunkLine_marker _ _ .add text

theorem step_remove (file : MutableFile) (hunk : PatchHunk) (kept : ¬ "-- ".toList <+: text) :
    step (inHunk files file hunk) ('-' :: text) = .ok (inHunk files file { hunk with
        lines := hunk.lines ++ [⟨.remove, String.ofList text, false⟩] }) := by
  have plain : header? ('-' :: text) = none := by
    have other : stripPrefix "--- ".toList ('-' :: text) = none := by
      change stripPrefix "-- ".toList text = none
      exact stripPrefix_eq_none.mpr kept
    apply header?_eq_none
    exact ⟨rfl, rfl, rfl, rfl, rfl, rfl, rfl, rfl, other, rfl, rfl, rfl, rfl⟩
  rw [step_hunkLine files file hunk rfl plain rfl]
  exact hunkLine_marker _ _ .remove text

theorem step_lost {line : GitLine} (file : MutableFile) (hunk : PatchHunk) (lost : ¬ line.Kept) :
    ∃ paths, step (inHunk files file hunk) (marker line.kind :: line.text.1) =
      .ok (inHunk files { file with headerPaths := paths } hunk) := by
  obtain ⟨kind, text, noNewline⟩ := line
  cases kind with
  | context => exact absurd trivial lost
  | add =>
    obtain ⟨value, shape⟩ := not_not.mp lost
    have member : ("+++ ", Header.newPath) ∈ headerTable := by simp [headerTable]
    refine ⟨{ file.headerPaths with new := some (stripPathPrefix value) }, ?_⟩
    rw [← shape]
    exact step_header value member rfl
  | remove =>
    obtain ⟨value, shape⟩ := not_not.mp lost
    have member : ("--- ", Header.oldPath) ∈ headerTable := by simp [headerTable]
    refine ⟨{ file.headerPaths with old := some (stripPathPrefix value) }, ?_⟩
    rw [← shape]
    exact step_header value member rfl

theorem step_kept {line : GitLine} (file : MutableFile) (hunk : PatchHunk) (kept : line.Kept) :
    step (inHunk files file hunk) (marker line.kind :: line.text.1) =
      .ok (inHunk files file { hunk with
        lines := hunk.lines ++ [⟨line.kind, String.ofList line.text.1, false⟩] }) := by
  obtain ⟨kind, text, noNewline⟩ := line
  cases kind with
  | context => exact step_context files file hunk text.1
  | add => exact step_add files file hunk kept
  | remove => exact step_remove files file hunk kept

theorem markLast_concat (lines : List PatchLine) (line : PatchLine) :
    markLast (lines ++ [line]) = some (lines ++ [{ line with noNewline := true }]) := by
  induction lines with
  | nil => rfl
  | cons first lines ih =>
    have more : lines ++ [line] ≠ [] := by simp
    rw [List.cons_append, markLast, ih]
    · rfl
    · exact more

theorem length_of_markLast {lines marked : List PatchLine} (found : markLast lines = some marked) :
    marked.length = lines.length := by
  obtain rfl | ⟨front, last, rfl⟩ := List.eq_nil_or_concat lines
  · contradiction
  · rw [List.concat_eq_append] at found ⊢
    rw [markLast_concat] at found
    rw [← Option.some.inj found]
    simp

theorem step_noNewline (file : MutableFile) (hunk : PatchHunk) :
    step (inHunk files file hunk) noNewlineMarker.toList = match markLast hunk.lines with
      | some lines => .ok (inHunk files file { hunk with lines })
      | none => .error (unparsable "'no newline' marker with no preceding line") := by
  rw [step_hunkLine files file hunk rfl rfl rfl]
  unfold hunkLine
  rfl

theorem steps_kept {line : GitLine} (file : MutableFile) (hunk : PatchHunk) (kept : line.Kept) :
    steps (inHunk files file hunk) line.lines =
      .ok (inHunk files file { hunk with lines := hunk.lines ++ [line.expected] }) := by
  unfold GitLine.lines
  rw [steps_cons, step_kept files file hunk kept]
  by_cases noNewline : line.noNewline = true
  · rw [if_pos noNewline]
    refine (steps_cons _ _ _).trans ?_
    change (step _ noNewlineMarker.toList).bind _ = _
    rw [step_noNewline, markLast_concat]
    unfold GitLine.expected
    rw [noNewline]
    rfl
  · rw [if_neg noNewline]
    unfold GitLine.expected
    rw [eq_false_of_ne_true noNewline]
    rfl

theorem steps_line (line : GitLine) (files : List ParsedFilePatch) (file : MutableFile)
    (hunk : PatchHunk) (went : steps (inHunk files file hunk) line.lines = .ok next) :
    ∃ paths lines, next = inHunk files { file with headerPaths := paths } { hunk with lines } ∧
      lines.length ≤ hunk.lines.length + 1 ∧
        (lines.length = hunk.lines.length + 1 → line.Kept) := by
  by_cases kept : line.Kept
  · rw [steps_kept files file hunk kept] at went
    refine ⟨file.headerPaths, _, (Except.ok.inj went).symm, ?_, fun _ => kept⟩
    simp
  · obtain ⟨paths, lost⟩ := step_lost files file hunk kept
    unfold GitLine.lines at went
    rw [steps_cons, lost] at went
    by_cases noNewline : line.noNewline = true
    · rw [if_pos noNewline] at went
      change (step _ noNewlineMarker.toList).bind _ = _ at went
      rw [step_noNewline] at went
      cases marked : markLast hunk.lines with
      | none =>
        rw [marked] at went
        contradiction
      | some lines =>
        rw [marked] at went
        have same := length_of_markLast marked
        refine ⟨paths, lines, (Except.ok.inj went).symm, by omega, fun length => ?_⟩
        omega
    · rw [if_neg noNewline] at went
      refine ⟨paths, hunk.lines, (Except.ok.inj went).symm, by omega, fun length => ?_⟩
      omega

theorem steps_lines_kept (files : List ParsedFilePatch) (file : MutableFile) (hunk : PatchHunk)
    (kept : ∀ line ∈ lines, line.Kept) :
    steps (inHunk files file hunk) (lines.flatMap GitLine.lines) =
      .ok (inHunk files file { hunk with lines := hunk.lines ++ lines.map GitLine.expected }) := by
  induction lines generalizing hunk with
  | nil => simp
  | cons line lines ih =>
    rw [List.flatMap_cons, steps_append, steps_kept files file hunk (kept line (by simp))]
    refine (ih _ fun other member => kept other (by simp [member])).trans ?_
    simp

theorem steps_lines (files : List ParsedFilePatch) (file : MutableFile) (hunk : PatchHunk)
    (went : steps (inHunk files file hunk) (lines.flatMap GitLine.lines) = .ok next) :
    ∃ paths found, next = inHunk files { file with headerPaths := paths } { hunk with lines := found } ∧
      found.length ≤ hunk.lines.length + lines.length ∧
        (found.length = hunk.lines.length + lines.length → ∀ line ∈ lines, line.Kept) := by
  induction lines generalizing file hunk with
  | nil =>
    refine ⟨file.headerPaths, hunk.lines, (Except.ok.inj went).symm, Nat.le_refl _, ?_⟩
    exact fun _ => nofun
  | cons line lines ih =>
    rw [List.flatMap_cons, steps_append] at went
    cases first : steps (inHunk files file hunk) line.lines with
    | error error =>
      rw [first] at went
      contradiction
    | ok between =>
      rw [first] at went
      obtain ⟨paths, some_lines, rfl, atMost, exactly⟩ := steps_line line files file hunk first
      obtain ⟨morePaths, found, rfl, all, allExactly⟩ := ih _ _ went
      dsimp only at all allExactly
      refine ⟨morePaths, found, rfl, ?_, fun length other member => ?_⟩
      · rw [List.length_cons]
        omega
      · rw [List.length_cons] at length
        rcases List.mem_cons.mp member with rfl | later
        · exact exactly (by omega)
        · exact allExactly (by omega) other later

def opened (hunk : GitHunk) : PatchHunk := { hunk.expected with lines := [] }

theorem step_hunkHeader {state : PatchState} {files : List ParsedFilePatch}
    (at_file : flushHunk state = heading files file) (hunk : GitHunk) :
    step state hunk.header = .ok (inHunk files file (opened hunk)) := by
  have sameFile : stripPrefix "diff --git ".toList hunk.header = none := rfl
  have plain : header? hunk.header = none := rfl
  have begins : (stripPrefix "@@".toList hunk.header).isSome = true := rfl
  have inside : ∃ current, state.current = some current := by
    cases known : state.current with
    | some current => exact ⟨current, rfl⟩
    | none =>
      have nothing : (flushHunk state).current = none := by
        unfold flushHunk
        rw [known]
        cases state.currentHunk <;> rfl
      rw [at_file] at nothing
      contradiction
  obtain ⟨current, inside⟩ := inside
  unfold step
  rw [sameFile, if_neg (by decide), inside]
  rw [begins, if_pos rfl, parseHunkHeader_header, at_file]
  rfl

theorem flushHunk_inHunk (file : MutableFile) (hunk : PatchHunk) :
    flushHunk (inHunk files file hunk) =
      heading files { file with hunks := file.hunks ++ [hunk] } := rfl

theorem steps_hunk_kept {state : PatchState} {files : List ParsedFilePatch}
    (at_file : flushHunk state = heading files file) (hunk : GitHunk)
    (kept : ∀ line ∈ hunk.lines, line.Kept) : ∃ next, steps state hunk.allLines = .ok next ∧
      flushHunk next = heading files { file with hunks := file.hunks ++ [hunk.expected] } := by
  refine ⟨_, ?_, flushHunk_inHunk files file hunk.expected⟩
  unfold GitHunk.allLines
  rw [steps_cons, step_hunkHeader at_file]
  exact steps_lines_kept hunk.lines files file (opened hunk) kept

theorem steps_hunk {state : PatchState} {files : List ParsedFilePatch}
    (at_file : flushHunk state = heading files file) (hunk : GitHunk)
    (went : steps state hunk.allLines = .ok next) : ∃ paths found, flushHunk next =
        heading files { file with headerPaths := paths, hunks := file.hunks ++ [found] } ∧
      (found = hunk.expected → ∀ line ∈ hunk.lines, line.Kept) := by
  unfold GitHunk.allLines at went
  rw [steps_cons, step_hunkHeader at_file] at went
  obtain ⟨paths, lines, rfl, -, exactly⟩ := steps_lines hunk.lines files file (opened hunk) went
  refine ⟨paths, { opened hunk with lines }, rfl, fun same => exactly ?_⟩
  have lengths := congrArg (fun hunk : PatchHunk => hunk.lines.length) same
  simpa [GitHunk.expected, opened] using lengths

theorem steps_hunks_kept {state : PatchState} {files : List ParsedFilePatch}
    (at_file : flushHunk state = heading files file)
    (kept : ∀ hunk ∈ hunks, ∀ line ∈ hunk.lines, line.Kept) :
    ∃ next, steps state (hunks.flatMap GitHunk.allLines) = .ok next ∧ flushHunk next =
        heading files { file with hunks := file.hunks ++ hunks.map GitHunk.expected } := by
  induction hunks generalizing state file with
  | nil => exact ⟨state, rfl, by simpa using at_file⟩
  | cons hunk hunks ih =>
    obtain ⟨between, went, pushed⟩ := steps_hunk_kept at_file hunk (kept hunk (by simp))
    obtain ⟨next, rest, all⟩ := ih pushed fun other member => kept other (by simp [member])
    refine ⟨next, ?_, ?_⟩
    · rw [List.flatMap_cons, steps_append, went]
      exact rest
    · simpa using all

theorem steps_hunks {state : PatchState} {files : List ParsedFilePatch}
    (at_file : flushHunk state = heading files file)
    (went : steps state (hunks.flatMap GitHunk.allLines) = .ok next) :
    ∃ paths found, flushHunk next =
        heading files { file with headerPaths := paths, hunks := file.hunks ++ found } ∧
      (found = hunks.map GitHunk.expected → ∀ hunk ∈ hunks, ∀ line ∈ hunk.lines, line.Kept) := by
  induction hunks generalizing state file with
  | nil =>
    rw [Except.ok.inj went] at at_file
    exact ⟨file.headerPaths, [], by simpa using at_file, fun _ => nofun⟩
  | cons hunk hunks ih =>
    rw [List.flatMap_cons, steps_append] at went
    cases first : steps state hunk.allLines with
    | error error =>
      rw [first] at went
      contradiction
    | ok between =>
      rw [first] at went
      obtain ⟨paths, found, pushed, exactly⟩ := steps_hunk at_file hunk first
      obtain ⟨morePaths, more, all, allExactly⟩ := ih pushed went
      refine ⟨morePaths, found :: more, by simpa using all, fun same other member => ?_⟩
      rw [List.map_cons, List.cons.injEq] at same
      rcases List.mem_cons.mp member with rfl | later
      · exact exactly same.1
      · exact allExactly same.2 other later

end Patch

end Refyard
