import Refyard.Core.Patch
import Refyard.Foundation.Fallible
import Refyard.Foundation.Sections
import Mathlib.Algebra.Order.BigOperators.Group.List
import Mathlib.Algebra.Order.Group.Nat
import Mathlib.Algebra.Ring.Nat

/-! What is left of a patch that a bound cuts. Each file of it is a section, each hunk a group of
its lines. -/
namespace Refyard

namespace Patch

def holding (file : MutableFile) (hunks : List PatchHunk) : MutableFile := { file with hunks }

theorem hunks_withHeader (file : MutableFile) (header : Header) :
    (withHeader file header).hunks = file.hunks := by
  cases header with
  | index value => cases parsed : parseIndexMode value <;> simp [withHeader, parsed]
  | subproject value =>
    unfold withHeader
    dsimp only
    split
    · rfl
    · split <;> rfl
  | _ => rfl

theorem withHeader_holding (file : MutableFile) (hunks : List PatchHunk) (header : Header) :
    withHeader (holding file hunks) header = holding (withHeader file header) hunks := by
  cases header with
  | index value => cases parsed : parseIndexMode value <;> simp [withHeader, holding, parsed]
  | subproject value =>
    unfold withHeader holding
    dsimp only
    split
    · rfl
    · split <;> rfl
  | _ => rfl

def filing : Sections.Filing MutableFile Header PatchHunk ParsedFilePatch where
  new := .new
  tell := withHeader
  held := MutableFile.hunks
  holding := holding
  shut := intoPatch
  held_new := rfl
  held_tell := hunks_withHeader
  tell_holding := withHeader_holding
  held_holding := fun _ _ => rfl
  holding_holding := fun _ _ _ => rfl
  holding_held := fun _ => rfl

abbrev reading : Sections.Reading MutableFile Header PatchHunk ParsedFilePatch := filing.asReading

def flat (state : PatchState) : Sections.Flat MutableFile PatchHunk ParsedFilePatch :=
  ⟨state.files, state.current, state.currentHunk⟩

def sections (state : PatchState) : Sections.State MutableFile PatchHunk ParsedFilePatch :=
  filing.view (flat state)

variable (state : PatchState) {line : List Char} {bytes : Bytes} {options : ParsePatchOptions}
  {last : Sections.State MutableFile PatchHunk ParsedFilePatch}

theorem flat_flushHunk : flat (flushHunk state) = filing.flushGroup (flat state) := by
  obtain ⟨files, _ | file, _ | hunk⟩ := state <;> rfl

theorem flat_flushFile : flat (flushFile state) = filing.shutFile (flat state) := by
  obtain ⟨files, _ | file, hunk⟩ := state <;> rfl

def marked (hunk : PatchHunk) : Option PatchHunk :=
  (markLast hunk.lines).map fun lines => { hunk with lines }

def added (kind : PatchLineKind) (line : List Char) (hunk : PatchHunk) : PatchHunk :=
  { hunk with lines := hunk.lines ++ [{ kind, text := String.ofList line.tail, noNewline := false }] }

def isFileLine (line : List Char) : Bool := (stripPrefix "diff --git ".toList line).isSome

def lineAct (line : List Char) : Sections.Act Header PatchHunk :=
  if isFileLine line then .opens
  else
    match header? line with
    | some header => .header header
    | none =>
        if (stripPrefix "@@".toList line).isSome then
          match parseHunkHeader line with
          | none => .inner .refused
          | some (oldStart, oldLines, newStart, newLines) =>
              .inner (.group { header := String.ofList line, oldStart, oldLines, newStart, newLines,
                               lines := [] })
        else if line = noNewlineMarker.toList then .inner (.line marked)
        else
          match lineKind line with
          | some kind => .inner (.line fun hunk => some (added kind line hunk))
          | none => .inner .ends

theorem lineAct_inside (inside : isFileLine line = false) : lineAct line ≠ .opens := by
  unfold lineAct
  rw [inside, if_neg Bool.false_ne_true]
  repeat' split
  all_goals nofun

theorem lineAct_fails (line : List Char) : lineAct line ≠ .fails := by
  unfold lineAct
  repeat' split
  all_goals nofun

theorem hunkLine_flat (files : List ParsedFilePatch) (file : MutableFile) (hunk : PatchHunk)
    (line : List Char) : (hunkLine ⟨files, some file, some hunk⟩ hunk line).toOption.map flat =
      filing.step ⟨files, some file, some hunk⟩
        (if line = noNewlineMarker.toList then .inner (.line marked)
        else
          match lineKind line with
          | some kind => .inner (.line fun hunk => some (added kind line hunk))
          | none => .inner .ends) := by
  unfold hunkLine
  split
  · change _ = ((marked hunk).map _)
    unfold marked
    cases markLast hunk.lines <;> rfl
  · cases lineKind line <;> rfl

theorem step_flat (line : List Char) :
    (step state line).toOption.map flat = filing.step (flat state) (lineAct line) := by
  obtain ⟨files, current, hunk⟩ := state
  cases opens : isFileLine line with
  | true =>
    have act : lineAct line = .opens := if_pos opens
    have stepped : step ⟨files, current, hunk⟩ line =
        .ok { flushFile (flushHunk ⟨files, current, hunk⟩) with current := some .new } := if_pos opens
    rw [act, stepped]
    cases current <;> cases hunk <;> rfl
  | false =>
    cases current with
    | none =>
      have stepped : step ⟨files, none, hunk⟩ line = .ok ⟨files, none, hunk⟩ :=
        if_neg (Bool.eq_false_iff.mp opens)
      rw [stepped]
      cases kind : lineAct line with
      | fails => exact absurd kind (lineAct_fails line)
      | opens => exact absurd kind (lineAct_inside opens)
      | header | inner => rfl
    | some file =>
      unfold step lineAct
      unfold isFileLine at opens ⊢
      rw [opens, if_neg Bool.false_ne_true, if_neg Bool.false_ne_true]
      cases header? line with
      | some header => rfl
      | none =>
        dsimp only
        split
        · cases parseHunkHeader line with
          | none => rfl
          | some numbers =>
            obtain ⟨oldStart, oldLines, newStart, newLines⟩ := numbers
            cases hunk <;> rfl
        · cases hunk with
          | some hunk => exact hunkLine_flat files file hunk line
          | none =>
            dsimp only
            split
            · rfl
            · cases lineKind line <;> rfl

theorem step_sections (line : List Char) : (step state line).toOption.map sections =
      Sections.step reading (sections state) (lineAct line) := by
  rw [sections, ← Sections.Filing.view_step, ← step_flat, Option.map_map]
  rfl

theorem finish_sections :
    Sections.finish reading (sections state) = (flushFile (flushHunk state)).files := by
  rw [sections, Sections.Filing.finish_view, ← flat_flushHunk, ← flat_flushFile]
  rfl

theorem cutShort_sections :
    Sections.cutShort reading (sections state) = (flushFile state).files := by
  rw [sections, Sections.Filing.cutShort_view, ← flat_flushFile]
  rfl

def maxBytesOf (options : ParsePatchOptions) : Nat := options.maxBytes.getD patchMaxBytesPerFile

def maxLinesOf (options : ParsePatchOptions) : Nat := options.maxLines.getD patchMaxLinesPerFile

/-- Whether a line is where the parser stops. The bound on bytes is on the line alone. -/
def beyond (options : ParsePatchOptions) (lineCount : Nat) (line : Bytes) : Bool :=
  maxLinesOf options < lineCount || maxBytesOf options < line.length

def acts (lines : List Bytes) : List (Sections.Act Header PatchHunk) :=
  lines.map fun line => lineAct (decodeLine line)

def cutAt (bytes : Bytes) (options : ParsePatchOptions) : List Bytes × List Bytes :=
  Sections.cutLines (beyond options) 0 (splitLines bytes)

theorem run_eq_loop (options : ParsePatchOptions) (lineCount : Nat) (state : PatchState)
    (lines : List Bytes) : run (maxBytesOf options) (maxLinesOf options) lineCount state lines =
      Sections.loop (fun state line => step state (decodeLine line)) (beyond options) lineCount
        state lines := by
  induction lines generalizing lineCount state with
  | nil => rfl
  | cons line lines ih =>
    unfold run Sections.loop
    rw [← beyond]
    split
    · rfl
    · exact congrArg _ (funext fun next => ih (lineCount + 1) next)

theorem run_sections (options : ParsePatchOptions) (state : PatchState) (lines : List Bytes) :
    (run (maxBytesOf options) (maxLinesOf options) 0 state lines).toOption.map
        (fun result => (sections result.1, result.2)) = (Sections.run reading (sections state)
        (acts (Sections.cutLines (beyond options) 0 lines).1)).map fun last =>
          (last, !(Sections.cutLines (beyond options) 0 lines).2.isEmpty) := by
  rw [run_eq_loop]
  exact Sections.loop_sections (fun state line => step_sections state (decodeLine line)) 0 state
    lines

def nothing : Sections.State MutableFile PatchHunk ParsedFilePatch := ⟨[], none⟩

theorem parsePatch_sections (bytes : Bytes) (options : ParsePatchOptions) :
    (parsePatch bytes options).toOption =
      (Sections.run reading nothing (acts (cutAt bytes options).1)).map fun last =>
        if (cutAt bytes options).2 = [] then
          ⟨Sections.finish reading last, false⟩
        else ⟨Sections.cutShort reading last, true⟩ := by
  have ran := run_sections options ⟨[], none, none⟩ (splitLines bytes)
  have result := congrArg (Option.map fun found =>
    if found.2 then ParsePatchResult.mk (Sections.cutShort reading found.1) true
    else ⟨Sections.finish reading found.1, false⟩) ran
  rw [Option.map_map, Option.map_map] at result
  refine Eq.trans ?_ (result.trans ?_)
  · unfold parsePatch
    rw [toOption_bind, Option.map_eq_bind]
    apply congrArg (Option.bind _)
    funext read
    obtain ⟨state, truncated⟩ := read
    rw [Function.comp_apply, Function.comp_apply, finish_sections, cutShort_sections]
    cases truncated <;> rfl
  · unfold cutAt
    cases (Sections.cutLines (beyond options) 0 (splitLines bytes)).2 <;> rfl

/-! The hunks that are reported. -/

def isText (known : MutableFile) : Bool :=
  !known.binary && !known.submodule && known.oldMode != some gitlinkMode &&
    known.newMode != some gitlinkMode && known.unavailableReason.isNone

def hunksOf (file : ParsedFilePatch) : List PatchHunk :=
  match file.body with
  | .text hunks => hunks
  | _ => []

def hunkAt (result : ParsePatchResult) (file place : Nat) : Option PatchHunk :=
  Sections.groupAt hunksOf result.files file place

def lineBytes (line : PatchLine) : Nat := (Utf8.encode line.text.toList).length

def hunkBytes (hunk : PatchHunk) : Nat := (hunk.lines.map lineBytes).sum

def keptBytes (line : Bytes) : Nat :=
  if decodeLine line = noNewlineMarker.toList then 0
  else (Utf8.encode (decodeLine line).tail).length

/-- What the hunks of a file come to, told by the lines behind the one it begins with. -/
def fileBytes (lines : List Bytes) : Nat :=
  Sections.taken (fun line => lineAct (decodeLine line)) keptBytes false lines

theorem hunksOf_shut (known : MutableFile) (hunks : List PatchHunk) :
    hunksOf (reading.shut known hunks) = if isText known then hunks else [] := by
  obtain ⟨_, oldMode, newMode, _, _, _, _, _, binary, submodule, _, _, reason⟩ := known
  change hunksOf (intoPatch (holding _ hunks)) = _
  unfold hunksOf holding intoPatch body isText
  cases binary
  · cases submodule
    · by_cases old : oldMode = some gitlinkMode
      · simp [old]
      · by_cases new : newMode = some gitlinkMode
        · simp [new]
        · cases reason <;> cases hunks <;> simp [old, new]
    · simp
  · simp

theorem hunkBytes_added (kind : PatchLineKind) (line : List Char) (hunk : PatchHunk) :
    hunkBytes (added kind line hunk) = hunkBytes hunk + (Utf8.encode line.tail).length := by
  simp [hunkBytes, added, lineBytes]

theorem lineBytes_markLast {lines marked : List PatchLine} (found : markLast lines = some marked) :
    marked.map lineBytes = lines.map lineBytes := by
  induction lines generalizing marked with
  | nil => cases found
  | cons line lines ih =>
    cases lines with
    | nil =>
      cases found
      rfl
    | cons next lines =>
      obtain ⟨rest, later, rfl⟩ := Option.map_eq_some_iff.mp found
      exact congrArg (lineBytes line :: ·) (ih later)

theorem hunkBytes_marked {hunk next : PatchHunk} (found : marked hunk = some next) :
    hunkBytes next = hunkBytes hunk := by
  obtain ⟨lines, last, rfl⟩ := Option.map_eq_some_iff.mp found
  exact congrArg List.sum (lineBytes_markLast last)

theorem lineAct_opens : lineAct line = .opens ↔ isFileLine line = true := by
  constructor
  · intro opens
    by_contra inside
    exact lineAct_inside (Bool.eq_false_iff.mpr inside) opens
  · exact fun opens => if_pos opens

theorem lineAct_line {change : PatchHunk → Option PatchHunk}
    (act : lineAct line = .inner (.line change)) :
    (line = noNewlineMarker.toList ∧ change = marked) ∨
      line ≠ noNewlineMarker.toList ∧ ∃ kind, change = fun hunk => some (added kind line hunk) := by
  unfold lineAct at act
  split at act
  · cases act
  · split at act
    · cases act
    · split at act
      · split at act <;> cases act
      · split at act
        · next marker =>
          cases act
          exact .inl ⟨marker, rfl⟩
        · next other =>
          split at act
          · cases act
            exact .inr ⟨other, _, rfl⟩
          · cases act

theorem lineAct_group {empty : PatchHunk} (act : lineAct line = .inner (.group empty)) :
    empty.lines = [] := by
  unfold lineAct at act
  split at act
  · cases act
  · split at act
    · cases act
    · split at act
      · split at act <;> cases act
        rfl
      · split at act
        · cases act
        · split at act <;> cases act

theorem sum_hunkBytes {lines : List Bytes} {whole : List PatchHunk}
    (gathers : Sections.gathered .start (acts lines) = some whole) :
    (whole.map hunkBytes).sum = fileBytes lines := by
  have nothing (line : Bytes) (empty : PatchHunk)
      (act : lineAct (decodeLine line) = .inner (.group empty)) : hunkBytes empty = 0 := by
    simp [hunkBytes, lineAct_group act]
  have adds (line : Bytes) (change : PatchHunk → Option PatchHunk) (hunk next : PatchHunk)
      (act : lineAct (decodeLine line) = .inner (.line change)) (changes : change hunk = some next) :
      hunkBytes next = hunkBytes hunk + keptBytes line := by
    unfold keptBytes
    obtain ⟨marker, rfl⟩ | ⟨other, kind, rfl⟩ := lineAct_line act
    · rw [if_pos marker, hunkBytes_marked changes]
      rfl
    · cases changes
      rw [if_neg other, hunkBytes_added]
  have sum : (whole.map hunkBytes).sum = 0 + fileBytes lines :=
    Sections.sum_gathered nothing adds gathers
  rw [sum, Nat.zero_add]

/-! What the reported hunks are worth. -/

/-- A result that is not truncated keeps to the bound on bytes, file by file; the hunks of one that
is truncated are hunks of the whole patch. -/
structure KeepsToBounds (bytes : Bytes) (options : ParsePatchOptions)
    (result : ParsePatchResult) : Prop where
  bounded : result.truncated = false →
    ∀ file ∈ result.files, ((hunksOf file).map hunkBytes).sum ≤ maxBytesOf options
  whole : result.truncated = true → ∀ wide all, parsePatch bytes wide = .ok all →
    all.truncated = false → ∀ file place hunk, hunkAt result file place = some hunk →
      hunkAt all file place = some hunk

/-- Without a cut, no text file has hunk lines that come to more than the bound. With a cut, the
file that is open there, where it has hunks to show, is a text file to its end. -/
structure Fits (bytes : Bytes) (options : ParsePatchOptions) : Prop where
  bounded : (cutAt bytes options).2 = [] → ∀ front line lines,
    splitLines bytes = front ++ line :: lines → isFileLine (decodeLine line) = true →
      isText (Sections.told reading .new (acts lines)) = true → fileBytes lines ≤ maxBytesOf options
  whole : (cutAt bytes options).2 ≠ [] → ∀ last,
    Sections.run reading nothing (acts (cutAt bytes options).1) = some last →
      ∀ known groups, last.current = some (known, groups) → groups.done ≠ [] →
        isText known = true → (Sections.run reading last (acts (cutAt bytes options).2)).isSome →
          isText (Sections.told reading known (acts (cutAt bytes options).2)) = true

theorem cutAt_append (bytes : Bytes) (options : ParsePatchOptions) :
    (cutAt bytes options).1 ++ (cutAt bytes options).2 = splitLines bytes :=
  Sections.cutLines_append 0 (splitLines bytes)

theorem exists_wide (bytes : Bytes) : ∃ wide, cutAt bytes wide = (splitLines bytes, []) := by
  refine ⟨⟨some ((splitLines bytes).map List.length).sum, some (splitLines bytes).length⟩,
    Sections.cutLines_within fun place low line member => ?_⟩
  have short : line.length ≤ ((splitLines bytes).map List.length).sum :=
    List.le_sum_of_mem (List.mem_map_of_mem member)
  rw [Nat.zero_add] at low
  unfold beyond
  rw [Bool.or_eq_false_iff, decide_eq_false_iff_not, decide_eq_false_iff_not]
  exact ⟨Nat.not_lt.mpr low, Nat.not_lt.mpr short⟩

theorem truncated_iff {result : ParsePatchResult} (parsed : parsePatch bytes options = .ok result) :
    ∃ last, Sections.run reading nothing (acts (cutAt bytes options).1) = some last ∧
      ((cutAt bytes options).2 = [] ∧ result = ⟨Sections.finish reading last, false⟩ ∨
        (cutAt bytes options).2 ≠ [] ∧ result = ⟨Sections.cutShort reading last, true⟩) := by
  have shown := parsePatch_sections bytes options
  rw [parsed] at shown
  obtain ⟨last, ran, same⟩ := Option.map_eq_some_iff.mp shown.symm
  refine ⟨last, ran, ?_⟩
  by_cases cut : (cutAt bytes options).2 = []
  · rw [if_pos cut] at same
    exact .inl ⟨cut, same.symm⟩
  · rw [if_neg cut] at same
    exact .inr ⟨cut, same.symm⟩

theorem mem_files {lines : List Bytes} (ran : Sections.run reading nothing (acts lines) = some last)
    {file : ParsedFilePatch} (member : file ∈ Sections.finish reading last) :
    ∃ front line behind, lines = front ++ line :: behind ∧ isFileLine (decodeLine line) = true ∧
      ∃ whole, Sections.gathered .start (acts behind) = some whole ∧
        file = reading.shut (Sections.told reading .new (acts behind)) whole := by
  obtain shut | ⟨known, groups, whole, current, -, -⟩ | ⟨front, back, whole, cut, gathers, same⟩ :=
    Sections.mem_finish ran member
  · cases shut
  · cases current
  · obtain ⟨before, behind, rfl, rfl, opened⟩ := List.map_eq_append_iff.mp cut
    obtain ⟨line, later, rfl, opens, rfl⟩ := List.map_eq_cons_iff.mp opened
    exact ⟨before, line, later, rfl, lineAct_opens.mp opens, whole, gathers, same⟩

theorem file_of_line {front behind : List Bytes} {line : Bytes}
    (ran : Sections.run reading nothing (acts (front ++ line :: behind)) = some last)
    (opens : isFileLine (decodeLine line) = true) :
    ∃ whole, Sections.gathered .start (acts behind) = some whole ∧
      reading.shut (Sections.told reading .new (acts behind)) whole ∈
        Sections.finish reading last := by
  have opened : acts (front ++ line :: behind) = acts front ++ .opens :: acts behind := by
    unfold acts
    rw [List.map_append, List.map_cons, lineAct_opens.mpr opens]
  rw [opened] at ran
  obtain ⟨closed, whole, more, gathers, shown⟩ := Sections.finish_of_opens ran
  refine ⟨whole, gathers, ?_⟩
  rw [shown]
  exact List.mem_append_right _ List.mem_cons_self

theorem whole_of_cut {wide : ParsePatchOptions} {all : ParsePatchResult}
    (ran : Sections.run reading nothing (acts (cutAt bytes options).1) = some last)
    (parsed : parsePatch bytes wide = .ok all) (complete : all.truncated = false) :
    ∃ final, Sections.run reading last (acts (cutAt bytes options).2) = some final ∧
      all = ⟨Sections.finish reading final, false⟩ := by
  obtain ⟨final, through, ⟨nothing_left, same⟩ | ⟨-, rfl⟩⟩ := truncated_iff parsed
  · have lines : (cutAt bytes wide).1 = (cutAt bytes options).1 ++ (cutAt bytes options).2 := by
      rw [cutAt_append, ← cutAt_append bytes wide, nothing_left, List.append_nil]
    rw [lines, acts, List.map_append, Sections.run_append] at through
    change (Sections.run reading nothing (acts (cutAt bytes options).1)).bind _ = some final at through
    rw [ran] at through
    exact ⟨final, through, same⟩
  · cases complete

theorem exists_whole {final : Sections.State MutableFile PatchHunk ParsedFilePatch}
    (ran : Sections.run reading nothing (acts (cutAt bytes options).1) = some last)
    (through : Sections.run reading last (acts (cutAt bytes options).2) = some final) :
    ∃ wide, parsePatch bytes wide = .ok ⟨Sections.finish reading final, false⟩ := by
  obtain ⟨wide, uncut⟩ := exists_wide bytes
  refine ⟨wide, toOption_eq_some.mp ?_⟩
  rw [parsePatch_sections, uncut, ← cutAt_append bytes options, acts, List.map_append,
    Sections.run_append]
  change ((Sections.run reading nothing (acts (cutAt bytes options).1)).bind fun between =>
    Sections.run reading between (acts (cutAt bytes options).2)).map _ = _
  rw [ran, Option.bind_some, through]
  rfl

theorem whole_iff (ran : Sections.run reading nothing (acts (cutAt bytes options).1) = some last) :
    (∀ wide all, parsePatch bytes wide = .ok all → all.truncated = false →
      ∀ file place hunk, hunkAt ⟨Sections.cutShort reading last, true⟩ file place = some hunk →
        hunkAt all file place = some hunk) ↔
    ∀ known groups, last.current = some (known, groups) → groups.done ≠ [] →
      isText known = true → (Sections.run reading last (acts (cutAt bytes options).2)).isSome →
        isText (Sections.told reading known (acts (cutAt bytes options).2)) = true := by
  constructor
  · intro kept known groups current hunks text through
    obtain ⟨final, through⟩ := Option.isSome_iff_exists.mp through
    obtain ⟨wide, whole⟩ := exists_whole ran through
    exact ((Sections.kept_iff hunksOf_shut through).mp (kept wide _ whole rfl) known groups current
      text hunks).1
  · intro stays wide all whole complete
    obtain ⟨final, through, rfl⟩ := whole_of_cut ran whole complete
    refine (Sections.kept_iff hunksOf_shut through).mpr fun known groups current text hunks => ?_
    exact ⟨stays known groups current hunks text (Option.isSome_iff_exists.mpr ⟨final, through⟩),
      fun whole gathers => Sections.done_prefix gathers⟩

/-- The bound on bytes is on each line alone, so a file keeps to it exactly where its lines do; and
the hunks that a cut patch shows are those of the whole one exactly where its last file stays a text
file. -/
theorem keepsToBounds_iff {bytes : Bytes} {options : ParsePatchOptions} {result : ParsePatchResult}
    (parsed : parsePatch bytes options = .ok result) :
    KeepsToBounds bytes options result ↔ Fits bytes options := by
  obtain ⟨last, ran, ⟨uncut, rfl⟩ | ⟨cut, rfl⟩⟩ := truncated_iff parsed
  · have lines : (cutAt bytes options).1 = splitLines bytes := by
      rw [← cutAt_append bytes options, uncut, List.append_nil]
    rw [lines] at ran
    constructor
    · intro keeps
      refine ⟨fun _ front line behind split opens text => ?_, fun cut => (cut uncut).elim⟩
      rw [split] at ran
      obtain ⟨whole, gathers, member⟩ := file_of_line ran opens
      have bounded := keeps.bounded rfl _ member
      rw [hunksOf_shut, if_pos text, sum_hunkBytes gathers] at bounded
      exact bounded
    · intro fits
      refine ⟨fun _ file member => ?_, nofun⟩
      obtain ⟨front, line, behind, split, opens, whole, gathers, rfl⟩ := mem_files ran member
      rw [hunksOf_shut]
      split
      · next text =>
        rw [sum_hunkBytes gathers]
        exact fits.bounded uncut front line behind split opens text
      · exact Nat.zero_le _
  · constructor
    · intro keeps
      refine ⟨fun uncut => (cut uncut).elim, fun _ other same => ?_⟩
      cases ran.symm.trans same
      exact (whole_iff ran).mp (keeps.whole rfl)
    · exact fun fits => ⟨nofun, fun _ => (whole_iff ran).mpr (fits.whole cut last ran)⟩

def shortLines : Bytes :=
  "diff --git \n@@ -1 +1 @@\n-aaaaaaaaaaa\n+bbbbbbbbbbb\n".toUTF8.toList

def twoLines : PatchHunk where
  header := "@@ -1 +1 @@"
  oldStart := 1
  oldLines := 1
  newStart := 1
  newLines := 1
  lines := [⟨.remove, "aaaaaaaaaaa", false⟩, ⟨.add, "bbbbbbbbbbb", false⟩]

def ofShortLines : ParsePatchResult :=
  ⟨[intoPatch { MutableFile.new with hunks := [twoLines] }], false⟩

theorem parsePatch_shortLines : parsePatch shortLines ⟨some 12, some 4⟩ = .ok ofShortLines := by
  unfold shortLines
  rw [toList_toUTF8, String.toList_ofList]
  decide +kernel

/-- A bound that each line keeps to alone. -/
theorem not_keepsToBounds_shortLines : ∃ result,
    parsePatch shortLines ⟨some 12, some 4⟩ = .ok result ∧
      ¬KeepsToBounds shortLines ⟨some 12, some 4⟩ result := by
  refine ⟨ofShortLines, parsePatch_shortLines, fun keeps => ?_⟩
  have bounded := keeps.bounded rfl _ List.mem_cons_self
  revert bounded
  decide +kernel

theorem keepsToBounds_shortLines :
    KeepsToBounds shortLines ⟨some 12, some 4⟩ ofShortLines ↔ Fits shortLines ⟨some 12, some 4⟩ :=
  keepsToBounds_iff parsePatch_shortLines

end Patch

end Refyard
