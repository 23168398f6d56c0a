import Refyard.Core.Bytes
import Refyard.Foundation.Utf8
import Refyard.Registration

/-! The layout query: a line for each fact about a repository, read back by their positions. -/
namespace Refyard.Registration

/-- `str::lines` takes a carriage return away with the line feed behind it. -/
def chomp (line : List Char) : List Char :=
  if line.getLast? = some '\r' then line.dropLast else line

def textLines (text : List Char) : List (List Char) :=
  let parts := text.splitOn '\n'
  parts.dropLast.map chomp ++ parts.getLast?.toList.filter (· ≠ [])

def layoutFormat : String := "rev-parse layout"

def parseRepositoryLayout (bytes : Bytes) (expectTopLevel : Bool) :
    Except CoreError RepositoryLayout :=
  match Utf8.decodeStrict bytes with
  | none => .error (.outputUnparsable layoutFormat "layout output is not UTF-8")
  | some text =>
      let lines := (textLines text).map String.ofList
      let expected := if expectTopLevel then 6 else 5
      let layout (topLevel : Option String) (gitDir commonDir bare format shallow : String) :=
        { gitDir, commonDir, topLevel
          isBare := bare = "true"
          objectFormat := if format = "sha256" then "sha256" else "sha1"
          isShallow := shallow = "true" : RepositoryLayout }
      match expectTopLevel, lines with
      | true, [gitDir, commonDir, topLevel, bare, format, shallow] =>
          .ok (layout (some topLevel) gitDir commonDir bare format shallow)
      | false, [gitDir, commonDir, bare, format, shallow] =>
          .ok (layout none gitDir commonDir bare format shallow)
      | _, _ =>
          .error (.outputUnparsable layoutFormat
            s!"expected {expected} layout lines but found {lines.length}")

/-- A finished run of Git. -/
structure LayoutRun where
  notStarted : Bool
  succeeded : Bool
  stdout : Bytes

def LayoutRun.read (run : LayoutRun) (expectTopLevel : Bool) : Option RepositoryLayout :=
  if run.succeeded then (parseRepositoryLayout run.stdout expectTopLevel).toOption else none

/-- The layout a repository is opened with, or the run whose failure is reported. -/
def openLayout (full bareSafe : LayoutRun) : Except LayoutRun RepositoryLayout :=
  match full.read true, bareSafe.read false with
  | some layout, _ => .ok layout
  | none, some layout => .ok layout
  | none, none => .error (if full.notStarted then bareSafe else full)

def paths (layout : RepositoryLayout) : List String :=
  layout.gitDir :: layout.commonDir :: layout.topLevel.toList

def facts (layout : RepositoryLayout) : List String :=
  let flag (value : Bool) := if value then "true" else "false"
  [flag layout.isBare, layout.objectFormat, flag layout.isShallow]

/-- The lines Git prints for a layout. -/
def printed (layout : RepositoryLayout) : List String := paths layout ++ facts layout

def output (lines : List String) : Bytes :=
  Utf8.encode (lines.flatMap fun line => line.toList ++ ['\n'])

def bareSafe (layout : RepositoryLayout) : RepositoryLayout := { layout with topLevel := none }

/-- Git refuses `--show-toplevel` where there is no work tree, behind the paths it could resolve. -/
def fullRun (layout : RepositoryLayout) : LayoutRun :=
  ⟨false, layout.topLevel.isSome,
    output (if layout.topLevel.isSome then printed layout else paths layout)⟩

def bareSafeRun (layout : RepositoryLayout) : LayoutRun :=
  ⟨false, true, output (printed (bareSafe layout))⟩

def OneLine (layout : RepositoryLayout) : Prop := ∀ path ∈ paths layout, '\n' ∉ path.toList

/-- Both answers are read back, and no answer about a path of several lines is. -/
def Inverts (layout : RepositoryLayout) : Prop :=
  (OneLine layout →
    (layout.topLevel.isSome → parseRepositoryLayout (output (printed layout)) true = .ok layout) ∧
      parseRepositoryLayout (output (printed (bareSafe layout))) false = .ok (bareSafe layout) ∧
      openLayout (fullRun layout) (bareSafeRun layout) = .ok layout) ∧
  (¬ OneLine layout → (openLayout (fullRun layout) (bareSafeRun layout)).isOk = false)

variable {lines : List String} {layout : RepositoryLayout}

theorem textLines_output (lines : List String) :
    textLines (lines.flatMap fun line => line.toList ++ ['\n']) =
      (lines.flatMap fun line => line.toList.splitOn '\n').map chomp := by
  have parts : (lines.flatMap fun line => line.toList ++ ['\n']).splitOn '\n' =
      (lines.flatMap fun line => line.toList.splitOn '\n') ++ [[]] := by
    induction lines with
    | nil => rfl
    | cons line rest ih =>
      rw [List.flatMap_cons, List.append_assoc, List.singleton_append,
        List.splitOn_append_cons_self, ih, List.flatMap_cons, List.append_assoc]
  rw [textLines, parts, List.dropLast_concat]
  simp

theorem decodeStrict_output (lines : List String) : Utf8.decodeStrict (output lines) =
    some (lines.flatMap fun line => line.toList ++ ['\n']) :=
  Utf8.decodeStrict_eq_some.mpr rfl

theorem lines_one (one : ∀ line ∈ lines, '\n' ∉ line.toList) :
    (lines.flatMap fun line => line.toList.splitOn '\n') = lines.map String.toList := by
  induction lines with
  | nil => rfl
  | cons line rest ih =>
    rw [List.forall_mem_cons] at one
    rw [List.flatMap_cons, List.splitOn_eq_singleton one.1, ih one.2]
    rfl

theorem length_lines (more : ∃ line ∈ lines, '\n' ∈ line.toList) :
    lines.length < (lines.flatMap fun line => line.toList.splitOn '\n').length := by
  have some_line (text : List Char) : 1 ≤ (text.splitOn '\n').length :=
    List.length_pos_iff.mpr (List.splitOn_ne_nil '\n' text)
  have least (lines : List String) :
      lines.length ≤ (lines.flatMap fun line => line.toList.splitOn '\n').length := by
    induction lines with
    | nil => exact Nat.le_refl _
    | cons line rest ih =>
      have first := some_line line.toList
      rw [List.flatMap_cons, List.length_append, List.length_cons]
      omega
  obtain ⟨line, member, feed⟩ := more
  obtain ⟨before, behind, rfl⟩ := List.append_of_mem member
  obtain ⟨front, back, split⟩ := List.append_of_mem feed
  have first := some_line front
  have second := some_line back
  have early := least before
  have late := least behind
  rw [List.flatMap_append, List.flatMap_cons, split, List.splitOn_append_cons_self]
  simp only [List.length_append, List.length_cons]
  omega

theorem chomp_eq_self (line : List Char) : chomp line = line ↔ line.getLast? ≠ some '\r' := by
  unfold chomp
  split
  · rename_i ended
    have shorter : line.dropLast ≠ line := by
      intro same
      have lengths := congrArg List.length same
      cases line with
      | nil => cases ended
      | cons first rest => simp at lengths
    exact iff_of_false shorter (fun other => other ended)
  · rename_i other
    exact iff_of_true rfl other

def trimmedPath (path : String) : String := String.ofList (chomp path.toList)

/-- The layout as it is read. -/
def trimmed (layout : RepositoryLayout) : RepositoryLayout :=
  { layout with
    gitDir := trimmedPath layout.gitDir
    commonDir := trimmedPath layout.commonDir
    topLevel := layout.topLevel.map trimmedPath }

theorem trimmed_eq_self : trimmed layout = layout ↔
    ∀ path ∈ paths layout, path.toList.getLast? ≠ some '\r' := by
  have single (path : String) : trimmedPath path = path ↔ path.toList.getLast? ≠ some '\r' := by
    rw [← chomp_eq_self, trimmedPath, ← String.toList_inj, String.toList_ofList]
  obtain ⟨gitDir, topLevel, commonDir, isBare, format, isShallow⟩ := layout
  cases topLevel <;> simp [trimmed, paths, single, and_comm]

def Format (layout : RepositoryLayout) : Prop :=
  layout.objectFormat = "sha1" ∨ layout.objectFormat = "sha256"

theorem facts_plain (format : Format layout) :
    ∀ line ∈ facts layout, '\n' ∉ line.toList ∧ trimmedPath line = line := by
  obtain ⟨gitDir, topLevel, commonDir, isBare, name, isShallow⟩ := layout
  obtain rfl | rfl := format <;> cases isBare <;> cases isShallow <;> simp [facts] <;> decide

theorem lines_printed (format : Format layout) (one : OneLine layout) :
    ((textLines ((printed layout).flatMap fun line => line.toList ++ ['\n'])).map String.ofList) =
      printed (trimmed layout) := by
  have plain := facts_plain format
  have whole : ∀ line ∈ printed layout, '\n' ∉ line.toList := by
    intro line member
    exact (List.mem_append.mp member).elim (one line) fun fact => (plain line fact).1
  have kept : (facts layout).map trimmedPath = facts layout :=
    (List.map_congr_left fun line fact => (plain line fact).2).trans (List.map_id' _)
  have places : (paths layout).map trimmedPath = paths (trimmed layout) := by
    cases top : layout.topLevel <;> simp [paths, trimmed, top]
  rw [textLines_output, lines_one whole, List.map_map, List.map_map, printed, List.map_append]
  exact congr_arg₂ _ places kept

theorem parse_full (format : Format layout) (one : OneLine layout) (inTree : layout.topLevel.isSome) :
    parseRepositoryLayout (output (printed layout)) true = .ok (trimmed layout) := by
  have lines := lines_printed format one
  obtain ⟨gitDir, topLevel, commonDir, isBare, name, isShallow⟩ := layout
  obtain ⟨top, rfl⟩ := Option.isSome_iff_exists.mp inTree
  simp only [parseRepositoryLayout, decodeStrict_output, lines]
  obtain rfl | rfl := format <;> cases isBare <;> cases isShallow <;>
    simp [printed, paths, facts, trimmed]

theorem parse_bareSafe (format : Format layout) (one : OneLine (bareSafe layout)) :
    parseRepositoryLayout (output (printed (bareSafe layout))) false =
      .ok (bareSafe (trimmed layout)) := by
  have lines := @lines_printed (bareSafe layout) format one
  obtain ⟨gitDir, topLevel, commonDir, isBare, name, isShallow⟩ := layout
  simp only [parseRepositoryLayout, decodeStrict_output, lines]
  obtain rfl | rfl := format <;> cases isBare <;> cases isShallow <;>
    simp [printed, paths, facts, trimmed, bareSafe]

theorem read_longer {run : LayoutRun} {expectTopLevel : Bool} (printed : run.stdout = output lines)
    (more : ∃ line ∈ lines, '\n' ∈ line.toList)
    (expected : (if expectTopLevel then 6 else 5) ≤ lines.length) : run.read expectTopLevel = none := by
  have long := length_lines more
  rw [LayoutRun.read, printed, parseRepositoryLayout, decodeStrict_output]
  simp only [textLines_output]
  generalize found : ((lines.flatMap fun line => line.toList.splitOn '\n').map chomp).map
    String.ofList = read
  have same : read.length = (lines.flatMap fun line => line.toList.splitOn '\n').length := by
    rw [← found, List.length_map, List.length_map]
  split
  · split
    · simp only [List.length_cons, List.length_nil, if_true] at same expected
      omega
    · simp only [List.length_cons, List.length_nil, Bool.false_eq_true, if_false] at same expected
      omega
    · rfl
  · rfl

theorem OneLine.bareSafe (one : OneLine layout) : OneLine (bareSafe layout) := by
  intro path member
  apply one
  simp only [paths, Registration.bareSafe, List.mem_cons, Option.toList_none, List.not_mem_nil,
    or_false] at member ⊢
  exact member.imp_right .inl

theorem open_trimmed (format : Format layout) (one : OneLine layout) :
    openLayout (fullRun layout) (bareSafeRun layout) = .ok (trimmed layout) := by
  have second : (bareSafeRun layout).read false = some (bareSafe (trimmed layout)) := by
    simp [LayoutRun.read, bareSafeRun, parse_bareSafe format one.bareSafe, Except.toOption]
  cases top : layout.topLevel with
  | none =>
    have first : (fullRun layout).read true = none := by simp [LayoutRun.read, fullRun, top]
    have bare : bareSafe (trimmed layout) = trimmed layout := by simp [bareSafe, trimmed, top]
    rw [openLayout, first, second, bare]
  | some path =>
    have first : (fullRun layout).read true = some (trimmed layout) := by
      simp [LayoutRun.read, fullRun, top, parse_full format one, Except.toOption]
    rw [openLayout, first]

theorem open_longer (format : Format layout) (longer : ¬ OneLine layout) :
    (openLayout (fullRun layout) (bareSafeRun layout)).isOk = false ↔
      '\n' ∈ layout.gitDir.toList ∨ '\n' ∈ layout.commonDir.toList := by
  have first : (fullRun layout).read true = none := by
    cases top : layout.topLevel with
    | none => simp [LayoutRun.read, fullRun, top]
    | some path =>
      unfold OneLine at longer
      push Not at longer
      obtain ⟨line, member, feed⟩ := longer
      apply @read_longer (printed layout) _ _ (by simp [fullRun, top])
        ⟨line, List.mem_append_left _ member, feed⟩
      simp [printed, paths, facts, top]
  by_cases within : OneLine (bareSafe layout)
  · have second : (bareSafeRun layout).read false = some (bareSafe (trimmed layout)) := by
      simp [LayoutRun.read, bareSafeRun, parse_bareSafe format within, Except.toOption]
    rw [openLayout, first, second]
    apply iff_of_false (by simp [Except.isOk, Except.toBool])
    rintro (feed | feed)
    · exact within _ (by simp [paths, bareSafe]) feed
    · exact within _ (by simp [paths, bareSafe]) feed
  · unfold OneLine at within
    push Not at within
    obtain ⟨line, member, feed⟩ := within
    have second : (bareSafeRun layout).read false = none := by
      apply @read_longer (printed (bareSafe layout)) _ _ rfl ⟨line, List.mem_append_left _ member, feed⟩
      simp [printed, paths, facts, bareSafe]
    rw [openLayout, first, second]
    apply iff_of_true rfl
    simp only [paths, bareSafe, List.mem_cons, Option.toList_none, List.not_mem_nil, or_false] at member
    obtain rfl | rfl := member
    · exact .inl feed
    · exact .inr feed

/-- A path that ends in a carriage return is read without it. A line feed in the path of the work
tree alone lets the second answer be read, which does not tell that path. -/
theorem layout_inverts_iff (layout : RepositoryLayout) (format : Format layout) :
    Inverts layout ↔ (OneLine layout → ∀ path ∈ paths layout, path.toList.getLast? ≠ some '\r') ∧
      (¬ OneLine layout → '\n' ∈ layout.gitDir.toList ∨ '\n' ∈ layout.commonDir.toList) := by
  apply and_congr
  · apply imp_congr_right
    intro one
    rw [← trimmed_eq_self, open_trimmed format one]
    constructor
    · rintro ⟨-, -, opened⟩
      exact Except.ok.inj opened
    · intro same
      refine ⟨fun inTree => ?_, ?_, by rw [same]⟩
      · rw [parse_full format one inTree, same]
      · rw [parse_bareSafe format one.bareSafe, same]
  · exact imp_congr_right fun longer => open_longer format longer

def plainLayout : RepositoryLayout := ⟨"/r/.git", some "/r", "/r/.git", false, "sha1", false⟩

/-- A checkout whose directory is named by a carriage return. -/
def returnLayout : RepositoryLayout := ⟨"/r\r", none, "/r\r", true, "sha1", false⟩

theorem layout_inverts_plain : Format plainLayout ∧ Inverts plainLayout := by
  have format : Format plainLayout := .inl rfl
  refine ⟨format, (layout_inverts_iff plainLayout format).mpr ⟨fun _ => by decide, fun longer => ?_⟩⟩
  exact absurd (by decide : ∀ path ∈ paths plainLayout, '\n' ∉ path.toList) longer

theorem carriage_return_is_lost :
    ¬ ∀ layout : RepositoryLayout, Format layout → Inverts layout := by
  intro inverts
  have read := ((inverts returnLayout (.inl rfl)).1 (by unfold OneLine; decide)).2.1
  exact absurd read (by decide +kernel)

end Refyard.Registration
