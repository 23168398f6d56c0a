import Refyard.Core.Frames
import Refyard.Foundation.Fallible

/-! `git diff --numstat -z` and `git diff --name-status -z`. An entry takes one, two or three
frames, and its first frame says how many. -/
namespace Refyard

def numstatFormat : String := "diff --numstat -z"

def nameStatusFormat : String := "diff --name-status -z"

/-- `CORE_LIMITS.refListMaxEntries`. -/
def diffMaxEntries : Nat := 5000

/-- The loop of both parsers. `read` takes an entry off its first frame and says how many more
frames it took; an empty frame between two entries is passed by. -/
def entriesFrom {α : Type} (read : Bytes → List Bytes → Except CoreError (α × Nat))
    (exceeded : CoreError) (maxEntries : Nat) (skip count : Nat) :
    List Bytes → Except CoreError (List α)
  | [] => .ok []
  | frame :: rest =>
      match skip with
      | skip + 1 => entriesFrom read exceeded maxEntries skip count rest
      | 0 =>
          if frame.isEmpty then entriesFrom read exceeded maxEntries 0 count rest
          else if maxEntries ≤ count then .error exceeded
          else
            match read frame rest with
            | .error error => .error error
            | .ok (entry, taken) =>
                (entriesFrom read exceeded maxEntries taken (count + 1) rest).map (entry :: ·)

def takePaths (format kind : String) : List Bytes → Except CoreError (Bytes × Bytes)
  | original :: path :: _ =>
      if original.isEmpty || path.isEmpty then
        .error (.outputUnparsable format s!"{kind} entry has an empty path")
      else .ok (original, path)
  | _ =>
      .error (.outputUnparsable format s!"{kind} entry was not followed by its two path frames")

structure NumstatEntry where
  /-- Git prints `-` for a binary change, which is no count. -/
  insertions : Option Nat
  deletions : Option Nat
  path : Bytes
  originalPath : Option Bytes
  binary : Bool
  deriving DecidableEq

def takeUntil (separator : UInt8) (bytes : Bytes) : Bytes × Bytes :=
  (bytes.takeWhile (· ≠ separator), bytes.dropWhile (· ≠ separator))

def expectTab (name : String) (offset : Nat) : Bytes → Except CoreError Bytes
  | 0x09 :: rest => .ok rest
  | _ => .error (.outputUnparsable numstatFormat s!"expected {name} (at byte {offset})")

def parseCount (field : String) : Except CoreError Nat :=
  let error := CoreError.outputUnparsable numstatFormat s!"expected a line count but found '{field}'"
  if field.isEmpty || !field.toList.all Char.isDigit then .error error
  else
    match parseUnsigned 64 field.toList with
    | some value => .ok value
    | none => .error error

def countOf (binary : Bool) (field : String) : Except CoreError (Option Nat) :=
  if binary then .ok none else (parseCount field).map some

def readNumstat (frame : Bytes) (following : List Bytes) :
    Except CoreError (NumstatEntry × Nat) := do
  let (insertionsField, rest) := takeUntil 0x09 frame
  let rest ← expectTab "a tab after the insertion count" insertionsField.length rest
  let (deletionsField, rest) := takeUntil 0x09 rest
  let path ← expectTab "a tab after the deletion count"
    (insertionsField.length + 1 + deletionsField.length) rest
  let insertionsText ← decodeAscii insertionsField numstatFormat
  let deletionsText ← decodeAscii deletionsField numstatFormat
  let binary := insertionsText == "-" && deletionsText == "-"
  let insertions ← countOf binary insertionsText
  let deletions ← countOf binary deletionsText
  if path.isEmpty then
    let (originalPath, newPath) ← takePaths numstatFormat "rename" following
    pure ({ insertions, deletions, path := newPath, originalPath := some originalPath, binary }, 2)
  else pure ({ insertions, deletions, path, originalPath := none, binary }, 0)

def parseNumstat (bytes : Bytes) (maxEntries : Nat) : Except CoreError (List NumstatEntry) := do
  let frames ← splitNulFrames bytes numstatFormat
  entriesFrom readNumstat
    (.outputUnparsable numstatFormat s!"numstat exceeded {maxEntries} entries") maxEntries 0 0 frames

inductive ChangeKind where
  | added
  | modified
  | deleted
  | renamed
  | copied
  | typeChanged
  | unmerged
  deriving DecidableEq

structure NameStatusEntry where
  changeKind : ChangeKind
  path : Bytes
  originalPath : Option Bytes
  /-- The similarity percentage of a rename or copy. -/
  score : Option Nat
  rawStatus : String

def changeKindFromLetter : Char → Except CoreError ChangeKind
  | 'A' => .ok .added
  | 'M' => .ok .modified
  | 'D' => .ok .deleted
  | 'R' => .ok .renamed
  | 'C' => .ok .copied
  | 'T' => .ok .typeChanged
  | 'U' => .ok .unmerged
  | letter =>
      .error (.outputUnparsable nameStatusFormat
        s!"unknown change status '{String.singleton letter}' (at byte 0)")

def parseScore (status : String) (digits : List Char) : Except CoreError Nat :=
  let error :=
    CoreError.outputUnparsable nameStatusFormat s!"rename/copy status '{status}' has no score"
  if digits.isEmpty || !digits.all Char.isDigit then .error error
  else
    match parseUnsigned 64 digits with
    | some value => .ok value
    | none => .error error

def readMoved (changeKind : ChangeKind) (status : String) (following : List Bytes) :
    Except CoreError (NameStatusEntry × Nat) := do
  let score ← parseScore status status.toList.tail
  let (originalPath, path) ← takePaths nameStatusFormat "rename/copy" following
  pure ({ changeKind, path, originalPath := some originalPath, score := some score,
          rawStatus := status }, 2)

def readPlain (changeKind : ChangeKind) (status : String) (following : List Bytes) :
    Except CoreError (NameStatusEntry × Nat) :=
  if status.toList.length ≠ 1 then
    .error (.outputUnparsable nameStatusFormat s!"unexpected status token '{status}'")
  else
    match following with
    | [] =>
        .error (.outputUnparsable nameStatusFormat "status entry was not followed by a path frame")
    | path :: _ =>
        if path.isEmpty then
          .error (.outputUnparsable nameStatusFormat "status entry has an empty path")
        else
          .ok ({ changeKind, path, originalPath := none, score := none, rawStatus := status }, 1)

def readNameStatus (frame : Bytes) (following : List Bytes) :
    Except CoreError (NameStatusEntry × Nat) := do
  let status ← decodeAscii frame nameStatusFormat
  -- the frame is not empty
  let letter := status.toList.headD ' '
  let changeKind ← changeKindFromLetter letter
  if letter = 'R' ∨ letter = 'C' then readMoved changeKind status following
  else readPlain changeKind status following

def parseNameStatus (bytes : Bytes) (maxEntries : Nat) :
    Except CoreError (List NameStatusEntry) := do
  let frames ← splitNulFrames bytes nameStatusFormat
  entriesFrom readNameStatus
    (.outputUnparsable nameStatusFormat s!"name-status exceeded {maxEntries} entries")
    maxEntries 0 0 frames

/-- An entry with its frames: the first says how many follow, and without them it is refused. -/
structure FramedEntry {α : Type} (read : Bytes → List Bytes → Except CoreError (α × Nat)) where
  entry : α
  first : Bytes
  more : List Bytes
  someByte : first ≠ []
  clean : ∀ frame ∈ first :: more, (0 : UInt8) ∉ frame
  reads : ∀ rest, read first (more ++ rest) = .ok (entry, more.length)
  needs : ∀ part, part <+: more → part ≠ more → (read first part).isOk = false

section Framed

variable {α : Type} {read : Bytes → List Bytes → Except CoreError (α × Nat)} {exceeded : CoreError}
  {maxEntries : Nat}

def FramedEntry.frames (framed : FramedEntry read) : List Bytes := framed.first :: framed.more

def allFrames (entries : List (FramedEntry read)) : List Bytes :=
  entries.flatMap FramedEntry.frames

theorem entriesFrom_skip (count : Nat) (taken rest : List Bytes) :
    entriesFrom read exceeded maxEntries taken.length count (taken ++ rest) =
      entriesFrom read exceeded maxEntries 0 count rest := by
  induction taken with
  | nil => rfl
  | cons frame taken ih => exact ih

theorem entriesFrom_first {frame : Bytes} (someByte : frame ≠ []) (count : Nat)
    (rest : List Bytes) : entriesFrom read exceeded maxEntries 0 count (frame :: rest) =
      if maxEntries ≤ count then .error exceeded
      else
        match read frame rest with
        | .error error => .error error
        | .ok (entry, taken) =>
            (entriesFrom read exceeded maxEntries taken (count + 1) rest).map (entry :: ·) := by
  rw [entriesFrom, if_neg (by simpa using someByte)]

variable {count : Nat}

theorem entriesFrom_entry (framed : FramedEntry read) (room : count < maxEntries)
    (rest : List Bytes) : entriesFrom read exceeded maxEntries 0 count (framed.frames ++ rest) =
      (entriesFrom read exceeded maxEntries 0 (count + 1) rest).map (framed.entry :: ·) := by
  rw [FramedEntry.frames, List.cons_append, entriesFrom_first framed.someByte,
    if_neg (Nat.not_le.mpr room), framed.reads]
  dsimp only
  rw [entriesFrom_skip]

variable {entries : List (FramedEntry read)}

theorem entriesFrom_entries (room : count + entries.length ≤ maxEntries) (rest : List Bytes) :
    entriesFrom read exceeded maxEntries 0 count (allFrames entries ++ rest) =
      (entriesFrom read exceeded maxEntries 0 (count + entries.length) rest).map
        (entries.map FramedEntry.entry ++ ·) := by
  induction entries generalizing count with
  | nil =>
    change entriesFrom _ _ _ _ _ rest = (entriesFrom _ _ _ _ _ rest).map id
    rw [Except.map_id]
    rfl
  | cons framed entries ih =>
    rw [List.length_cons] at room ⊢
    rw [allFrames, List.flatMap_cons, List.append_assoc, entriesFrom_entry framed (by omega)]
    have later := @ih (count + 1) (by omega)
    unfold allFrames at later
    rw [later, Nat.add_right_comm, Nat.add_assoc]
    cases entriesFrom read exceeded maxEntries 0 (count + (entries.length + 1)) rest <;> rfl

theorem entriesFrom_exceeded (below : count ≤ maxEntries)
    (many : maxEntries < count + entries.length) (rest : List Bytes) :
    entriesFrom read exceeded maxEntries 0 count (allFrames entries ++ rest) = .error exceeded := by
  induction entries generalizing count with
  | nil => simp at many; omega
  | cons framed entries ih =>
    rw [List.length_cons] at many
    rw [allFrames, List.flatMap_cons, List.append_assoc]
    by_cases room : count < maxEntries
    · have later := @ih (count + 1) (by omega) (by omega)
      unfold allFrames at later
      rw [entriesFrom_entry framed room, later]
      rfl
    · rw [FramedEntry.frames, List.cons_append, entriesFrom_first framed.someByte,
        if_pos (Nat.not_lt.mp room)]

theorem entriesFrom_part (framed : FramedEntry read) {part : List Bytes}
    (prefixed : part <+: framed.more) (cut : part ≠ framed.more) (count : Nat) :
    (entriesFrom read exceeded maxEntries 0 count (framed.first :: part)).isOk = false := by
  have refused := framed.needs part prefixed cut
  rw [entriesFrom_first framed.someByte]
  split
  · rfl
  · cases answer : read framed.first part with
    | error error => rfl
    | ok entry =>
      rw [answer] at refused
      cases refused

theorem clean_allFrames (entries : List (FramedEntry read)) :
    ∀ frame ∈ allFrames entries, (0 : UInt8) ∉ frame := by
  intro frame member
  obtain ⟨framed, -, inside⟩ := List.mem_flatMap.mp member
  exact framed.clean frame inside

end Framed

variable {part : Bytes}

theorem cut_nulFrames {frames : List Bytes} (clean : ∀ frame ∈ frames, (0 : UInt8) ∉ frame)
    (cut : part <+: nulFrames frames) : (∃ last, part.getLast? = some last ∧ last ≠ 0) ∨
      ∃ whole, whole <+: frames ∧ part = nulFrames whole := by
  induction frames generalizing part with
  | nil => exact .inr ⟨[], List.nil_prefix, List.prefix_nil.mp cut⟩
  | cons frame frames ih =>
    obtain ⟨free, others⟩ := List.forall_mem_cons.mp clean
    have split : part <+: frame ∨ frame ++ [0] <+: part := by
      obtain short | long := List.prefix_or_prefix_of_prefix cut (List.prefix_append (frame ++ [0]) _)
      · obtain rfl | inside := List.prefix_concat_iff.mp short
        · exact .inr (List.prefix_refl _)
        · exact .inl inside
      · exact .inr long
    obtain inside | ⟨behind, rfl⟩ := split
    · obtain rfl | ⟨front, last, rfl⟩ := List.eq_nil_or_concat part
      · exact .inr ⟨[], List.nil_prefix, rfl⟩
      · refine .inl ⟨last, by simp, ?_⟩
        rintro rfl
        exact free (inside.subset (by simp))
    · obtain ⟨last, ends, other⟩ | ⟨whole, inside, rfl⟩ :=
        ih others ((List.prefix_append_right_inj (frame ++ [0])).mp cut)
      · exact .inl ⟨last, by rw [List.getLast?_append, ends, Option.some_or], other⟩
      · exact .inr ⟨frame :: whole, List.cons_prefix_cons.mpr ⟨rfl, inside⟩, rfl⟩

section Streams

variable {α : Type} {read : Bytes → List Bytes → Except CoreError (α × Nat)} (exceeded : CoreError)
  (maxEntries : Nat)

variable (format : String)

theorem parse_entries (entries : List (FramedEntry read)) :
    (splitNulFrames (nulFrames (allFrames entries)) format >>=
        entriesFrom read exceeded maxEntries 0 0) =
      if entries.length ≤ maxEntries then .ok (entries.map FramedEntry.entry)
      else .error exceeded := by
  rw [splitNulFrames_nulFrames (clean_allFrames entries)]
  change entriesFrom _ _ _ _ _ _ = _
  rw [← List.append_nil (allFrames entries)]
  split
  · rename_i room
    rw [entriesFrom_entries (by omega)]
    change Except.ok (entries.map FramedEntry.entry ++ []) = _
    rw [List.append_nil]
  · exact entriesFrom_exceeded (by omega) (by omega) []

theorem parse_cut (entries : List (FramedEntry read)) (framed : FramedEntry read)
    (someByte : part ≠ []) (cut : part <+: nulFrames framed.frames)
    (proper : part ≠ nulFrames framed.frames) :
    (splitNulFrames (nulFrames (allFrames entries) ++ part) format >>=
        entriesFrom read exceeded maxEntries 0 0).isOk = false := by
  obtain ⟨last, ends, other⟩ | ⟨whole, inside, rfl⟩ := cut_nulFrames framed.clean cut
  · unfold splitNulFrames
    rw [List.getLast?_append, ends, Option.some_or]
    dsimp only
    rw [if_pos other]
    rfl
  · cases whole with
    | nil => exact absurd rfl someByte
    | cons first part =>
      obtain ⟨rfl, later⟩ := List.cons_prefix_cons.mp inside
      have short : part ≠ framed.more := by
        rintro rfl
        exact proper rfl
      have frames : nulFrames (allFrames entries) ++ nulFrames (framed.first :: part) =
          nulFrames (allFrames entries ++ framed.first :: part) :=
        List.flatMap_append.symm
      have clean : ∀ frame ∈ allFrames entries ++ framed.first :: part, (0 : UInt8) ∉ frame := by
        intro frame member
        obtain before | here := List.mem_append.mp member
        · exact clean_allFrames entries frame before
        · exact framed.clean frame
            (inside.subset here)
      rw [frames, splitNulFrames_nulFrames clean]
      change (entriesFrom read exceeded maxEntries 0 0 _).isOk = false
      by_cases room : entries.length ≤ maxEntries
      · rw [entriesFrom_entries (by omega)]
        have refused : (entriesFrom read exceeded maxEntries 0 (0 + entries.length)
            (framed.first :: part)).isOk = false :=
          entriesFrom_part framed later short (0 + entries.length)
        cases answer : entriesFrom read exceeded maxEntries 0 (0 + entries.length)
            (framed.first :: part) with
        | error error => rfl
        | ok later =>
          rw [answer] at refused
          cases refused
      · rw [entriesFrom_exceeded (Nat.zero_le _) (by omega)]
        rfl

end Streams

/-! What Git writes. -/

/-- A number that a `u64` holds. -/
abbrev Count := { value : Nat // value < 2 ^ 64 }

inductive LineCounts where
  | binary
  | lines (insertions deletions : Count)

def LineCounts.insertions : LineCounts → Option Nat
  | .binary => none
  | .lines insertions _ => some insertions.1

def LineCounts.deletions : LineCounts → Option Nat
  | .binary => none
  | .lines _ deletions => some deletions.1

def LineCounts.isBinary : LineCounts → Bool
  | .binary => true
  | .lines .. => false

def lineCountText : Option Nat → String
  | some value => decimalText value
  | none => "-"

structure NumstatChange where
  counts : LineCounts
  path : GitPath
  originalPath : Option GitPath

namespace NumstatChange

def entry (change : NumstatChange) : NumstatEntry where
  insertions := change.counts.insertions
  deletions := change.counts.deletions
  path := change.path.1
  originalPath := change.originalPath.map (·.1)
  binary := change.counts.isBinary

def countBytes (counts : LineCounts) : Bytes :=
  asciiBytes (lineCountText counts.insertions) ++ 0x09 ::
    (asciiBytes (lineCountText counts.deletions) ++ [0x09])

def first (change : NumstatChange) : Bytes :=
  match change.originalPath with
  | none => countBytes change.counts ++ change.path.1
  | some _ => countBytes change.counts

def more (change : NumstatChange) : List Bytes :=
  match change.originalPath with
  | none => []
  | some original => [original.1, change.path.1]

theorem isAscii_lineCountText (count : Option Nat) : IsAscii (lineCountText count) := by
  cases count with
  | none => exact show IsAscii "-" by decide
  | some value => exact isAscii_decimalText value

theorem byte_notMem_lineCountText {byte : UInt8} (digit : (0x30 ≤ byte && byte ≤ 0x39) = false)
    (dash : byte ≠ 0x2d) (count : Option Nat) : byte ∉ asciiBytes (lineCountText count) := by
  cases count with
  | none =>
    rw [show asciiBytes (lineCountText none) = [0x2d] by decide]
    simpa using dash
  | some value => exact notMem_decimalBytes digit value

theorem takeUntil_append {separator : UInt8} {front : Bytes} (absent : separator ∉ front)
    (rest : Bytes) :
    takeUntil separator (front ++ separator :: rest) = (front, separator :: rest) := by
  have before : ∀ byte ∈ front, decide (byte ≠ separator) = true := by
    intro byte member
    rw [decide_eq_true_iff]
    exact ne_of_mem_of_not_mem member absent
  unfold takeUntil
  rw [List.takeWhile_append_of_pos before, List.dropWhile_append_of_pos before]
  simp

theorem decimalText_ne_dash (value : Nat) : (decimalText value == "-") = false := by
  rw [beq_eq_false_iff_ne]
  intro same
  have digit := isDigit_decimalText value '-' (by rw [same]; decide)
  exact absurd digit (by decide)

theorem parseCount_decimalText (count : Count) : parseCount (decimalText count.1) = .ok count.1 := by
  have digits : (decimalText count.1).toList.all Char.isDigit = true :=
    List.all_eq_true.mpr (isDigit_decimalText count.1)
  have someDigit : (decimalText count.1).isEmpty = false := by
    rw [← Bool.not_eq_true, String.isEmpty_iff]
    intro none
    exact decimalText_ne count.1 (by rw [none]; rfl)
  unfold parseCount
  rw [digits, someDigit, if_neg nofun, parseUnsigned_decimalText count.2]

theorem expectTab_tab (name : String) (offset : Nat) (rest : Bytes) :
    expectTab name offset (0x09 :: rest) = .ok rest := rfl

variable (counts : LineCounts)

theorem readNumstat_fields (path : Bytes) (following : List Bytes) :
    readNumstat (countBytes counts ++ path) following = if path.isEmpty then
        (takePaths numstatFormat "rename" following).map fun paths =>
          ({ insertions := counts.insertions, deletions := counts.deletions, path := paths.2,
             originalPath := some paths.1, binary := counts.isBinary }, 2)
      else
        .ok ({ insertions := counts.insertions, deletions := counts.deletions, path := path,
               originalPath := none, binary := counts.isBinary }, 0) := by
  have binary : (lineCountText counts.insertions == "-" && lineCountText counts.deletions == "-") =
      counts.isBinary := by
    cases counts with
    | binary => rfl
    | lines insertions deletions =>
      simp only [LineCounts.insertions, lineCountText, decimalText_ne_dash, Bool.false_and,
        LineCounts.isBinary]
  have insertions : countOf counts.isBinary (lineCountText counts.insertions) =
      .ok counts.insertions := by
    cases counts with
    | binary => rfl
    | lines insertions deletions =>
      simp only [countOf, LineCounts.isBinary, LineCounts.insertions, lineCountText,
        parseCount_decimalText, Bool.false_eq_true, if_false]
      rfl
  have deletions : countOf counts.isBinary (lineCountText counts.deletions) =
      .ok counts.deletions := by
    cases counts with
    | binary => rfl
    | lines insertions deletions =>
      simp only [countOf, LineCounts.isBinary, LineCounts.deletions, lineCountText,
        parseCount_decimalText, Bool.false_eq_true, if_false]
      rfl
  have tab (count : Option Nat) : (0x09 : UInt8) ∉ asciiBytes (lineCountText count) :=
    byte_notMem_lineCountText (by decide) (by decide) count
  unfold readNumstat countBytes
  rw [List.append_assoc, List.cons_append, List.append_assoc, List.singleton_append,
    takeUntil_append (tab _)]
  simp only [bind, Except.bind, expectTab_tab, takeUntil_append (tab counts.deletions),
    decodeAscii_asciiBytes (isAscii_lineCountText _), binary, insertions, deletions]
  split
  · cases takePaths numstatFormat "rename" following <;> rfl
  · rfl

theorem takePaths_append (format kind : String) (original path : GitPath) (rest : List Bytes) :
    takePaths format kind (original.1 :: path.1 :: rest) = .ok (original.1, path.1) := by
  exact if_neg (by simp [original.2.1, path.2.1])

theorem takePaths_part (format kind : String) {original path : Bytes} {part : List Bytes}
    (inside : part <+: [original, path]) (short : part ≠ [original, path]) :
    (takePaths format kind part).isOk = false := by
  match part, inside with
  | [], _ => rfl
  | [_], _ => rfl
  | _ :: _ :: _, inside =>
    have whole := inside.eq_of_length_le (by simp)
    exact absurd whole short

theorem zero_notMem_countBytes : (0 : UInt8) ∉ countBytes counts := by
  have free (count : Option Nat) : (0 : UInt8) ∉ asciiBytes (lineCountText count) :=
    byte_notMem_lineCountText (by decide) (by decide) count
  simp [countBytes, free]

variable (change : NumstatChange)

theorem first_ne : change.first ≠ [] := by
  unfold first countBytes
  cases change.originalPath <;> simp

theorem frames_clean : ∀ frame ∈ change.first :: change.more, (0 : UInt8) ∉ frame := by
  unfold first more
  cases change.originalPath with
  | none => simp [zero_notMem_countBytes, change.path.2.2]
  | some original => simp [zero_notMem_countBytes, change.path.2.2, original.2.2]

theorem readNumstat_change (rest : List Bytes) :
    readNumstat change.first (change.more ++ rest) = .ok (change.entry, change.more.length) := by
  unfold first more entry
  cases change.originalPath with
  | none =>
    rw [readNumstat_fields, if_neg (by simp [change.path.2.1])]
    rfl
  | some original =>
    have fields := readNumstat_fields change.counts [] (original.1 :: change.path.1 :: rest)
    rw [List.append_nil, takePaths_append] at fields
    exact fields

theorem readNumstat_part (part : List Bytes) (inside : part <+: change.more)
    (short : part ≠ change.more) : (readNumstat change.first part).isOk = false := by
  unfold first more at *
  cases same : change.originalPath with
  | none =>
    rw [same] at inside short
    exact absurd (List.prefix_nil.mp inside) short
  | some original =>
    rw [same] at inside short
    have fields := readNumstat_fields change.counts [] part
    rw [List.append_nil] at fields
    rw [fields]
    have refused := takePaths_part numstatFormat "rename" inside short
    cases answer : takePaths numstatFormat "rename" part with
    | error error => rfl
    | ok paths =>
      rw [answer] at refused
      cases refused

def framed (change : NumstatChange) : FramedEntry readNumstat where
  entry := change.entry
  first := change.first
  more := change.more
  someByte := change.first_ne
  clean := change.frames_clean
  reads := change.readNumstat_change
  needs := change.readNumstat_part

def render (changes : List NumstatChange) : Bytes :=
  nulFrames (changes.flatMap fun change => change.first :: change.more)

end NumstatChange

theorem allFrames_map {α β : Type} {read : Bytes → List Bytes → Except CoreError (α × Nat)}
    (framed : β → FramedEntry read) (changes : List β) : allFrames (changes.map framed) =
      changes.flatMap fun change => (framed change).first :: (framed change).more := by
  unfold allFrames
  rw [List.flatMap_map]
  rfl

/-- A change of `git diff --name-status`: a rename or copy has a score and two paths. -/
inductive NameStatusChange where
  | plain (kind : ChangeKind) (single : kind ≠ .renamed ∧ kind ≠ .copied) (path : GitPath)
  | moved (kind : ChangeKind) (double : kind = .renamed ∨ kind = .copied) (digits : List Char)
      (score : digits ≠ [] ∧ (∀ digit ∈ digits, digit.isDigit = true) ∧ decimalValue digits < 2 ^ 64)
      (original path : GitPath)

def ChangeKind.letter : ChangeKind → Char
  | .added => 'A'
  | .modified => 'M'
  | .deleted => 'D'
  | .renamed => 'R'
  | .copied => 'C'
  | .typeChanged => 'T'
  | .unmerged => 'U'

theorem changeKindFromLetter_letter (kind : ChangeKind) :
    changeKindFromLetter kind.letter = .ok kind := by
  cases kind <;> rfl

namespace NameStatusChange

def status : NameStatusChange → List Char
  | .plain kind _ _ => [kind.letter]
  | .moved kind _ digits _ _ _ => kind.letter :: digits

def entry (change : NameStatusChange) : NameStatusEntry :=
  match change with
  | .plain kind _ path =>
      { changeKind := kind, path := path.1, originalPath := none, score := none,
        rawStatus := String.ofList change.status }
  | .moved kind _ digits _ original path =>
      { changeKind := kind, path := path.1, originalPath := some original.1,
        score := some (decimalValue digits), rawStatus := String.ofList change.status }

def first (change : NameStatusChange) : Bytes := asciiBytes (String.ofList change.status)

def more : NameStatusChange → List Bytes
  | .plain _ _ path => [path.1]
  | .moved _ _ _ _ original path => [original.1, path.1]

theorem plain_letter (kind : ChangeKind) : kind.letter.toNat < 128 ∧ kind.letter.toNat ≠ 0 := by
  cases kind <;> decide

theorem plain_digit {digit : Char} (isDigit : digit.isDigit = true) :
    digit.toNat < 128 ∧ digit.toNat ≠ 0 := by
  have bounds := toNat_of_isDigit isDigit
  omega

variable (change : NameStatusChange)

theorem plain_status : ∀ char ∈ change.status, char.toNat < 128 ∧ char.toNat ≠ 0 := by
  cases change with
  | plain kind _ path => simpa [status] using plain_letter kind
  | moved kind _ digits score original path =>
    simp only [status, List.forall_mem_cons]
    exact ⟨plain_letter kind, fun digit member => plain_digit (score.2.1 digit member)⟩

theorem isAscii_status : IsAscii (String.ofList change.status) := by
  intro char member
  rw [String.toList_ofList] at member
  exact (change.plain_status char member).1

theorem first_ne : change.first ≠ [] := by
  unfold first asciiBytes
  cases change <;> simp [status]

theorem frames_clean : ∀ frame ∈ change.first :: change.more, (0 : UInt8) ∉ frame := by
  have status : (0 : UInt8) ∉ change.first := by
    intro member
    unfold first asciiBytes at member
    rw [String.toList_ofList] at member
    obtain ⟨char, inside, zero⟩ := List.mem_map.mp member
    obtain ⟨ascii, other⟩ := change.plain_status char inside
    have value := congrArg UInt8.toNat zero
    rw [toNat_charByte ascii] at value
    exact other value
  rw [List.forall_mem_cons]
  refine ⟨status, ?_⟩
  cases change with
  | plain _ _ path => simp [more, path.2.2]
  | moved _ _ _ _ original path => simp [more, path.2.2, original.2.2]

variable {digits : List Char}

theorem parseScore_digits (text : String)
    (score : digits ≠ [] ∧ (∀ digit ∈ digits, digit.isDigit = true) ∧
      decimalValue digits < 2 ^ 64) : parseScore text digits = .ok (decimalValue digits) := by
  obtain ⟨someDigit, isDigit, fits⟩ := score
  have all : digits.all Char.isDigit = true := List.all_eq_true.mpr isDigit
  have unsigned : digits.head? ≠ some '+' := fun head =>
    absurd (isDigit '+' (List.mem_of_head? head)) (by decide)
  have parsed : parseUnsigned 64 digits = some (decimalValue digits) := by
    unfold parseUnsigned
    dsimp only
    rw [if_neg unsigned, all, if_neg (by simpa using someDigit), if_pos fits]
  unfold parseScore
  rw [all, if_neg (by simpa using someDigit), parsed]

theorem letter_double (kind : ChangeKind) :
    (kind.letter = 'R' ∨ kind.letter = 'C') ↔ kind = .renamed ∨ kind = .copied := by
  cases kind <;> decide

def kind : NameStatusChange → ChangeKind
  | .plain kind _ _ => kind
  | .moved kind _ _ _ _ _ => kind

theorem readNameStatus_status (following : List Bytes) :
    readNameStatus change.first following = if change.kind = .renamed ∨ change.kind = .copied then
        readMoved change.kind (String.ofList change.status) following
      else readPlain change.kind (String.ofList change.status) following := by
  have letter : change.status.headD ' ' = change.kind.letter := by
    cases change <;> rfl
  unfold readNameStatus first
  rw [decodeAscii_asciiBytes change.isAscii_status]
  simp only [bind, Except.bind, String.toList_ofList, letter, changeKindFromLetter_letter,
    letter_double]

theorem readNameStatus_plain {kind : ChangeKind} (single : kind ≠ .renamed ∧ kind ≠ .copied)
    (path : GitPath) (following : List Bytes) :
    readNameStatus (plain kind single path).first following =
      readPlain kind (String.ofList [kind.letter]) following := by
  rw [readNameStatus_status]
  exact if_neg (by simpa [NameStatusChange.kind] using single)

theorem readNameStatus_moved {kind : ChangeKind} (double : kind = .renamed ∨ kind = .copied)
    (score : digits ≠ [] ∧ (∀ digit ∈ digits, digit.isDigit = true) ∧
      decimalValue digits < 2 ^ 64) (original path : GitPath) (following : List Bytes) :
    readNameStatus (moved kind double digits score original path).first following =
      (takePaths nameStatusFormat "rename/copy" following).map fun paths =>
        ({ changeKind := kind, path := paths.2, originalPath := some paths.1,
           score := some (decimalValue digits),
           rawStatus := String.ofList (kind.letter :: digits) }, 2) := by
  rw [readNameStatus_status, if_pos (by exact double)]
  unfold readMoved
  simp only [status, String.toList_ofList, List.tail_cons, bind, Except.bind,
    parseScore_digits _ score]
  cases takePaths nameStatusFormat "rename/copy" following <;> rfl

theorem readNameStatus_change (rest : List Bytes) :
    readNameStatus change.first (change.more ++ rest) = .ok (change.entry, change.more.length) := by
  cases change with
  | plain kind single path =>
    rw [readNameStatus_plain]
    unfold readPlain more
    rw [String.toList_ofList, if_neg (by simp)]
    exact if_neg (by simp [path.2.1])
  | moved kind double digits score original path =>
    rw [readNameStatus_moved, more, List.cons_append, List.singleton_append,
      NumstatChange.takePaths_append]
    rfl

theorem readNameStatus_part (part : List Bytes) (inside : part <+: change.more)
    (short : part ≠ change.more) : (readNameStatus change.first part).isOk = false := by
  cases change with
  | plain kind single path =>
    match part, inside with
    | [], _ =>
      rw [readNameStatus_plain]
      unfold readPlain
      rw [String.toList_ofList, if_neg (by simp)]
      rfl
    | _ :: _, inside => exact absurd (inside.eq_of_length_le (by simp [more])) short
  | moved kind double digits score original path =>
    have refused := NumstatChange.takePaths_part nameStatusFormat "rename/copy" inside short
    rw [readNameStatus_moved]
    cases answer : takePaths nameStatusFormat "rename/copy" part with
    | error error => rfl
    | ok paths =>
      rw [answer] at refused
      cases refused

def framed (change : NameStatusChange) : FramedEntry readNameStatus where
  entry := change.entry
  first := change.first
  more := change.more
  someByte := change.first_ne
  clean := change.frames_clean
  reads := change.readNameStatus_change
  needs := change.readNameStatus_part

def render (changes : List NameStatusChange) : Bytes :=
  nulFrames (changes.flatMap fun change => change.first :: change.more)

end NameStatusChange

variable (changes : List NumstatChange)

theorem parseNumstat_render (maxEntries : Nat) :
    parseNumstat (NumstatChange.render changes) maxEntries =
      if changes.length ≤ maxEntries then .ok (changes.map NumstatChange.entry)
      else .error (.outputUnparsable numstatFormat s!"numstat exceeded {maxEntries} entries") := by
  have parsed := parse_entries
    (.outputUnparsable numstatFormat s!"numstat exceeded {maxEntries} entries") maxEntries numstatFormat
    (changes.map NumstatChange.framed)
  rw [allFrames_map, List.length_map, List.map_map] at parsed
  exact parsed

theorem parseNameStatus_render (changes : List NameStatusChange) (maxEntries : Nat) :
    parseNameStatus (NameStatusChange.render changes) maxEntries =
      if changes.length ≤ maxEntries then .ok (changes.map NameStatusChange.entry)
      else
        .error
          (.outputUnparsable nameStatusFormat s!"name-status exceeded {maxEntries} entries") := by
  have parsed := parse_entries
    (.outputUnparsable nameStatusFormat s!"name-status exceeded {maxEntries} entries") maxEntries nameStatusFormat
    (changes.map NameStatusChange.framed)
  rw [allFrames_map, List.length_map, List.map_map] at parsed
  exact parsed

theorem parseNumstat_cut (change : NumstatChange) (someByte : part ≠ [])
    (inside : part <+: NumstatChange.render [change]) (short : part ≠ NumstatChange.render [change])
    (maxEntries : Nat) :
    (parseNumstat (NumstatChange.render changes ++ part) maxEntries).isOk = false := by
  have one : NumstatChange.render [change] = nulFrames change.framed.frames := by
    simp [NumstatChange.render, FramedEntry.frames, NumstatChange.framed]
  rw [one] at inside short
  have refused := parse_cut
    (.outputUnparsable numstatFormat s!"numstat exceeded {maxEntries} entries") maxEntries numstatFormat
    (changes.map NumstatChange.framed) change.framed someByte inside short
  rw [allFrames_map] at refused
  exact refused

theorem parseNameStatus_cut (changes : List NameStatusChange) (change : NameStatusChange)
    (someByte : part ≠ []) (inside : part <+: NameStatusChange.render [change])
    (short : part ≠ NameStatusChange.render [change]) (maxEntries : Nat) :
    (parseNameStatus (NameStatusChange.render changes ++ part) maxEntries).isOk = false := by
  have one : NameStatusChange.render [change] = nulFrames change.framed.frames := by
    simp [NameStatusChange.render, FramedEntry.frames, NameStatusChange.framed]
  rw [one] at inside short
  have refused := parse_cut
    (.outputUnparsable nameStatusFormat s!"name-status exceeded {maxEntries} entries") maxEntries nameStatusFormat
    (changes.map NameStatusChange.framed) change.framed someByte inside short
  rw [allFrames_map] at refused
  exact refused

/-- Both formats are inverted up to the bound, and refused over it and where they are cut. -/
theorem diff_entries_round_trip (maxEntries : Nat) :
    (∀ changes : List NumstatChange, parseNumstat (NumstatChange.render changes) maxEntries =
      if changes.length ≤ maxEntries then .ok (changes.map NumstatChange.entry)
      else .error (.outputUnparsable numstatFormat s!"numstat exceeded {maxEntries} entries")) ∧
    (∀ changes : List NameStatusChange,
      parseNameStatus (NameStatusChange.render changes) maxEntries =
        if changes.length ≤ maxEntries then .ok (changes.map NameStatusChange.entry)
        else
          .error
            (.outputUnparsable nameStatusFormat s!"name-status exceeded {maxEntries} entries")) ∧
    (∀ (changes : List NumstatChange) (change : NumstatChange) (part : Bytes), part ≠ [] →
      part <+: NumstatChange.render [change] → part ≠ NumstatChange.render [change] →
        (parseNumstat (NumstatChange.render changes ++ part) maxEntries).isOk = false) ∧
    (∀ (changes : List NameStatusChange) (change : NameStatusChange) (part : Bytes), part ≠ [] →
      part <+: NameStatusChange.render [change] → part ≠ NameStatusChange.render [change] →
        (parseNameStatus (NameStatusChange.render changes ++ part) maxEntries).isOk = false) := by
  refine ⟨fun changes => parseNumstat_render changes maxEntries,
    fun changes => parseNameStatus_render changes maxEntries, ?_, ?_⟩
  · intro changes change part someByte inside short
    exact parseNumstat_cut changes change someByte inside short maxEntries
  · intro changes change part someByte inside short
    exact parseNameStatus_cut changes change someByte inside short maxEntries

theorem isGitPath_a : [0x61] ≠ ([] : Bytes) ∧ (0 : UInt8) ∉ ([0x61] : Bytes) := by
  decide

theorem isGitPath_tab :
    [0x62, 0x09, 0x0a] ≠ ([] : Bytes) ∧ (0 : UInt8) ∉ ([0x62, 0x09, 0x0a] : Bytes) := by
  decide

def binaryRename : NumstatChange where
  counts := .binary
  path := ⟨[0x62, 0x09, 0x0a], isGitPath_tab⟩
  originalPath := some ⟨[0x61], isGitPath_a⟩

/-- The rename is read back, and refused behind its first path. -/
theorem diff_entries_round_trip_rename :
    parseNumstat (asciiBytes "-\t-\t\x00a\x00b\t\n\x00") 1 = .ok [binaryRename.entry] ∧
      (parseNumstat (asciiBytes "-\t-\t\x00a\x00") 1).isOk = false :=
  ⟨(diff_entries_round_trip 1).1 [binaryRename],
    (diff_entries_round_trip 1).2.2.1 [] binaryRename (asciiBytes "-\t-\t\x00a\x00") (by decide)
      (by decide) (by decide)⟩

/-- One change more than the bound that is used where no other is given. -/
theorem not_round_trip_many :
    parseNumstat (NumstatChange.render (List.replicate 5001 binaryRename)) diffMaxEntries ≠
      .ok ((List.replicate 5001 binaryRename).map NumstatChange.entry) := by
  rw [parseNumstat_render, List.length_replicate, if_neg (by decide)]
  intro same
  cases same

end Refyard
