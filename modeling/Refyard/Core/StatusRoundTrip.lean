import Refyard.Core.Status

/-! A status as Git serialises it, and what the parser makes of it. -/
namespace Refyard

abbrev GitRefName := { name : Bytes // (0 : UInt8) ∉ name }

abbrev StatusLetter := { letter : UInt8 // 0 < letter ∧ letter ≤ 0x7f }

abbrev FileMode := { mode : Bytes // mode.length = 6 ∧ ∀ byte ∈ mode, 0x30 ≤ byte ∧ byte ≤ 0x37 }

def StatusLetter.text (letter : StatusLetter) : String := String.singleton (byteChar letter.1)

def FileMode.absent (mode : FileMode) : Bool := mode.1.all (· == 0x30)

def FileMode.shown (mode : FileMode) : Option String :=
  if mode.absent then none else some (asciiText mode.1)

def ObjectName.shown (oid : ObjectName) : Option String :=
  if oid.1.all (· == 0x30) then none else some oid.text

inductive SubmoduleState where
  | file
  | submodule (commitChanged modified untracked : Bool)

namespace SubmoduleState

def text : SubmoduleState → String
  | .file => "N..."
  | .submodule commitChanged modified untracked =>
      String.ofList ['S', if commitChanged then 'C' else '.', if modified then 'M' else '.',
        if untracked then 'U' else '.']

def flags : SubmoduleState → Bool × Bool × Bool
  | .file => (false, false, false)
  | .submodule commitChanged modified untracked => (commitChanged, modified, untracked)

end SubmoduleState

structure GitChange where
  index : StatusLetter
  worktree : StatusLetter
  sub : SubmoduleState
  modeHead : FileMode
  modeIndex : FileMode
  modeWorktree : FileMode
  oidHead : ObjectName
  oidIndex : ObjectName

structure GitConflict where
  index : StatusLetter
  worktree : StatusLetter
  sub : SubmoduleState
  modeBase : FileMode
  modeOurs : FileMode
  modeTheirs : FileMode
  modeWorktree : FileMode
  base : ObjectName
  ours : ObjectName
  theirs : ObjectName

inductive StatusEntry where
  | ordinary (change : GitChange) (path : GitPath)
  | renamed (copy : Bool) (change : GitChange) (score : Fin 101) (path original : GitPath)
  | unmerged (conflict : GitConflict) (path : GitPath)
  | untracked (path : GitPath)
  | ignored (path : GitPath)

/-- A whole status. HEAD without a commit has no name, a detached HEAD no branch. -/
structure GitStatus where
  oid : Option ObjectName
  head : Option GitRefName
  upstream : Option GitRefName
  aheadBehind : Option (UInt64 × UInt64)
  stash : Option UInt64
  entries : List StatusEntry

/-! The serialisation. -/

def GitChange.render (change : GitChange) : Bytes :=
  [0x20] ++ ([change.index.1, change.worktree.1] ++ ([0x20] ++ (asciiBytes change.sub.text ++
    ([0x20] ++ (change.modeHead.1 ++ ([0x20] ++ (change.modeIndex.1 ++ ([0x20] ++
      (change.modeWorktree.1 ++ ([0x20] ++ (change.oidHead.1 ++ ([0x20] ++
        (change.oidIndex.1 ++ ([0x20] ++ []))))))))))))))

def GitConflict.render (conflict : GitConflict) (path : Bytes) : Bytes :=
  [0x20] ++ ([conflict.index.1, conflict.worktree.1] ++ ([0x20] ++
    (asciiBytes conflict.sub.text ++ ([0x20] ++ ((conflict.modeBase.1 ++ [0x20]) ++
      ((conflict.modeOurs.1 ++ [0x20]) ++ ((conflict.modeTheirs.1 ++ [0x20]) ++
        (conflict.modeWorktree.1 ++ ([0x20] ++ ((conflict.base.1 ++ [0x20]) ++
          ((conflict.ours.1 ++ [0x20]) ++ ((conflict.theirs.1 ++ [0x20]) ++ path))))))))))))

def scoreLetter (copy : Bool) : UInt8 := if copy then 0x43 else 0x52

def StatusEntry.frames : StatusEntry → List Bytes
  | .ordinary change path => [0x31 :: (change.render ++ path.1)]
  | .renamed copy change score path original =>
      [0x32 :: (change.render ++ ([scoreLetter copy] ++ (asciiBytes (decimalText score) ++
        ([0x20] ++ path.1)))), original.1]
  | .unmerged conflict path => [0x75 :: conflict.render path.1]
  | .untracked path => [0x3f :: ([0x20] ++ path.1)]
  | .ignored path => [0x21 :: ([0x20] ++ path.1)]

def headerFields (key : String) (value : Bytes) : Bytes :=
  [0x20] ++ (asciiBytes key ++ ([0x20] ++ value))

def headerFrame (key : String) (value : Bytes) : Bytes := 0x23 :: headerFields key value

def signedCount (sign : Char) (count : UInt64) : String :=
  String.ofList (sign :: (decimalText count.toNat).toList)

namespace GitStatus

def oidBytes (status : GitStatus) : Bytes :=
  match status.oid with
  | some oid => oid.1
  | none => asciiBytes "(initial)"

def headBytes (status : GitStatus) : Bytes :=
  match status.head with
  | some name => name.1
  | none => asciiBytes "(detached)"

def aheadBehindBytes (counts : UInt64 × UInt64) : Bytes :=
  asciiBytes (signedCount '+' counts.1) ++ ([0x20] ++ asciiBytes (signedCount '-' counts.2))

def upstreamFrames (status : GitStatus) : List Bytes :=
  status.upstream.toList.map fun name => headerFrame "branch.upstream" name.1

def aheadBehindFrames (status : GitStatus) : List Bytes :=
  status.aheadBehind.toList.map fun counts => headerFrame "branch.ab" (aheadBehindBytes counts)

def stashFrames (status : GitStatus) : List Bytes :=
  status.stash.toList.map fun count => headerFrame "stash" (asciiBytes (decimalText count.toNat))

def frames (status : GitStatus) : List Bytes :=
  headerFrame "branch.oid" status.oidBytes :: headerFrame "branch.head" status.headBytes ::
    (status.upstreamFrames ++ (status.aheadBehindFrames ++ (status.stashFrames ++
      status.entries.flatMap StatusEntry.frames)))

def render (status : GitStatus) : Bytes := nulFrames status.frames

end GitStatus

/-! What the status says. -/

def GitChange.record (change : GitChange) (kind : StatusRecordKind) (path : Bytes)
    (originalPath : Option Bytes) (score : Option Nat) : StatusRecord where
  kind := kind
  indexStatus := StatusLetter.text change.index
  worktreeStatus := StatusLetter.text change.worktree
  submoduleField := change.sub.text
  modeHead := FileMode.shown change.modeHead
  modeIndex := FileMode.shown change.modeIndex
  modeWorktree := FileMode.shown change.modeWorktree
  oidHead := ObjectName.shown change.oidHead
  oidIndex := ObjectName.shown change.oidIndex
  path := path
  originalPath := originalPath
  score := score
  stages := []
  submoduleCommitChanged := change.sub.flags.1
  submoduleModified := change.sub.flags.2.1
  submoduleUntracked := change.sub.flags.2.2

def existingStage (stage : Nat) (mode : FileMode) (oid : ObjectName) : List StatusUnmergedStage :=
  if mode.absent then [] else [{ stage, mode := asciiText mode.1, oid := oid.text }]

def GitConflict.stages (conflict : GitConflict) : List StatusUnmergedStage :=
  existingStage 1 conflict.modeBase conflict.base ++
    existingStage 2 conflict.modeOurs conflict.ours ++
      existingStage 3 conflict.modeTheirs conflict.theirs

def GitConflict.record (conflict : GitConflict) (path : Bytes) : StatusRecord where
  kind := .unmerged
  indexStatus := StatusLetter.text conflict.index
  worktreeStatus := StatusLetter.text conflict.worktree
  submoduleField := conflict.sub.text
  modeHead := none
  modeIndex := none
  modeWorktree := FileMode.shown conflict.modeWorktree
  oidHead := none
  oidIndex := none
  path := path
  originalPath := none
  score := none
  stages := conflict.stages
  submoduleCommitChanged := false
  submoduleModified := false
  submoduleUntracked := false

def untrackedRecord (kind : StatusRecordKind) (marker : String) (path : Bytes) : StatusRecord where
  kind := kind
  indexStatus := marker
  worktreeStatus := marker
  submoduleField := "N..."
  modeHead := none
  modeIndex := none
  modeWorktree := none
  oidHead := none
  oidIndex := none
  path := path
  originalPath := none
  score := none
  stages := []
  submoduleCommitChanged := false
  submoduleModified := false
  submoduleUntracked := false

def StatusEntry.record : StatusEntry → StatusRecord
  | .ordinary change path => change.record .ordinary path.1 none none
  | .renamed copy change score path original =>
      change.record (if copy then .copied else .renamed) path.1 (some original.1) (some score)
  | .unmerged conflict path => conflict.record path.1
  | .untracked path => untrackedRecord .untracked "?" path.1
  | .ignored path => untrackedRecord .ignored "!" path.1

def GitRefName.text (name : GitRefName) : String := String.ofList (Utf8.decode name.1)

def GitStatus.expected (status : GitStatus) : StatusParseResult where
  branch :=
    { seen := true
      initial := status.oid.isNone
      detached := status.head.isNone
      oid := status.oid.map ObjectName.text
      head := status.head.map GitRefName.text }
  upstream := status.upstream.map GitRefName.text
  ahead := status.aheadBehind.map fun counts => counts.1.toNat
  behind := status.aheadBehind.map fun counts => counts.2.toNat
  stashCount := status.stash.map UInt64.toNat
  records := status.entries.map StatusEntry.record

/-- The names are ASCII, the branch is not called like the sentinel of a detached HEAD, and
the caller's bound admits the entries. -/
structure GitStatus.Readable (status : GitStatus) (maxEntries : Nat) : Prop where
  head : ∀ name ∈ status.head, ∀ byte ∈ name.1, byte ≤ 0x7f
  notSentinel : ∀ name ∈ status.head, name.1 ≠ asciiBytes "(detached)"
  upstream : ∀ name ∈ status.upstream, ∀ byte ∈ name.1, byte ≤ 0x7f
  bound : status.entries.length ≤ maxEntries

namespace Status

open FrameReader

theorem reads_readXy (index worktree : StatusLetter) : Reads readXy Anything [index.1, worktree.1]
      (StatusLetter.text index, StatusLetter.text worktree) := by
  have ascii : ∀ byte ∈ [index.1, worktree.1], byte ≤ 0x7f := by
    simp [index.2.2, worktree.2.2]
  have two : [index.1, worktree.1].length = 2 := rfl
  refine (reads_takeBytes statusFormat two).finish ?_
  refine (Reads.lift (decodeAscii_of_le ascii statusFormat)).finish ?_
  rw [toList_asciiText]
  exact Reads.pure _

variable (mode : FileMode) (oid : ObjectName) (sub : SubmoduleState) (change : GitChange)
  (conflict : GitConflict) {maxEntries : Nat} {key : String} {value : Bytes} {byte : UInt8}
  {status : GitStatus} {known : StatusParseResult} {name : GitRefName}

theorem fileMode_le : ∀ byte ∈ mode.1, byte ≤ 0x7f := fun byte member =>
  UInt8.le_trans (mode.2.2 byte member).2 (by decide)

theorem decodeMode_fileMode : decodeMode mode.1 = FileMode.shown mode := by
  unfold decodeMode FileMode.shown FileMode.absent asciiText
  rw [Utf8.decode_ascii (fileMode_le mode)]

theorem all_zero_text (bytes : Bytes) :
    (asciiText bytes).toList.all (· == '0') = bytes.all (· == 0x30) := by
  have zero (byte : UInt8) : (byteChar byte == '0') = (byte == 0x30) := by
    rw [Bool.eq_iff_iff, beq_iff_eq, beq_iff_eq]
    constructor
    · intro same
      rw [← charByte_byteChar byte, same]
      rfl
    · rintro rfl
      rfl
  rw [toList_asciiText, List.all_map]
  exact congrArg bytes.all (funext zero)

theorem readZeroedOid_text : readZeroedOid oid.text = ObjectName.shown oid := by
  unfold readZeroedOid ObjectName.shown ObjectName.text
  rw [all_zero_text]

theorem isAscii_submoduleText : IsAscii sub.text := by
  rcases sub with - | ⟨commit, modified, untracked⟩
  · decide
  · revert commit modified untracked
    decide

theorem length_submoduleText : (asciiBytes sub.text).length = 4 := by
  rcases sub with - | ⟨commit, modified, untracked⟩
  · rfl
  · simp [asciiBytes, SubmoduleState.text]

theorem submoduleFlags_text : submoduleFlags sub.text = sub.flags := by
  rcases sub with - | ⟨commit, modified, untracked⟩
  · decide
  · revert commit modified untracked
    decide

def changedFields (change : GitChange) : ChangedFields where
  indexStatus := StatusLetter.text change.index
  worktreeStatus := StatusLetter.text change.worktree
  sub := change.sub.text
  modeHead := FileMode.shown change.modeHead
  modeIndex := FileMode.shown change.modeIndex
  modeWorktree := FileMode.shown change.modeWorktree
  oidHead := change.oidHead.text
  oidIndex := change.oidIndex.text

variable (rest : Bytes) (kind : StatusRecordKind) (path : GitPath) (entries : List StatusEntry)
  {sign : Char}

theorem spaceNext : SpaceNext ([0x20] ++ rest) := by
  intro byte head
  exact (Option.mem_some.mp head).symm

theorem spaceNext_then (more rest : Bytes) : SpaceNext (([0x20] ++ more) ++ rest) := by
  exact spaceNext (more ++ rest)

theorem nothing_spaceNext (ends : Nothing rest) : SpaceNext rest := by
  intro byte head
  rw [ends] at head
  contradiction

theorem reads_readChanged : Reads readChanged Anything change.render (changedFields change) := by
  have space := reads_expectSpace statusFormat
  have sub := reads_takeBytes statusFormat (length_submoduleText change.sub)
  have subText := decodeAscii_asciiBytes (isAscii_submoduleText change.sub) statusFormat
  have mode (mode : FileMode) := reads_takeBytes statusFormat mode.2.1
  refine space.then ?_
  refine (reads_readXy change.index change.worktree).then ?_
  refine space.then ?_
  refine sub.then ?_
  refine (Reads.lift subText).step ?_
  refine space.then ?_
  refine (mode change.modeHead).then ?_
  refine space.then ?_
  refine (mode change.modeIndex).then ?_
  refine space.then ?_
  refine (mode change.modeWorktree).then ?_
  refine space.then ?_
  refine (reads_takeOid statusFormat change.oidHead).bind ?_ fun rest _ => spaceNext_then _ rest
  refine space.then ?_
  refine (reads_takeOid statusFormat change.oidIndex).bind ?_ fun rest _ => spaceNext_then _ rest
  refine space.then ?_
  rw [decodeMode_fileMode, decodeMode_fileMode, decodeMode_fileMode]
  exact Reads.pure _

theorem changedFields_record (path : Bytes) (originalPath : Option Bytes) (score : Option Nat) :
    (changedFields change).record kind path originalPath score =
      change.record kind path originalPath score := by
  unfold ChangedFields.record GitChange.record changedFields
  rw [readZeroedOid_text, readZeroedOid_text, submoduleFlags_text]

theorem reads_parseOrdinary : Reads parseOrdinary Nothing (change.render ++ path.1)
      (change.record .ordinary path.1 none none) := by
  refine (reads_readChanged change).then ?_
  refine (reads_takeRest path.1).finish ?_
  rw [if_neg (by simpa using path.2.1), changedFields_record]
  exact Reads.pure _

theorem reads_takeScoreText (score : Nat) :
    Reads takeScoreText SpaceNext (asciiBytes (decimalText score)) (decimalText score) := by
  intro rest followed offset
  have space : (0x20 : UInt8) ∉ asciiBytes (decimalText score) :=
    notMem_decimalBytes (by decide) score
  have taken := takeWhile_field space followed
  change takeScoreText ⟨asciiBytes (decimalText score) ++ rest, offset⟩ = _
  unfold takeScoreText
  dsimp only
  rw [taken, List.drop_left, asciiText_asciiBytes (isAscii_decimalText score)]

theorem reads_parseRename (copy : Bool) (change : GitChange) (score : Fin 101)
    (path original : GitPath) : Reads (parseRename original.1) Nothing
      (change.render ++ ([scoreLetter copy] ++ (asciiBytes (decimalText score) ++
        ([0x20] ++ path.1))))
      (change.record (if copy then .copied else .renamed) path.1 (some original.1)
        (some score)) := by
  have below := score.isLt
  have one : [scoreLetter copy].length = 1 := rfl
  have ascii : ∀ byte ∈ [scoreLetter copy], byte ≤ 0x7f := by
    rw [List.forall_mem_singleton]
    cases copy <;> decide
  have letter : (asciiText [scoreLetter copy] = "C") = (copy = true) := by
    cases copy <;> decide
  have number : parseUnsigned 32 (decimalText score).toList = some score.val :=
    parseUnsigned_decimalText (by omega)
  refine (reads_readChanged change).then ?_
  refine (reads_takeBytes statusFormat one).then ?_
  refine (Reads.lift (decodeAscii_of_le ascii statusFormat)).step ?_
  refine (reads_takeScoreText score).bind ?_ fun rest _ => spaceNext_then _ rest
  rw [if_neg (by simpa using decimalText_ne score), number]
  refine (reads_expectSpace statusFormat).then ?_
  refine (reads_takeRest path.1).finish ?_
  rw [if_neg (by simpa using path.2.1), if_neg (by simpa using original.2.1)]
  dsimp only
  rw [changedFields_record]
  simp only [letter]
  exact Reads.pure _

theorem reads_takeStageMode :
    Reads takeStageMode Anything (mode.1 ++ [0x20]) ((FileMode.shown mode).getD "000000") := by
  refine (reads_takeBytes statusFormat mode.2.1).then ?_
  refine (reads_expectSpace statusFormat).finish ?_
  rw [decodeMode_fileMode]
  exact Reads.pure _

theorem reads_takeStageOid : Reads takeStageOid Anything (oid.1 ++ [0x20]) oid.text := by
  refine (reads_takeOid statusFormat oid).bind ?_ fun rest _ => spaceNext rest
  exact (reads_expectSpace statusFormat).finish (Reads.pure _)

theorem asciiText_ne_zeroes {mode : FileMode} (present : mode.absent = false) :
    asciiText mode.1 ≠ "000000" := by
  intro same
  have zeroes : mode.absent = true := by
    unfold FileMode.absent
    rw [← all_zero_text, same]
    decide
  rw [present] at zeroes
  contradiction

theorem stage_present (oid : ObjectName) (stage : Nat) :
    (if (FileMode.shown mode).getD "000000" = "000000" then none
      else some (⟨stage, (FileMode.shown mode).getD "000000", oid.text⟩ : StatusUnmergedStage)) =
      (existingStage stage mode oid).head? := by
  unfold FileMode.shown existingStage
  cases present : mode.absent with
  | true => rfl
  | false =>
    exact if_neg (asciiText_ne_zeroes present)

theorem stagesOf_conflict : stagesOf [(FileMode.shown conflict.modeBase).getD "000000",
        (FileMode.shown conflict.modeOurs).getD "000000",
        (FileMode.shown conflict.modeTheirs).getD "000000"]
      [conflict.base.text, conflict.ours.text, conflict.theirs.text] = conflict.stages := by
  unfold stagesOf GitConflict.stages
  simp only [List.zip_cons_cons, List.zip_nil_left, List.zipIdx_cons, List.zipIdx_nil,
    List.filterMap_cons, List.filterMap_nil, stage_present]
  unfold existingStage
  split_ifs <;> rfl

theorem reads_parseUnmerged :
    Reads parseUnmerged Nothing (conflict.render path.1) (conflict.record path.1) := by
  have space := reads_expectSpace statusFormat
  have sub := reads_takeBytes statusFormat (length_submoduleText conflict.sub)
  have subText := decodeAscii_asciiBytes (isAscii_submoduleText conflict.sub) statusFormat
  refine space.then ?_
  refine (reads_readXy conflict.index conflict.worktree).then ?_
  refine space.then ?_
  refine sub.then ?_
  refine (Reads.lift subText).step ?_
  refine space.then ?_
  refine (reads_takeStageMode conflict.modeBase).then ?_
  refine (reads_takeStageMode conflict.modeOurs).then ?_
  refine (reads_takeStageMode conflict.modeTheirs).then ?_
  refine (reads_takeBytes statusFormat conflict.modeWorktree.2.1).then ?_
  refine space.then ?_
  refine (reads_takeStageOid conflict.base).then ?_
  refine (reads_takeStageOid conflict.ours).then ?_
  refine (reads_takeStageOid conflict.theirs).then ?_
  refine (reads_takeRest path.1).finish ?_
  rw [if_neg (by simpa using path.2.1), stagesOf_conflict, decodeMode_fileMode]
  exact Reads.pure _

theorem reads_parsePathOnly (path : GitPath) :
    Reads (parsePathOnly kind) Nothing ([0x20] ++ path.1) (pathOnlyRecord kind path.1) := by
  refine (reads_expectSpace statusFormat).then ?_
  refine (reads_takeRest path.1).finish ?_
  rw [if_neg (by simpa using path.2.1)]
  exact Reads.pure _

theorem readRecord_of_reads {found : StatusParseResult} {reader : FrameReader StatusRecord}
    {fields : Bytes} {record : StatusRecord} (reads : Reads reader Nothing fields record) :
    readRecord maxEntries found reader fields =
      (checkBound found.records maxEntries).map fun _ => pushRecord found record := by
  unfold readRecord
  rw [reads.on rfl]
  cases checkBound found.records maxEntries <;> rfl

theorem readFrames_entry (maxEntries : Nat) (found : StatusParseResult) (entry : StatusEntry)
    (frames : List Bytes) : readFrames maxEntries found (entry.frames ++ frames) =
      (checkBound found.records maxEntries).bind fun _ =>
        readFrames maxEntries (pushRecord found entry.record) frames := by
  have after {record : StatusRecord} {reader : FrameReader StatusRecord} {fields : Bytes}
      (reads : Reads reader Nothing fields record) :
      (readRecord maxEntries found reader fields).bind
          (fun found => readFrames maxEntries found frames) =
        (checkBound found.records maxEntries).bind fun _ =>
          readFrames maxEntries (pushRecord found record) frames := by
    rw [readRecord_of_reads reads]
    cases checkBound found.records maxEntries <;> rfl
  cases entry with
  | ordinary change path => exact after (reads_parseOrdinary change path)
  | renamed copy change score path original =>
    exact after (reads_parseRename copy change score path original)
  | unmerged conflict path => exact after (reads_parseUnmerged conflict path)
  | untracked path => exact after (reads_parsePathOnly .untracked path)
  | ignored path => exact after (reads_parsePathOnly .ignored path)

theorem readFrames_entries (found : StatusParseResult)
    (bounded : found.records.length + entries.length ≤ maxEntries) :
    readFrames maxEntries found (entries.flatMap StatusEntry.frames) =
      .ok { found with records := found.records ++ entries.map StatusEntry.record } := by
  induction entries generalizing found with
  | nil => simp [readFrames]
  | cons entry entries ih =>
    rw [List.length_cons] at bounded
    have room : checkBound found.records maxEntries = .ok () := if_neg (by omega)
    rw [List.flatMap_cons, readFrames_entry, room]
    refine (ih (pushRecord found entry.record) ?_).trans ?_
    · simp only [pushRecord, List.length_append, List.length_singleton]
      omega
    · simp [pushRecord]

theorem readFrames_over (found : StatusParseResult) (fits : found.records.length ≤ maxEntries)
    (exceeds : maxEntries < found.records.length + entries.length) :
    ∃ error, readFrames maxEntries found (entries.flatMap StatusEntry.frames) = .error error := by
  induction entries generalizing found with
  | nil =>
    rw [List.length_nil] at exceeds
    omega
  | cons entry entries ih =>
    rw [List.length_cons] at exceeds
    rw [List.flatMap_cons, readFrames_entry]
    by_cases full : maxEntries ≤ found.records.length
    · exact ⟨_, by rw [checkBound, if_pos full]; rfl⟩
    · rw [checkBound, if_neg full]
      apply ih (pushRecord found entry.record)
      · simp only [pushRecord, List.length_append, List.length_singleton]
        omega
      · simp only [pushRecord, List.length_append, List.length_singleton]
        omega

theorem readFrames_header (maxEntries : Nat) (found : StatusParseResult) (key : String)
    (value : Bytes) (frames : List Bytes) :
    readFrames maxEntries found (headerFrame key value :: frames) =
      ((readHeader found).on (headerFields key value)).bind fun found =>
        readFrames maxEntries found frames := rfl

def withOid (found : StatusParseResult) (value : String) : StatusParseResult :=
  { found with branch := { found.branch with
      seen := true, initial := value == "(initial)",
      oid := if value == "(initial)" then none else some value } }

def withHead (found : StatusParseResult) (value : String) : StatusParseResult :=
  { found with branch := { found.branch with
      seen := true, detached := value == "(detached)",
      head := if value == "(detached)" then none else some value } }

structure HeaderKey (key : String) : Prop where
  ascii : IsAscii key
  noSpace : ' ' ∉ key.toList
  nonempty : key.toList ≠ []

instance (key : String) : Decidable (HeaderKey key) :=
  decidable_of_iff (IsAscii key ∧ ' ' ∉ key.toList ∧ key.toList ≠ [])
    ⟨fun ⟨ascii, noSpace, nonempty⟩ => ⟨ascii, noSpace, nonempty⟩,
      fun ⟨ascii, noSpace, nonempty⟩ => ⟨ascii, noSpace, nonempty⟩⟩

theorem HeaderKey.reads (good : HeaderKey key) :
    Reads (takeAsciiField statusFormat) SpaceNext (asciiBytes key) key :=
  reads_takeAsciiField statusFormat good.ascii good.noSpace good.nonempty

theorem reads_readHeader (good : HeaderKey key) {found result : StatusParseResult}
    (body : Reads (headerValue found key) Nothing ([0x20] ++ value) result) :
    (readHeader found).on (headerFields key value) = .ok result := by
  have reads : Reads (readHeader found) Nothing (headerFields key value) result := by
    refine (reads_expectSpace statusFormat).then ?_
    exact good.reads.bind body fun rest _ => spaceNext_then _ rest
  exact reads.on rfl

theorem refuses_readHeader (good : HeaderKey key) {found : StatusParseResult} {error : CoreError}
    (body : Refuses (headerValue found key) ([0x20] ++ value) error) :
    (readHeader found).on (headerFields key value) = .error error := by
  have refuses : Refuses (readHeader found) (headerFields key value) error := by
    refine (reads_expectSpace statusFormat).refuses trivial ?_
    exact good.reads.refuses (spaceNext _) body
  exact refuses.on

theorem readHeader_oid (found : StatusParseResult) (ascii : ∀ byte ∈ value, byte ≤ 0x7f) :
    (readHeader found).on (headerFields "branch.oid" value) =
      .ok (withOid found (asciiText value)) := by
  apply reads_readHeader (by decide)
  refine (reads_expectSpace statusFormat).then ?_
  refine (reads_takeRestAscii statusFormat ascii).finish ?_
  exact Reads.pure _

theorem readHeader_head (found : StatusParseResult) (ascii : ∀ byte ∈ value, byte ≤ 0x7f) :
    (readHeader found).on (headerFields "branch.head" value) =
      .ok (withHead found (asciiText value)) := by
  apply reads_readHeader (by decide)
  refine (reads_expectSpace statusFormat).then ?_
  refine (reads_takeRestAscii statusFormat ascii).finish ?_
  exact Reads.pure _

theorem readHeader_upstream (found : StatusParseResult) (ascii : ∀ byte ∈ value, byte ≤ 0x7f) :
    (readHeader found).on (headerFields "branch.upstream" value) =
      .ok { found with upstream := some (asciiText value) } := by
  apply reads_readHeader (by decide)
  refine (reads_expectSpace statusFormat).then ?_
  refine (reads_takeRestAscii statusFormat ascii).finish ?_
  exact Reads.pure _

theorem readSignedCount_signedCount (sign : Char) (count : UInt64) :
    readSignedCount (signedCount sign count) sign = .ok count.toNat := by
  have digits : (decimalText count.toNat).toList.all Char.isDigit = true :=
    List.all_eq_true.mpr (isDigit_decimalText count.toNat)
  have some_digit := decimalText_ne count.toNat
  unfold readSignedCount signedCount
  rw [String.toList_ofList, List.head?_cons, List.tail_cons, if_neg (by simp), digits,
    if_neg (by simpa using some_digit), parseUnsigned_decimalText count.toNat_lt]

theorem reads_signedCount (ascii : sign.toNat < 128) (visible : sign ≠ ' ') (count : UInt64) :
    Reads (takeAsciiField statusFormat) SpaceNext (asciiBytes (signedCount sign count))
      (signedCount sign count) := by
  apply reads_takeAsciiField
  · intro char member
    rw [signedCount, String.toList_ofList, List.mem_cons] at member
    rcases member with rfl | member
    · exact ascii
    · exact isAscii_decimalText count.toNat char member
  · rw [signedCount, String.toList_ofList, List.mem_cons, not_or]
    exact ⟨visible.symm, not_mem_decimalText (by decide) count.toNat⟩
  · simp [signedCount]

theorem readHeader_aheadBehind (found : StatusParseResult) (counts : UInt64 × UInt64) :
    (readHeader found).on (headerFields "branch.ab" (GitStatus.aheadBehindBytes counts)) =
      .ok { found with ahead := some counts.1.toNat, behind := some counts.2.toNat } := by
  have space := reads_expectSpace statusFormat
  have plus := reads_signedCount (by decide : '+'.toNat < 128) (by decide) counts.1
  have minus := reads_signedCount (by decide : '-'.toNat < 128) (by decide) counts.2
  apply reads_readHeader (by decide)
  refine space.then ?_
  refine plus.bind ?_ fun rest _ => spaceNext_then _ rest
  refine (Reads.lift (readSignedCount_signedCount '+' counts.1)).step ?_
  refine space.then ?_
  refine (minus.before nothing_spaceNext).finish ?_
  refine (Reads.lift (readSignedCount_signedCount '-' counts.2)).finish ?_
  exact Reads.pure _

theorem readHeader_stash (found : StatusParseResult) (count : UInt64) :
    (readHeader found).on (headerFields "stash" (asciiBytes (decimalText count.toNat))) =
      .ok { found with stashCount := some count.toNat } := by
  apply reads_readHeader (by decide)
  refine (reads_expectSpace statusFormat).then ?_
  have number := reads_takeNumber statusFormat count.toNat_lt
  exact (number.before nothing_spaceNext).finish (Reads.pure _)

theorem refuses_takeRestAscii (member : byte ∈ value) (above : byte > 0x7f) :
    ∃ error, Refuses (takeRestAscii statusFormat) value error := by
  obtain ⟨detail, refused⟩ := decodeAscii_of_gt member above statusFormat
  exact ⟨_, (reads_takeRest value).rejects rfl (Refuses.lift refused [])⟩

theorem readHeader_head_refused (found : StatusParseResult) (member : byte ∈ value)
    (above : byte > 0x7f) :
    ∃ error, (readHeader found).on (headerFields "branch.head" value) = .error error := by
  obtain ⟨error, refused⟩ := refuses_takeRestAscii member above
  refine ⟨error, refuses_readHeader (by decide) ?_⟩
  exact (reads_expectSpace statusFormat).refuses trivial refused.bind

theorem readHeader_upstream_refused (found : StatusParseResult) (member : byte ∈ value)
    (above : byte > 0x7f) :
    ∃ error, (readHeader found).on (headerFields "branch.upstream" value) = .error error := by
  obtain ⟨error, refused⟩ := refuses_takeRestAscii member above
  refine ⟨error, refuses_readHeader (by decide) ?_⟩
  exact (reads_expectSpace statusFormat).refuses trivial refused.bind

/-! Whole statuses. -/

theorem free_decimal (value : Nat) : (0 : UInt8) ∉ asciiBytes (decimalText value) :=
  notMem_decimalBytes (by decide) value

theorem free_signedCount (other : charByte sign ≠ 0) (count : UInt64) :
    (0 : UInt8) ∉ asciiBytes (signedCount sign count) := by
  unfold signedCount asciiBytes
  rw [String.toList_ofList, List.map_cons, List.mem_cons, not_or]
  exact ⟨other.symm, free_decimal count.toNat⟩

theorem free_objectName : (0 : UInt8) ∉ oid.1 :=
  notMem_objectName oid (by decide)

theorem free_fileMode : (0 : UInt8) ∉ mode.1 := fun member =>
  absurd (mode.2.2 0 member).1 (by decide)

theorem free_letter (letter : StatusLetter) : (0 : UInt8) ≠ letter.1 := by
  intro same
  have positive := letter.2.1
  rw [← same] at positive
  contradiction

theorem free_submodule : (0 : UInt8) ∉ asciiBytes sub.text := by
  rcases sub with - | ⟨commit, modified, untracked⟩
  · decide
  · revert commit modified untracked
    decide

theorem free_change : (0 : UInt8) ∉ change.render := by
  simp [GitChange.render, free_letter, free_submodule, free_fileMode, free_objectName]

theorem free_conflict : (0 : UInt8) ∉ conflict.render path.1 := by
  simp [GitConflict.render, free_letter, free_submodule, free_fileMode, free_objectName, path.2.2]

theorem free_entry (entry : StatusEntry) : ∀ frame ∈ entry.frames, (0 : UInt8) ∉ frame := by
  cases entry with
  | ordinary change path => simp [StatusEntry.frames, free_change, path.2.2]
  | renamed copy change score path original =>
    have letter : (0 : UInt8) ≠ scoreLetter copy := by
      revert copy
      decide
    simp [StatusEntry.frames, free_change, path.2.2, original.2.2, free_decimal, letter]
  | unmerged conflict path => simp [StatusEntry.frames, free_conflict]
  | untracked path => simp [StatusEntry.frames, path.2.2]
  | ignored path => simp [StatusEntry.frames, path.2.2]

theorem free_header (free_key : (0 : UInt8) ∉ asciiBytes key) (free_value : (0 : UInt8) ∉ value) :
    (0 : UInt8) ∉ headerFrame key value := by
  simp [headerFrame, headerFields, free_key, free_value]

theorem free_frames (status : GitStatus) : ∀ frame ∈ status.frames, (0 : UInt8) ∉ frame := by
  have oid : (0 : UInt8) ∉ status.oidBytes := by
    unfold GitStatus.oidBytes
    cases status.oid with
    | some oid => exact free_objectName oid
    | none => decide
  have head : (0 : UInt8) ∉ status.headBytes := by
    unfold GitStatus.headBytes
    cases status.head with
    | some name => exact name.2
    | none => decide
  intro frame member
  simp only [GitStatus.frames, List.mem_cons, List.mem_append, GitStatus.upstreamFrames,
    GitStatus.aheadBehindFrames, GitStatus.stashFrames, List.mem_map, List.mem_flatMap] at member
  rcases member with rfl | rfl | ⟨name, -, rfl⟩ | ⟨counts, -, rfl⟩ | ⟨count, -, rfl⟩ |
    ⟨entry, -, inside⟩
  · exact free_header (by decide) oid
  · exact free_header (by decide) head
  · exact free_header (by decide) name.2
  · apply free_header (by decide)
    simp only [GitStatus.aheadBehindBytes, List.mem_append, not_or]
    exact ⟨free_signedCount (by decide) counts.1, by decide,
      free_signedCount (by decide) counts.2⟩
  · exact free_header (by decide) (free_decimal count.toNat)
  · exact free_entry entry frame inside

theorem parseStatus_render (status : GitStatus) (maxEntries : Nat) :
    parseStatus status.render maxEntries = readFrames maxEntries .start status.frames := by
  unfold parseStatus GitStatus.render
  rw [splitNulFrames_nulFrames (free_frames status)]
  rfl

theorem oidBytes_le (status : GitStatus) : ∀ byte ∈ status.oidBytes, byte ≤ 0x7f := by
  unfold GitStatus.oidBytes
  cases status.oid with
  | some oid => exact objectName_le oid
  | none => exact asciiBytes_le (by decide)

theorem headBytes_le (ascii : ∀ name ∈ status.head, ∀ byte ∈ name.1, byte ≤ 0x7f) :
    ∀ byte ∈ status.headBytes, byte ≤ 0x7f := by
  unfold GitStatus.headBytes
  cases known : status.head with
  | some name => exact ascii name known
  | none => exact asciiBytes_le (by decide)

def afterBranch (status : GitStatus) : StatusParseResult :=
  withHead (withOid .start (asciiText status.oidBytes)) (asciiText status.headBytes)

def found (status : GitStatus) : StatusParseResult :=
  { afterBranch status with
    upstream := status.upstream.map fun name => asciiText name.1
    ahead := status.aheadBehind.map fun counts => counts.1.toNat
    behind := status.aheadBehind.map fun counts => counts.2.toNat
    stashCount := status.stash.map UInt64.toNat
    records := status.entries.map StatusEntry.record }

theorem readFrames_branch (ascii : ∀ name ∈ status.head, ∀ byte ∈ name.1, byte ≤ 0x7f)
    (maxEntries : Nat) : readFrames maxEntries .start status.frames =
      readFrames maxEntries (afterBranch status) (status.upstreamFrames ++
        (status.aheadBehindFrames ++ (status.stashFrames ++
          status.entries.flatMap StatusEntry.frames))) := by
  unfold GitStatus.frames
  rw [readFrames_header, readHeader_oid _ (oidBytes_le status)]
  change readFrames maxEntries _ (headerFrame "branch.head" _ :: _) = _
  rw [readFrames_header, readHeader_head _ (headBytes_le ascii)]
  rfl

theorem readFrames_upstream (fresh : known.upstream = none)
    (ascii : ∀ name ∈ status.upstream, ∀ byte ∈ name.1, byte ≤ 0x7f) (maxEntries : Nat)
    (frames : List Bytes) :
    readFrames maxEntries known (status.upstreamFrames ++ frames) = readFrames maxEntries
        { known with upstream := status.upstream.map fun name => asciiText name.1 } frames := by
  unfold GitStatus.upstreamFrames
  cases given : status.upstream with
  | none =>
    rw [Option.map_none, ← fresh]
    rfl
  | some name =>
    change readFrames maxEntries known (headerFrame "branch.upstream" name.1 :: frames) = _
    rw [readFrames_header, readHeader_upstream _ (ascii name given)]
    rfl

theorem readFrames_aheadBehind (status : GitStatus) (freshAhead : known.ahead = none)
    (freshBehind : known.behind = none) (maxEntries : Nat) (frames : List Bytes) :
    readFrames maxEntries known (status.aheadBehindFrames ++ frames) = readFrames maxEntries
        { known with
          ahead := status.aheadBehind.map fun counts => counts.1.toNat
          behind := status.aheadBehind.map fun counts => counts.2.toNat } frames := by
  unfold GitStatus.aheadBehindFrames
  cases status.aheadBehind with
  | none =>
    rw [Option.map_none, Option.map_none]
    nth_rewrite 1 [← freshAhead]
    rw [← freshBehind]
    rfl
  | some counts =>
    change readFrames maxEntries known
      (headerFrame "branch.ab" (GitStatus.aheadBehindBytes counts) :: frames) = _
    rw [readFrames_header, readHeader_aheadBehind]
    rfl

theorem readFrames_stash (status : GitStatus) (fresh : known.stashCount = none) (maxEntries : Nat)
    (frames : List Bytes) :
    readFrames maxEntries known (status.stashFrames ++ frames) = readFrames maxEntries
        { known with stashCount := status.stash.map UInt64.toNat } frames := by
  unfold GitStatus.stashFrames
  cases status.stash with
  | none =>
    rw [Option.map_none, ← fresh]
    rfl
  | some count =>
    change readFrames maxEntries known
      (headerFrame "stash" (asciiBytes (decimalText count.toNat)) :: frames) = _
    rw [readFrames_header, readHeader_stash]
    rfl

theorem readFrames_headers (head : ∀ name ∈ status.head, ∀ byte ∈ name.1, byte ≤ 0x7f)
    (upstream : ∀ name ∈ status.upstream, ∀ byte ∈ name.1, byte ≤ 0x7f) (maxEntries : Nat) :
    readFrames maxEntries .start status.frames =
      readFrames maxEntries { found status with records := [] }
        (status.entries.flatMap StatusEntry.frames) := by
  rw [readFrames_branch head, readFrames_upstream rfl upstream,
    readFrames_aheadBehind status rfl rfl, readFrames_stash status rfl]
  rfl

theorem parseStatus_found (head : ∀ name ∈ status.head, ∀ byte ∈ name.1, byte ≤ 0x7f)
    (upstream : ∀ name ∈ status.upstream, ∀ byte ∈ name.1, byte ≤ 0x7f)
    (bound : status.entries.length ≤ maxEntries) :
    parseStatus status.render maxEntries = .ok (found status) := by
  rw [parseStatus_render, readFrames_headers head upstream, readFrames_entries]
  · rfl
  · rwa [List.length_nil, Nat.zero_add]

theorem parseStatus_over (head : ∀ name ∈ status.head, ∀ byte ∈ name.1, byte ≤ 0x7f)
    (upstream : ∀ name ∈ status.upstream, ∀ byte ∈ name.1, byte ≤ 0x7f)
    (exceeds : maxEntries < status.entries.length) :
    ∃ error, parseStatus status.render maxEntries = .error error := by
  rw [parseStatus_render, readFrames_headers head upstream]
  apply readFrames_over
  · exact Nat.zero_le _
  · rwa [List.length_nil, Nat.zero_add]

theorem parseStatus_head_refused (given : status.head = some name) (member : byte ∈ name.1)
    (above : byte > 0x7f) (maxEntries : Nat) :
    ∃ error, parseStatus status.render maxEntries = .error error := by
  have bytes : status.headBytes = name.1 := by
    rw [GitStatus.headBytes, given]
  obtain ⟨error, refused⟩ := readHeader_head_refused
    (withOid .start (asciiText status.oidBytes)) member above
  refine ⟨error, ?_⟩
  rw [parseStatus_render, GitStatus.frames, readFrames_header,
    readHeader_oid _ (oidBytes_le status)]
  change readFrames maxEntries _ (headerFrame "branch.head" _ :: _) = _
  rw [readFrames_header, bytes, refused]
  rfl

theorem parseStatus_upstream_refused (head : ∀ name ∈ status.head, ∀ byte ∈ name.1, byte ≤ 0x7f)
    (given : status.upstream = some name) (member : byte ∈ name.1) (above : byte > 0x7f)
    (maxEntries : Nat) : ∃ error, parseStatus status.render maxEntries = .error error := by
  obtain ⟨error, refused⟩ := readHeader_upstream_refused (afterBranch status) member above
  refine ⟨error, ?_⟩
  rw [parseStatus_render, readFrames_branch head, GitStatus.upstreamFrames, given]
  change readFrames maxEntries _ (headerFrame "branch.upstream" name.1 :: _) = _
  rw [readFrames_header, refused]
  rfl

theorem text_ne_initial : oid.text ≠ "(initial)" := by
  intro same
  have bytes : oid.1 = asciiBytes "(initial)" := by
    rw [← same, ObjectName.text, asciiBytes_asciiText]
  have paren : (0x28 : UInt8) ∉ oid.1 := notMem_objectName oid (by decide)
  rw [bytes] at paren
  exact paren (by decide)

theorem asciiText_eq {bytes : Bytes} {text : String} (ascii : IsAscii text) :
    asciiText bytes = text ↔ bytes = asciiBytes text := by
  constructor
  · rintro rfl
    rw [asciiBytes_asciiText]
  · rintro rfl
    exact asciiText_asciiBytes ascii

theorem text_refName (ascii : ∀ byte ∈ name.1, byte ≤ 0x7f) :
    GitRefName.text name = asciiText name.1 := by
  rw [GitRefName.text, Utf8.decode_ascii ascii, asciiText]

theorem found_eq_expected (head : ∀ name ∈ status.head, ∀ byte ∈ name.1, byte ≤ 0x7f)
    (upstream : ∀ name ∈ status.upstream, ∀ byte ∈ name.1, byte ≤ 0x7f)
    (notSentinel : ∀ name ∈ status.head, name.1 ≠ asciiBytes "(detached)") :
    found status = status.expected := by
  have initial : withOid .start (asciiText status.oidBytes) =
      { StatusParseResult.start with branch := { StatusParseResult.start.branch with
          seen := true, initial := status.oid.isNone, oid := status.oid.map ObjectName.text } } := by
    unfold withOid GitStatus.oidBytes
    cases status.oid with
    | none => decide
    | some oid =>
      have other : (asciiText oid.1 == "(initial)") = false :=
        beq_false_of_ne (text_ne_initial oid)
      rw [other]
      rfl
  have branch : (afterBranch status).branch = status.expected.branch := by
    unfold afterBranch withHead GitStatus.headBytes
    rw [initial]
    cases given : status.head with
    | none =>
      unfold GitStatus.expected
      rw [given]
      rfl
    | some name =>
      have other : (asciiText name.1 == "(detached)") = false :=
        beq_false_of_ne fun same =>
          notSentinel name given ((asciiText_eq (by decide)).mp same)
      unfold GitStatus.expected
      rw [given, other, Option.map_some, text_refName (head name given)]
      rfl
  have names : (status.upstream.map fun name => asciiText name.1) =
      status.upstream.map GitRefName.text := by
    cases given : status.upstream with
    | none => rfl
    | some name => rw [Option.map_some, Option.map_some, text_refName (upstream name given)]
  unfold found
  dsimp only
  rw [branch, names]
  rfl

end Status

namespace GitStatus

/-- The parser reads the status back exactly if it is readable. -/
theorem status_round_trip (status : GitStatus) (maxEntries : Nat) :
    parseStatus status.render maxEntries = .ok status.expected ↔ status.Readable maxEntries := by
  have refused (failed : ∃ error, parseStatus status.render maxEntries = .error error) :
      parseStatus status.render maxEntries ≠ .ok status.expected := by
    obtain ⟨error, failed⟩ := failed
    rw [failed]
    exact nofun
  constructor
  · intro parsed
    have head : ∀ name ∈ status.head, ∀ byte ∈ name.1, byte ≤ 0x7f := by
      intro name given byte member
      by_contra above
      rw [UInt8.not_le] at above
      exact refused (Status.parseStatus_head_refused given member above maxEntries) parsed
    have upstream : ∀ name ∈ status.upstream, ∀ byte ∈ name.1, byte ≤ 0x7f := by
      intro name given byte member
      by_contra above
      rw [UInt8.not_le] at above
      exact refused (Status.parseStatus_upstream_refused head given member above maxEntries) parsed
    have bound : status.entries.length ≤ maxEntries := by
      by_contra exceeds
      exact refused (Status.parseStatus_over head upstream (by omega)) parsed
    refine ⟨head, ?_, upstream, bound⟩
    intro name given sentinel
    rw [Status.parseStatus_found head upstream bound, Except.ok.injEq] at parsed
    have detached : (Status.found status).branch.head = none := by
      change (if asciiText status.headBytes == "(detached)" then none else _) = none
      rw [headBytes, given, show asciiText name.1 = "(detached)" by rw [sentinel]; decide]
      rfl
    rw [parsed, expected, given] at detached
    contradiction
  · intro readable
    rw [Status.parseStatus_found readable.head readable.upstream readable.bound,
      Status.found_eq_expected readable.head readable.upstream readable.notSentinel]

def onUnicodeBranch : GitStatus where
  oid := none
  head := some ⟨[0x66, 0xc3, 0xa9], by decide⟩
  upstream := none
  aheadBehind := none
  stash := none
  entries := []

/-- A branch called `fé` makes the whole status unreadable. -/
theorem unicode_branch_refused :
    parseStatus onUnicodeBranch.render statusMaxEntries = .error (.outputUnparsable
        "status --porcelain=v2 -z" "expected an ASCII field but found byte 0xc3 at 1") ∧
      parseStatus onUnicodeBranch.render statusMaxEntries ≠ .ok onUnicodeBranch.expected := by
  have failed : parseStatus onUnicodeBranch.render statusMaxEntries =
      .error (.outputUnparsable "status --porcelain=v2 -z"
        "expected an ASCII field but found byte 0xc3 at 1") := by decide
  refine ⟨failed, ?_⟩
  exact nofun

end GitStatus

end Refyard
