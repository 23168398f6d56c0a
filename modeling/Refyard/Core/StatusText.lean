import Refyard.Core.Status
import Refyard.Foundation.Fallible

/-! No text in a parsed status holds a NUL: the frames are what stands between them. -/
namespace Refyard

def NulFree (text : String) : Prop := Char.ofNat 0 ∉ text.toList

def nonzero (byte : UInt8) : Prop := byte ≠ 0

variable {bytes : Bytes}

theorem forall_nonzero : (∀ byte ∈ bytes, nonzero byte) ↔ (0 : UInt8) ∉ bytes := by
  constructor
  · intro all member
    exact all 0 member rfl
  · rintro free byte member rfl
    exact free member

theorem nulFree_asciiText (free : ∀ byte ∈ bytes, nonzero byte) : NulFree (asciiText bytes) := by
  unfold NulFree
  rw [toList_asciiText, List.mem_map]
  rintro ⟨byte, member, same⟩
  have number := toNat_byteChar byte
  rw [same] at number
  exact free byte member (UInt8.toNat_inj.mp number.symm)

variable {format : String} {maxEntries : Nat} {found : StatusParseResult}

theorem nulFree_decodeAscii (free : ∀ byte ∈ bytes, nonzero byte) {text : String}
    (decoded : decodeAscii bytes format = .ok text) : NulFree text := by
  unfold decodeAscii at decoded
  split at decoded
  · cases decoded
  · cases decoded
    exact nulFree_asciiText free

theorem nonzero_cutFrames {frame : Bytes} (free : ∀ byte ∈ frame, nonzero byte) :
    ∀ other ∈ cutFrames frame bytes, ∀ byte ∈ other, nonzero byte := by
  induction bytes generalizing frame with
  | nil => simp [cutFrames]
  | cons byte rest ih =>
    unfold cutFrames
    split
    · intro other member
      rw [List.mem_cons] at member
      cases member with
      | inl same => exact same ▸ free
      | inr later => exact ih (by simp) other later
    · rename_i differs
      apply ih
      intro other member
      rw [List.mem_append, List.mem_singleton] at member
      cases member with
      | inl before => exact free other before
      | inr last => exact last ▸ differs

theorem nonzero_splitNulFrames {frames : List Bytes}
    (split : splitNulFrames bytes format = .ok frames) :
    ∀ frame ∈ frames, ∀ byte ∈ frame, nonzero byte := by
  unfold splitNulFrames at split
  split at split
  · cases split
    simp
  · split at split
    · cases split
    · cases split
      exact nonzero_cutFrames (by simp)

namespace FrameReader

abbrev Clean {α : Type} (reader : FrameReader α) (good : α → Prop) : Prop :=
  Yields reader nonzero good

theorem clean_fail {α : Type} {good : α → Prop} (format detail : String) :
    Clean (fail format detail) good := Yields.throw _

theorem clean_takeRest : Clean takeRest fun bytes => ∀ byte ∈ bytes, nonzero byte := by
  intro cursor clean value next ran
  cases ran
  exact ⟨clean, by simp⟩

variable (format : String)

theorem clean_takeBytes (length : Nat) :
    Clean (takeBytes format length) fun bytes => ∀ byte ∈ bytes, nonzero byte := by
  intro cursor clean value next ran
  change (if _ then _ else _) = _ at ran
  split at ran
  · cases ran
  · cases ran
    exact ⟨fun byte member => clean byte (List.mem_of_mem_take member),
      fun byte member => clean byte (List.mem_of_mem_drop member)⟩

theorem clean_takeField : Clean (takeField format) fun bytes => ∀ byte ∈ bytes, nonzero byte := by
  intro cursor clean value next ran
  change (if _ then _ else _) = _ at ran
  split at ran
  · cases ran
  · cases ran
    exact ⟨fun byte member => clean byte ((List.takeWhile_prefix _).subset member),
      fun byte member => clean byte (List.mem_of_mem_drop member)⟩

theorem clean_decodeAscii (free : ∀ byte ∈ bytes, nonzero byte) (format : String) :
    Clean (liftM (decodeAscii bytes format)) NulFree :=
  Yields.lift fun _ => nulFree_decodeAscii free

theorem clean_takeAsciiField : Clean (takeAsciiField format) NulFree :=
  (clean_takeField format).bind fun _ free => clean_decodeAscii free format

theorem clean_takeRestAscii : Clean (takeRestAscii format) NulFree :=
  clean_takeRest.bind fun _ free => clean_decodeAscii free format

theorem clean_takeOid : Clean (takeOid format) NulFree := by
  refine (clean_takeField format).bind fun field free => ?_
  split
  · exact clean_decodeAscii free format
  · exact clean_fail _ _

theorem clean_takeByte : Clean (takeByte format) fun _ => True := by
  intro cursor clean value next ran
  change takeByte format cursor = _ at ran
  unfold takeByte at ran
  split at ran
  · cases ran
  · rename_i byte rest parts
    cases ran
    exact ⟨trivial, fun other member => clean other (by rw [parts]; simp [member])⟩

theorem clean_expectSpace : Clean (expectSpace format) fun _ => True := by
  refine (clean_takeByte format).bind fun byte _ => ?_
  split
  · exact Yields.pure trivial
  · exact clean_fail _ _

theorem clean_spaced {format : String} {α : Type} {reader : FrameReader α} {good : α → Prop}
    (clean : Clean reader good) : Clean (expectSpace format >>= fun _ => reader) good :=
  (clean_expectSpace format).bind fun _ _ => clean

theorem clean_takeNumber : Clean (takeNumber format) fun _ => True := by
  refine (clean_takeField format).bind fun field free => ?_
  split
  · exact clean_fail _ _
  · refine (clean_decodeAscii free format).bind fun text _ => ?_
    split
    · exact Yields.pure trivial
    · exact clean_fail _ _

end FrameReader

structure StatusRecord.TextFree (record : StatusRecord) : Prop where
  modeIndex : ∀ mode ∈ record.modeIndex, NulFree mode
  modeWorktree : ∀ mode ∈ record.modeWorktree, NulFree mode
  oidIndex : ∀ oid ∈ record.oidIndex, NulFree oid

structure StatusParseResult.TextFree (found : StatusParseResult) : Prop where
  oid : ∀ oid ∈ found.branch.oid, NulFree oid
  records : ∀ record ∈ found.records, record.TextFree

namespace Status
open FrameReader

theorem nulFree_decodeMode (free : ∀ byte ∈ bytes, nonzero byte) :
    ∀ mode ∈ decodeMode bytes, NulFree mode := by
  unfold decodeMode
  split
  · simp
  · intro mode same
    cases same
    unfold NulFree
    rw [String.toList_ofList]
    exact Utf8.nul_notMem_decode (forall_nonzero.mp free)

theorem nulFree_readZeroedOid {text : String} (free : NulFree text) :
    ∀ oid ∈ readZeroedOid text, NulFree oid := by
  unfold readZeroedOid
  split
  · simp
  · intro oid same
    cases same
    exact free

theorem clean_readXy : Clean readXy fun _ => True := by
  refine (clean_takeBytes _ _).bind fun bytes free => ?_
  refine (clean_decodeAscii free _).bind fun text _ => ?_
  exact Yields.pure trivial

structure ChangedFields.TextFree (fields : ChangedFields) : Prop where
  modeIndex : ∀ mode ∈ fields.modeIndex, NulFree mode
  modeWorktree : ∀ mode ∈ fields.modeWorktree, NulFree mode
  oidIndex : NulFree fields.oidIndex

theorem ChangedFields.TextFree.record {fields : ChangedFields} (free : fields.TextFree)
    (kind : StatusRecordKind) (path : Bytes) (originalPath : Option Bytes) (score : Option Nat) :
    (fields.record kind path originalPath score).TextFree :=
  ⟨free.modeIndex, free.modeWorktree, nulFree_readZeroedOid free.oidIndex⟩

theorem clean_readChanged : Clean readChanged ChangedFields.TextFree := by
  refine clean_spaced ?_
  refine clean_readXy.bind fun _ _ => ?_
  refine clean_spaced ?_
  refine (clean_takeBytes _ _).bind fun sub subFree => ?_
  refine (clean_decodeAscii subFree _).bind fun _ _ => ?_
  refine clean_spaced ?_
  refine (clean_takeBytes _ _).bind fun modeHead _ => ?_
  refine clean_spaced ?_
  refine (clean_takeBytes _ _).bind fun modeIndex indexFree => ?_
  refine clean_spaced ?_
  refine (clean_takeBytes _ _).bind fun modeWorktree worktreeFree => ?_
  refine clean_spaced ?_
  refine (clean_takeOid _).bind fun _ _ => ?_
  refine clean_spaced ?_
  refine (clean_takeOid _).bind fun oidIndex oidFree => ?_
  refine clean_spaced ?_
  exact Yields.pure ⟨nulFree_decodeMode indexFree, nulFree_decodeMode worktreeFree, oidFree⟩

theorem clean_parseOrdinary : Clean parseOrdinary StatusRecord.TextFree := by
  refine clean_readChanged.bind fun fields free => ?_
  refine clean_takeRest.bind fun path _ => ?_
  split
  · exact clean_fail _ _
  · exact Yields.pure (free.record _ _ _ _)

theorem clean_takeScoreText : Clean takeScoreText fun _ => True := by
  intro cursor clean value next ran
  cases ran
  exact ⟨trivial, fun byte member => clean byte (List.mem_of_mem_drop member)⟩

theorem clean_parseRename (originalFrame : Bytes) :
    Clean (parseRename originalFrame) StatusRecord.TextFree := by
  refine clean_readChanged.bind fun fields free => ?_
  refine (clean_takeBytes _ _).bind fun letter letterFree => ?_
  refine (clean_decodeAscii letterFree _).bind fun scoreKind _ => ?_
  refine clean_takeScoreText.bind fun scoreText _ => ?_
  split
  · exact clean_fail _ _
  · split
    · exact clean_fail _ _
    · refine clean_spaced ?_
      refine clean_takeRest.bind fun path _ => ?_
      split
      · exact clean_fail _ _
      · split
        · exact clean_fail _ _
        · exact Yields.pure (free.record _ _ _ _)

theorem clean_takeStageMode : Clean takeStageMode fun _ => True := by
  refine (clean_takeBytes _ _).bind fun _ _ => ?_
  refine clean_spaced ?_
  exact Yields.pure trivial

theorem clean_takeStageOid : Clean takeStageOid fun _ => True := by
  refine (clean_takeOid _).bind fun _ _ => ?_
  refine clean_spaced ?_
  exact Yields.pure trivial

theorem clean_parseUnmerged : Clean parseUnmerged StatusRecord.TextFree := by
  refine clean_spaced ?_
  refine clean_readXy.bind fun _ _ => ?_
  refine clean_spaced ?_
  refine (clean_takeBytes _ _).bind fun sub subFree => ?_
  refine (clean_decodeAscii subFree _).bind fun _ _ => ?_
  refine clean_spaced ?_
  refine clean_takeStageMode.bind fun _ _ => ?_
  refine clean_takeStageMode.bind fun _ _ => ?_
  refine clean_takeStageMode.bind fun _ _ => ?_
  refine (clean_takeBytes _ _).bind fun modeWorktree worktreeFree => ?_
  refine clean_spaced ?_
  refine clean_takeStageOid.bind fun _ _ => ?_
  refine clean_takeStageOid.bind fun _ _ => ?_
  refine clean_takeStageOid.bind fun _ _ => ?_
  refine clean_takeRest.bind fun path _ => ?_
  split
  · exact clean_fail _ _
  · exact Yields.pure ⟨by simp, nulFree_decodeMode worktreeFree, by simp⟩

theorem clean_parsePathOnly (kind : StatusRecordKind) :
    Clean (parsePathOnly kind) StatusRecord.TextFree := by
  refine clean_spaced ?_
  refine clean_takeRest.bind fun path _ => ?_
  split
  · exact clean_fail _ _
  · exact Yields.pure ⟨by simp [pathOnlyRecord], by simp [pathOnlyRecord], by simp [pathOnlyRecord]⟩

theorem clean_readSignedCount (field : String) (sign : Char) :
    Clean (liftM (readSignedCount field sign)) fun _ => True :=
  Yields.lift fun _ _ => trivial

variable {found : StatusParseResult} {maxEntries : Nat} {reader : FrameReader StatusRecord}

theorem clean_headerValue (free : found.TextFree) (key : String) :
    Clean (headerValue found key) StatusParseResult.TextFree := by
  unfold headerValue
  split
  · refine clean_spaced ?_
    refine (clean_takeRestAscii _).bind fun value valueFree => ?_
    refine Yields.pure ⟨?_, free.records⟩
    intro oid named
    split at named
    · cases named
    · cases named
      exact valueFree
  · refine clean_spaced ?_
    refine (clean_takeRestAscii _).bind fun value _ => ?_
    exact Yields.pure ⟨free.oid, free.records⟩
  · refine clean_spaced ?_
    refine (clean_takeRestAscii _).bind fun value _ => ?_
    exact Yields.pure ⟨free.oid, free.records⟩
  · refine clean_spaced ?_
    refine (clean_takeAsciiField _).bind fun plus _ => ?_
    refine (clean_readSignedCount _ _).bind fun ahead _ => ?_
    refine clean_spaced ?_
    refine (clean_takeAsciiField _).bind fun minus _ => ?_
    refine (clean_readSignedCount _ _).bind fun behind _ => ?_
    exact Yields.pure ⟨free.oid, free.records⟩
  · refine clean_spaced ?_
    refine (clean_takeNumber _).bind fun count _ => ?_
    exact Yields.pure ⟨free.oid, free.records⟩
  · exact Yields.pure free

theorem clean_readHeader (free : found.TextFree) :
    Clean (readHeader found) StatusParseResult.TextFree := by
  refine clean_spaced ?_
  refine (clean_takeAsciiField _).bind fun key _ => ?_
  exact clean_headerValue free key

theorem textFree_pushRecord (free : found.TextFree) {record : StatusRecord} (also : record.TextFree) :
    (pushRecord found record).TextFree := by
  refine ⟨free.oid, ?_⟩
  intro other member
  rw [pushRecord, List.mem_append, List.mem_singleton] at member
  cases member with
  | inl before => exact free.records other before
  | inr last => exact last ▸ also

/-- The readers of the record frames, each on what the frame behind it may hold. -/
inductive ReadsRecord (original : Bytes → Prop) : FrameReader StatusRecord → Prop where
  | ordinary : ReadsRecord original parseOrdinary
  | rename {frame : Bytes} (kept : original frame) : ReadsRecord original (parseRename frame)
  | unmerged : ReadsRecord original parseUnmerged
  | pathOnly (kind : StatusRecordKind) : ReadsRecord original (parsePathOnly kind)

variable {next last : StatusParseResult} {fields : Bytes} {frames : List Bytes}

theorem readRecord_ok (read : readRecord maxEntries found reader fields = .ok next) :
    ∃ record, reader.on fields = .ok record ∧ next = pushRecord found record := by
  obtain ⟨_, -, rest⟩ := bind_eq_ok.mp read
  obtain ⟨record, answered, pushed⟩ := bind_eq_ok.mp rest
  cases pushed
  exact ⟨record, answered, rfl⟩

theorem readFrames_keeps (kept : Bytes → Prop) (good : StatusParseResult → Prop)
    (header : ∀ {found next : StatusParseResult} {first : UInt8} {fields : Bytes}, good found →
      kept (first :: fields) → (readHeader found).on fields = .ok next → good next)
    (record : ∀ {found : StatusParseResult} {reader : FrameReader StatusRecord} {first : UInt8}
      {fields : Bytes} {record : StatusRecord}, good found → ReadsRecord kept reader →
      kept (first :: fields) → reader.on fields = .ok record → good (pushRecord found record))
    (start : good found) (clean : ∀ frame ∈ frames, kept frame)
    (ran : readFrames maxEntries found frames = .ok last) : good last := by
  have pushes : ∀ {found next : StatusParseResult} {reader : FrameReader StatusRecord}
      {first : UInt8} {fields : Bytes}, good found → ReadsRecord kept reader →
      kept (first :: fields) → readRecord maxEntries found reader fields = .ok next → good next := by
    intro found next reader first fields held reads whole read
    obtain ⟨row, answered, rfl⟩ := readRecord_ok read
    exact record held reads whole answered
  induction found, frames using readFrames.induct with
  | case1 found =>
    cases ran
    exact start
  | case2 found frames ih =>
    exact ih start (fun frame member => clean frame (List.mem_cons_of_mem _ member)) ran
  | case3 found fields frames ih =>
    obtain ⟨next, read, goes⟩ := bind_eq_ok.mp ran
    rw [List.forall_mem_cons] at clean
    exact ih next (header start clean.1 read) clean.2 goes
  | case4 found fields frames ih =>
    obtain ⟨next, read, goes⟩ := bind_eq_ok.mp ran
    rw [List.forall_mem_cons] at clean
    exact ih next (pushes start .ordinary clean.1 read) clean.2 goes
  | case5 found tail =>
    obtain ⟨_, -, refused⟩ := bind_eq_ok.mp ran
    cases refused
  | case6 found fields original frames ih =>
    obtain ⟨next, read, goes⟩ := bind_eq_ok.mp ran
    rw [List.forall_mem_cons, List.forall_mem_cons] at clean
    exact ih next (pushes start (.rename clean.2.1) clean.1 read) clean.2.2 goes
  | case7 found fields frames ih =>
    obtain ⟨next, read, goes⟩ := bind_eq_ok.mp ran
    rw [List.forall_mem_cons] at clean
    exact ih next (pushes start .unmerged clean.1 read) clean.2 goes
  | case8 found fields frames ih =>
    obtain ⟨next, read, goes⟩ := bind_eq_ok.mp ran
    rw [List.forall_mem_cons] at clean
    exact ih next (pushes start (.pathOnly _) clean.1 read) clean.2 goes
  | case9 found fields frames ih =>
    obtain ⟨next, read, goes⟩ := bind_eq_ok.mp ran
    rw [List.forall_mem_cons] at clean
    exact ih next (pushes start (.pathOnly _) clean.1 read) clean.2 goes
  | case10 found other tail rest notHeader notOrdinary notLast notRename notUnmerged notUntracked
      notIgnored =>
    rw [readFrames] at ran
    · cases ran
    all_goals assumption

theorem ReadsRecord.clean {original : Bytes → Prop} (h : ReadsRecord original reader) :
    Clean reader StatusRecord.TextFree := by
  cases h with
  | ordinary => exact clean_parseOrdinary
  | rename kept => exact clean_parseRename _
  | unmerged => exact clean_parseUnmerged
  | pathOnly kind => exact clean_parsePathOnly kind

theorem textFree_readFrames (free : found.TextFree)
    (clean : ∀ frame ∈ frames, ∀ byte ∈ frame, nonzero byte)
    (ran : readFrames maxEntries found frames = .ok last) : last.TextFree := by
  refine readFrames_keeps (fun frame => ∀ byte ∈ frame, nonzero byte) _ ?_ ?_ free clean ran
  · intro found next first fields held whole read
    rw [List.forall_mem_cons] at whole
    exact (clean_readHeader held).on whole.2 read
  · intro found reader first fields record held reads whole read
    rw [List.forall_mem_cons] at whole
    exact textFree_pushRecord held (reads.clean.on whole.2 read)

def OriginalKept (kept : Bytes → Prop) (record : StatusRecord) : Prop :=
  ∀ original ∈ record.originalPath, kept original

theorem ReadsRecord.originalKept {kept : Bytes → Prop} (h : ReadsRecord kept reader) :
    Yields reader (fun _ => True) (OriginalKept kept) := by
  have nothing : ∀ {record : StatusRecord}, record.originalPath = none →
      OriginalKept kept record := by
    intro record none original held
    rw [none] at held
    cases held
  cases h with
  | ordinary =>
    refine Yields.after fun fields => ?_
    refine Yields.after fun path => ?_
    split
    · exact Yields.throw _
    · exact Yields.pure (nothing rfl)
  | rename held =>
    refine Yields.after fun fields => ?_
    refine Yields.after fun letter => ?_
    refine Yields.after fun scoreKind => ?_
    refine Yields.after fun scoreText => ?_
    split
    · exact Yields.throw _
    · split
      · exact Yields.throw _
      · refine Yields.after fun _ => ?_
        refine Yields.after fun path => ?_
        split
        · exact Yields.throw _
        · split
          · exact Yields.throw _
          · refine Yields.pure ?_
            intro original same
            cases same
            exact held
  | unmerged =>
    refine Yields.after fun _ => ?_
    refine Yields.after fun _ => ?_
    refine Yields.after fun _ => ?_
    refine Yields.after fun subBytes => ?_
    refine Yields.after fun _ => ?_
    refine Yields.after fun _ => ?_
    refine Yields.after fun _ => ?_
    refine Yields.after fun _ => ?_
    refine Yields.after fun _ => ?_
    refine Yields.after fun _ => ?_
    refine Yields.after fun _ => ?_
    refine Yields.after fun _ => ?_
    refine Yields.after fun _ => ?_
    refine Yields.after fun _ => ?_
    refine Yields.after fun path => ?_
    split
    · exact Yields.throw _
    · exact Yields.pure (nothing rfl)
  | pathOnly kind =>
    refine Yields.after fun _ => ?_
    refine Yields.after fun path => ?_
    split
    · exact Yields.throw _
    · exact Yields.pure (nothing rfl)

theorem readHeader_records (read : (readHeader found).on fields = .ok next) :
    next.records = found.records := by
  have same : Yields (readHeader found) (fun _ => True)
      fun next => next.records = found.records := by
    refine Yields.after fun _ => ?_
    refine Yields.after fun key => ?_
    unfold headerValue
    split
    · refine Yields.after fun _ => ?_
      exact Yields.after fun value => Yields.pure rfl
    · refine Yields.after fun _ => ?_
      exact Yields.after fun value => Yields.pure rfl
    · refine Yields.after fun _ => ?_
      exact Yields.after fun value => Yields.pure rfl
    · refine Yields.after fun _ => ?_
      refine Yields.after fun plus => ?_
      refine Yields.after fun ahead => ?_
      refine Yields.after fun _ => ?_
      refine Yields.after fun minus => ?_
      exact Yields.after fun behind => Yields.pure rfl
    · refine Yields.after fun _ => ?_
      exact Yields.after fun count => Yields.pure rfl
    · exact Yields.pure rfl
  exact same.on (fun _ _ => trivial) read

end Status

theorem textFree_parseStatus (parsed : parseStatus bytes maxEntries = .ok found) :
    found.TextFree := by
  unfold parseStatus at parsed
  cases split : splitNulFrames bytes statusFormat with
  | error error =>
    rw [split] at parsed
    cases parsed
  | ok frames =>
    rw [split] at parsed
    have start : StatusParseResult.start.TextFree :=
      ⟨by simp [StatusParseResult.start], by simp [StatusParseResult.start]⟩
    exact Status.textFree_readFrames start (nonzero_splitNulFrames split) parsed

theorem originalKept_parseStatus (parsed : parseStatus bytes maxEntries = .ok found) :
    ∀ record ∈ found.records, ∀ original ∈ record.originalPath, (0 : UInt8) ∉ original := by
  obtain ⟨frames, split, ran⟩ := bind_eq_ok.mp parsed
  refine Status.readFrames_keeps (fun frame => (0 : UInt8) ∉ frame)
    (fun found => ∀ record ∈ found.records, Status.OriginalKept (fun frame => 0 ∉ frame) record)
    ?_ ?_ ?_ ?_ ran
  · intro found next first fields held _ read
    rw [Status.readHeader_records read]
    exact held
  · intro found reader first fields record held reads _ read other member
    rw [Status.pushRecord, List.mem_append, List.mem_singleton] at member
    cases member with
    | inl before => exact held other before
    | inr last => exact last ▸ reads.originalKept.on (fun _ _ => trivial) read
  · simp [StatusParseResult.start]
  · exact fun frame member => forall_nonzero.mp (nonzero_splitNulFrames split frame member)

end Refyard
