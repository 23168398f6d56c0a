import Refyard.Foundation.Fallible
import Refyard.GitCore.Status
import Mathlib.Algebra.Order.Ring.Nat
import Mathlib.Data.List.TakeWhile

/-! The two readings of a status side by side. Both take the frames apart in the same way;
what they make of modes, scores and counts is where they can differ. -/
namespace Refyard.GitCore.Status

open Refyard.GitCore.FrameReader

section
variable (format : String)

theorem toOption_decodeAscii (start : Nat) (bytes : Bytes) :
    (Refyard.decodeAscii bytes format).toOption =
      (FrameReader.decodeAscii start bytes).toOption := by
  unfold Refyard.decodeAscii FrameReader.decodeAscii
  cases bytes.findIdx? fun byte => byte > 0x7f <;> rfl

theorem tracks_decodeAscii (start : Nat) (bytes : Bytes) :
    Tracks (liftM (Refyard.decodeAscii bytes format) : Refyard.FrameReader String)
      (liftM (FrameReader.decodeAscii start bytes) : FrameReader String) some := by
  apply Tracks.lift
  rw [toOption_decodeAscii format start, Option.bind_fun_some]

theorem tracks_expectSpace :
    Tracks (Refyard.FrameReader.expectSpace format) (expectSpace format) some := by
  rintro ⟨rest, offset⟩
  cases rest with
  | nil => rfl
  | cons byte rest =>
    by_cases space : byte = 0x20
    · subst space
      rfl
    · have rust : (Refyard.FrameReader.expectSpace format).run ⟨byte :: rest, offset⟩ =
          (if byte = 0x20 then pure () else Refyard.FrameReader.fail format
            "expected a space separator" : Refyard.FrameReader Unit).run ⟨rest, offset + 1⟩ := rfl
      have typed : expectSpace format ⟨byte :: rest, offset⟩ =
          FrameReader.fail format "expected a space separator" ⟨byte :: rest, offset⟩ := by
        unfold expectSpace
        split
        · rename_i same
          exact absurd (List.cons.inj same).1 space
        · rfl
      rw [rust, if_neg space]
      change none = (Except.toOption (expectSpace format ⟨byte :: rest, offset⟩)).bind _
      rw [typed]
      rfl

theorem tracks_spaced {α β : Type} {reader : Refyard.FrameReader α} {other : FrameReader β}
    {make : β → Option α} (tracks : Tracks reader other make) :
    Tracks (Refyard.FrameReader.expectSpace format >>= fun _ => reader)
      (expectSpace format >>= fun _ => other) make :=
  (tracks_expectSpace format).same fun _ => tracks

theorem tracks_takeRest : Tracks Refyard.FrameReader.takeRest takeRest some := fun _ => rfl

theorem tracks_takeBytes (count : Nat) :
    Tracks (Refyard.FrameReader.takeBytes format count) (takeBytes format count) some := by
  intro cursor
  change Except.toOption (Refyard.FrameReader.takeBytes format count cursor) =
    (Except.toOption (takeBytes format count cursor)).bind _
  unfold Refyard.FrameReader.takeBytes takeBytes
  split <;> rfl

theorem tracks_takeField :
    Tracks (Refyard.FrameReader.takeAsciiField format) (takeField format) some := by
  intro cursor
  change Except.toOption ((Refyard.FrameReader.takeField format cursor).bind fun taken =>
    ((Refyard.decodeAscii taken.1 format).bind fun text => .ok (text, taken.2))) =
      (Except.toOption (takeField format cursor)).bind _
  unfold Refyard.FrameReader.takeField takeField Refyard.decodeAscii FrameReader.decodeAscii
  dsimp only
  split
  · rfl
  · simp only [Except.bind]
    cases (cursor.rest.takeWhile fun byte => byte ≠ 0x20).findIdx? fun byte => byte > 0x7f <;> rfl

theorem between_byteChar (low high : Char) (byte : UInt8) :
    (low ≤ byteChar byte ∧ byteChar byte ≤ high) ↔
      low.toNat ≤ byte.toNat ∧ byte.toNat ≤ high.toNat := by
  rw [← toNat_byteChar byte]
  exact Iff.rfl

variable (byte : UInt8) (bytes : Bytes)

theorem isDigit_byteChar : (byteChar byte).isDigit = (0x30 ≤ byte && byte ≤ 0x39) := by
  rw [Bool.eq_iff_iff]
  have between := between_byteChar '0' '9' byte
  simp only [Char.isDigit, Bool.and_eq_true, decide_eq_true_eq, UInt8.le_iff_toNat_le, ge_iff_le]
  exact between

theorem isHexDigit_byteChar : isHexDigit (byteChar byte) =
    ((0x30 ≤ byte && byte ≤ 0x39) || (0x61 ≤ byte && byte ≤ 0x66)) := by
  have between := between_byteChar 'a' 'f' byte
  unfold isHexDigit
  rw [isDigit_byteChar]
  congr 1
  rw [Bool.eq_iff_iff]
  simpa [UInt8.le_iff_toNat_le] using between

theorem isObjectName_asciiText :
    FrameReader.isObjectName (asciiText bytes) = Refyard.isObjectName bytes := by
  unfold FrameReader.isObjectName Refyard.isObjectName
  rw [← String.length_toList, toList_asciiText, List.length_map, List.all_map]
  congr 2
  funext byte
  exact isHexDigit_byteChar byte

theorem decodeAscii_cases (start : Nat) (bytes : Bytes) :
    (∃ detail error byte, Refyard.decodeAscii bytes format = .error detail ∧
      FrameReader.decodeAscii start bytes = .error error ∧ byte ∈ bytes ∧ 0x7f < byte) ∨
    Refyard.decodeAscii bytes format = .ok (asciiText bytes) ∧
      FrameReader.decodeAscii start bytes = .ok (asciiText bytes) := by
  unfold Refyard.decodeAscii FrameReader.decodeAscii
  cases found : bytes.findIdx? fun byte => byte > 0x7f with
  | none => exact .inr ⟨rfl, rfl⟩
  | some index =>
    obtain ⟨inside, above, -⟩ := List.findIdx?_eq_some_iff_getElem.mp found
    exact .inl ⟨_, _, bytes[index], rfl, rfl, List.getElem_mem inside, by simpa using above⟩

theorem tracks_checked {κ α : Type} (kind : Bytes → Bool) (shape : String → Bool)
    {next : Bytes → Refyard.FrameReader α} {more : String → FrameReader κ} {make : κ → Option α}
    (same : ∀ bytes, shape (asciiText bytes) = kind bytes)
    (ascii : ∀ bytes byte, byte ∈ bytes → 0x7f < byte → kind bytes = false)
    (refused : ∀ bytes, kind bytes = false → ∀ cursor, ((next bytes).run cursor).toOption = none)
    (goes : ∀ bytes, kind bytes = true → Tracks (next bytes) (more (asciiText bytes)) make)
    (refuses : ∀ text, shape text = false → ∀ cursor, ((more text).run cursor).toOption = none) :
    Tracks (Refyard.FrameReader.takeField format >>= next) (takeField format >>= more) make := by
  intro cursor
  rw [StateT.run_bind, StateT.run_bind]
  change Except.toOption ((Refyard.FrameReader.takeField format cursor).bind fun taken =>
    (next taken.1).run taken.2) = (Except.toOption ((takeField format cursor).bind fun taken =>
      (more taken.1).run taken.2)).bind _
  unfold Refyard.FrameReader.takeField takeField
  dsimp only
  split
  · rfl
  · generalize (cursor.rest.takeWhile fun byte => byte ≠ 0x20) = field
    obtain ⟨-, error, byte, -, failed, member, above⟩ | ⟨-, decoded⟩ :=
      decodeAscii_cases format cursor.offset field
    · rw [failed]
      exact refused field (ascii field byte member above) _
    · rw [decoded]
      simp only [Except.bind, Except.map]
      cases checked : kind field with
      | true => exact goes field checked _
      | false =>
        rw [refused field checked, refuses _ ((same field).trans checked)]
        rfl

theorem tracks_takeOid : Tracks (Refyard.FrameReader.takeOid format) (takeOid format) some := by
  refine tracks_checked format Refyard.isObjectName _ isObjectName_asciiText ?_ ?_ ?_ ?_
  · intro bytes byte member above
    rw [Bool.eq_false_iff]
    intro named
    exact absurd (objectName_le ⟨bytes, named⟩ byte member) (UInt8.not_le.mpr above)
  · intro bytes checked cursor
    rw [checked]
    rfl
  · intro bytes checked
    rw [isObjectName_asciiText, checked, if_pos rfl, if_pos rfl,
      decodeAscii_of_le (objectName_le ⟨bytes, checked⟩)]
    exact fun _ => rfl
  · intro text checked cursor
    rw [checked]
    rfl

theorem all_isDigit_asciiText :
    (asciiText bytes).toList.all Char.isDigit = bytes.all fun byte => 0x30 ≤ byte && byte ≤ 0x39 := by
  rw [toList_asciiText, List.all_map]
  congr 1
  funext byte
  exact isDigit_byteChar byte

theorem digits_le {bytes : Bytes} (digits : (bytes.all fun byte => 0x30 ≤ byte && byte ≤ 0x39) = true) :
    ∀ byte ∈ bytes, byte ≤ 0x7f := by
  intro byte member
  have digit := List.all_eq_true.mp digits byte member
  simp only [Bool.and_eq_true, decide_eq_true_eq, UInt8.le_iff_toNat_le] at digit ⊢
  exact Nat.le_trans digit.2 (by decide)

theorem tracks_takeNumber : Tracks (Refyard.FrameReader.takeNumber format) (takeDigits format)
    fun digits => parseUnsigned 64 digits.toList := by
  refine tracks_checked format (fun bytes => bytes.all fun byte => 0x30 ≤ byte && byte ≤ 0x39)
    (fun text => text.toList.all Char.isDigit) all_isDigit_asciiText ?_ ?_ ?_ ?_
  · intro bytes byte member above
    rw [Bool.eq_false_iff]
    intro digits
    exact absurd (digits_le digits byte member) (UInt8.not_le.mpr above)
  · intro bytes checked cursor
    rw [checked, Bool.not_false, Bool.or_true]
    rfl
  · intro bytes checked
    rw [checked, all_isDigit_asciiText, checked, Bool.not_true, Bool.or_false, if_pos rfl,
      decodeAscii_of_le (digits_le checked)]
    cases bytes with
    | nil => exact fun _ => rfl
    | cons byte bytes =>
      rw [List.isEmpty_cons, if_neg nofun]
      intro cursor
      generalize asciiText (byte :: bytes) = text
      rw [StateT.run_bind]
      change Except.toOption (Except.bind (Except.ok (text, cursor)) _) =
        (parseUnsigned 64 text.toList).map fun value => (value, cursor)
      dsimp only [Except.bind]
      cases parseUnsigned 64 text.toList <;> rfl
  · intro text checked cursor
    rw [checked]
    rfl

theorem tracks_takeRestAscii :
    Tracks (Refyard.FrameReader.takeRestAscii format) takeRestAscii some :=
  tracks_takeRest.same (tracks_decodeAscii format 0)

end

theorem tracks_readXy : Tracks Refyard.Status.readXy readXy some := by
  unfold readXy takeFixedString
  rw [bind_assoc]
  apply (tracks_takeBytes _ 2).same
  intro bytes
  apply (tracks_decodeAscii _ 0 bytes).same
  intro text
  exact Tracks.pure rfl

def ChangedFields.decoded (changed : ChangedFields) : Refyard.Status.ChangedFields where
  indexStatus := changed.indexStatus
  worktreeStatus := changed.worktreeStatus
  sub := changed.sub
  modeHead := Refyard.Status.decodeMode changed.modeHead
  modeIndex := Refyard.Status.decodeMode changed.modeIndex
  modeWorktree := Refyard.Status.decodeMode changed.modeWorktree
  oidHead := changed.oidHead
  oidIndex := changed.oidIndex

theorem tracks_readChanged :
    Tracks Refyard.Status.readChanged readChanged fun changed => some changed.decoded := by
  unfold readChanged takeFixedString
  simp only [bind_assoc]
  refine tracks_spaced _ (tracks_readXy.same fun xy => ?_)
  refine tracks_spaced _ ((tracks_takeBytes _ 4).same fun sub => ?_)
  refine (tracks_decodeAscii _ 0 sub).same fun sub => tracks_spaced _ ?_
  refine (tracks_takeBytes _ 6).same fun modeHead => tracks_spaced _ ?_
  refine (tracks_takeBytes _ 6).same fun modeIndex => tracks_spaced _ ?_
  refine (tracks_takeBytes _ 6).same fun modeWorktree => tracks_spaced _ ?_
  refine (tracks_takeOid _).same fun oidHead => tracks_spaced _ ?_
  refine (tracks_takeOid _).same fun oidIndex => tracks_spaced _ ?_
  exact Tracks.pure rfl

/-- The record that the other parser makes of the fields, where it makes one. -/
def Fields.native : Fields → Option Refyard.StatusRecord
  | .ordinary changed path => some (changed.decoded.record .ordinary path none none)
  | .renamed changed scoreKind scoreText path originalPath =>
      (parseUnsigned 32 scoreText.toList).map fun score =>
        changed.decoded.record (if scoreKind = "C" then .copied else .renamed) path
          (some originalPath) (some score)
  | .unmerged indexStatus worktreeStatus sub stageModes modeWorktree oids path =>
      some
        { kind := .unmerged
          indexStatus
          worktreeStatus
          submoduleField := sub
          modeHead := none
          modeIndex := none
          modeWorktree := Refyard.Status.decodeMode modeWorktree
          oidHead := none
          oidIndex := none
          path
          originalPath := none
          score := none
          stages := Refyard.Status.stagesOf
            (stageModes.map fun mode => (Refyard.Status.decodeMode mode).getD "000000") oids
          submoduleCommitChanged := false
          submoduleModified := false
          submoduleUntracked := false }
  | .pathOnly kind path => some (Refyard.Status.pathOnlyRecord kind path)

theorem tracks_parseOrdinary : Tracks Refyard.Status.parseOrdinary parseOrdinary Fields.native := by
  refine tracks_readChanged.made fun changed => tracks_takeRest.same fun path => ?_
  exact Tracks.ite (fun _ => Tracks.fails) fun _ => Tracks.pure rfl

theorem tracks_takeScoreText : Tracks Refyard.Status.takeScoreText takeScoreText some := fun _ => rfl

variable (originalFrame bytes : Bytes) {mode : Bytes} {oids : List String}

theorem tracks_parseRename :
    Tracks (Refyard.Status.parseRename originalFrame) (parseRename originalFrame)
      Fields.native := by
  unfold parseRename takeFixedString
  simp only [bind_assoc]
  refine tracks_readChanged.made fun changed => (tracks_takeBytes _ 1).same fun letter => ?_
  refine (tracks_decodeAscii _ 0 letter).same fun scoreKind => ?_
  refine tracks_takeScoreText.same fun scoreText => Tracks.ite (fun _ => Tracks.fails) fun _ => ?_
  have useless (path : Bytes) (none_made : parseUnsigned 32 scoreText.toList = none) :
      (Fields.renamed changed scoreKind scoreText path originalFrame).native = none := by
    rw [Fields.native, none_made]
    rfl
  cases number : parseUnsigned 32 scoreText.toList with
  | none =>
    apply Tracks.refuses
    refine Yields.after fun _ => Yields.after ?_
    intro path
    split
    · exact Yields.throw _
    · split
      · exact Yields.throw _
      · exact Yields.pure (useless path number)
  | some score =>
    refine tracks_spaced _ (tracks_takeRest.same fun path => ?_)
    refine Tracks.ite (fun _ => Tracks.fails) fun _ => Tracks.ite (fun _ => Tracks.fails) fun _ => ?_
    apply Tracks.pure
    rw [Fields.native, number]
    rfl

theorem tracks_takeStageMode : Tracks Refyard.Status.takeStageMode takeStageMode
    fun mode => some ((Refyard.Status.decodeMode mode).getD "000000") := by
  refine (tracks_takeBytes _ 6).same fun mode => tracks_spaced _ ?_
  exact Tracks.pure rfl

theorem tracks_takeStageOid : Tracks Refyard.Status.takeStageOid takeStageOid some := by
  refine (tracks_takeOid _).same fun oid => tracks_spaced _ ?_
  exact Tracks.pure rfl

theorem tracks_parseUnmerged : Tracks Refyard.Status.parseUnmerged parseUnmerged Fields.native := by
  unfold parseUnmerged takeFixedString
  simp only [bind_assoc]
  refine tracks_spaced _ (tracks_readXy.same fun xy => ?_)
  refine tracks_spaced _ ((tracks_takeBytes _ 4).same fun sub => ?_)
  refine (tracks_decodeAscii _ 0 sub).same fun sub => tracks_spaced _ ?_
  refine tracks_takeStageMode.made fun base => tracks_takeStageMode.made fun ours => ?_
  refine tracks_takeStageMode.made fun theirs => (tracks_takeBytes _ 6).same fun worktree => ?_
  refine tracks_spaced _ (tracks_takeStageOid.same fun base => ?_)
  refine tracks_takeStageOid.same fun ours => tracks_takeStageOid.same fun theirs => ?_
  refine tracks_takeRest.same fun path => Tracks.ite (fun _ => Tracks.fails) fun _ => ?_
  exact Tracks.pure rfl

theorem tracks_parsePathOnly (kind : StatusRecordKind) :
    Tracks (Refyard.Status.parsePathOnly kind) (parsePathOnly kind) Fields.native := by
  refine tracks_spaced _ (tracks_takeRest.same fun path => ?_)
  exact Tracks.ite (fun _ => Tracks.fails) fun _ => Tracks.pure rfl

def Header.native (found : Refyard.StatusParseResult) :
    Header → Option Refyard.StatusParseResult
  | .branchOid value =>
      let initial := value == "(initial)"
      some { found with branch := { found.branch with
          seen := true, initial, oid := if initial then none else some value } }
  | .branchHead value =>
      let detached := value == "(detached)"
      some { found with branch := { found.branch with
          seen := true, detached, head := if detached then none else some value } }
  | .upstream value => some { found with upstream := some value }
  | .aheadBehind ahead behind =>
      (parseUnsigned 64 ahead).bind fun ahead => (parseUnsigned 64 behind).map fun behind =>
        { found with ahead := some ahead, behind := some behind }
  | .stash digits =>
      (parseUnsigned 64 digits).map fun count => { found with stashCount := some count }
  | .other => some found

theorem tracks_readSignedCount (field : String) (sign : Char) :
    Tracks (liftM (Refyard.Status.readSignedCount field sign) : Refyard.FrameReader Nat)
      (readSignedCount field sign) (parseUnsigned 64) := by
  unfold Refyard.Status.readSignedCount readSignedCount
  by_cases signed : field.toList.head? = some sign
  · rw [if_neg (not_not.mpr signed), if_neg (not_not.mpr signed)]
    generalize field.toList.tail = digits
    cases checked : digits.all Char.isDigit with
    | false =>
      rw [Bool.not_false, Bool.or_true]
      exact fun _ => rfl
    | true =>
      rw [Bool.not_true, Bool.or_false]
      cases digits with
      | nil => exact fun _ => rfl
      | cons digit digits =>
        intro cursor
        rw [List.isEmpty_cons, if_neg nofun, if_neg nofun]
        change _ = (parseUnsigned 64 (digit :: digits)).map fun value => (value, cursor)
        cases parseUnsigned 64 (digit :: digits) <;> rfl
  · rw [if_pos signed, if_pos signed]
    exact fun _ => rfl

variable (found : Refyard.StatusParseResult) {bits value : Nat} {text : List Char} {kept : Kept}

theorem tracks_aheadBehind : Tracks (do
        Refyard.FrameReader.expectSpace statusFormat
        let plus ← Refyard.FrameReader.takeAsciiField statusFormat
        let ahead ← Refyard.Status.readSignedCount plus '+'
        Refyard.FrameReader.expectSpace statusFormat
        let minus ← Refyard.FrameReader.takeAsciiField statusFormat
        let behind ← Refyard.Status.readSignedCount minus '-'
        pure { found with ahead := some ahead, behind := some behind })
      (do
        expectSpace statusFormat
        let plus ← takeField statusFormat
        let ahead ← readSignedCount plus '+'
        expectSpace statusFormat
        let minus ← takeField statusFormat
        let behind ← readSignedCount minus '-'
        pure (Header.aheadBehind ahead behind))
      (Header.native found) := by
  refine tracks_spaced _ ((tracks_takeField _).same fun plus => ?_)
  refine (tracks_readSignedCount plus '+').bind ?_ ?_
  · intro aheadDigits ahead aheadRead
    refine tracks_spaced _ ((tracks_takeField _).same fun minus => ?_)
    refine (tracks_readSignedCount minus '-').bind ?_ ?_
    · intro behindDigits behind behindRead
      apply Tracks.pure
      rw [Header.native, aheadRead, behindRead]
      rfl
    · intro behindDigits lost
      apply Yields.pure
      rw [Header.native, aheadRead, lost]
      rfl
  · intro aheadDigits lost
    refine Yields.after fun _ => Yields.after fun minus => ?_
    refine Yields.after fun behind => Yields.pure ?_
    rw [Header.native, lost]
    rfl

theorem tracks_headerValue (key : String) :
    Tracks (Refyard.Status.headerValue found key) (headerValue key) (Header.native found) := by
  unfold headerValue
  split
  · refine tracks_spaced _ ((tracks_takeRestAscii _).same fun value => ?_)
    exact Tracks.pure rfl
  · refine tracks_spaced _ ((tracks_takeRestAscii _).same fun value => ?_)
    exact Tracks.pure rfl
  · refine tracks_spaced _ ((tracks_takeRestAscii _).same fun value => ?_)
    exact Tracks.pure rfl
  · exact tracks_aheadBehind found
  · refine tracks_spaced _ ((tracks_takeNumber _).bind ?_ ?_)
    · intro digits count read
      apply Tracks.pure
      rw [Header.native, read]
      rfl
    · intro digits lost
      apply Yields.pure
      rw [Header.native, lost]
      rfl
  · unfold Refyard.Status.headerValue
    split
    all_goals first | contradiction | exact Tracks.pure rfl

theorem tracks_readHeader :
    Tracks (Refyard.Status.readHeader found) readHeader (Header.native found) := by
  refine tracks_spaced _ ((tracks_takeField _).same fun key => ?_)
  exact tracks_headerValue found key

inductive Item where
  | header (header : Header)
  | record (fields : Fields)

/-- The loop over the frames without its bound, and with nothing made of what it reads. -/
def readItems : List Bytes → Except GitOutputParseError (List Item)
  | [] => .ok []
  | [] :: frames => readItems frames
  | (0x23 :: fields) :: frames => do
      let header ← readHeader.on fields
      return .header header :: (← readItems frames)
  | (0x31 :: fields) :: frames => do
      let record ← parseOrdinary.on fields
      return .record record :: (← readItems frames)
  | [0x32 :: fields] =>
      .error { format := statusFormat, offset := some (fields.length + 1),
               message := "rename record was not followed by its original path frame" }
  | (0x32 :: fields) :: original :: frames => do
      let record ← (parseRename original).on fields
      return .record record :: (← readItems frames)
  | (0x75 :: fields) :: frames => do
      let record ← parseUnmerged.on fields
      return .record record :: (← readItems frames)
  | (0x3f :: fields) :: frames => do
      let record ← (parsePathOnly .untracked).on fields
      return .record record :: (← readItems frames)
  | (0x21 :: fields) :: frames => do
      let record ← (parsePathOnly .ignored).on fields
      return .record record :: (← readItems frames)
  | (other :: _) :: _ =>
      .error { format := statusFormat, message := s!"unknown record type '{byteChar other}'",
               offset := some 0 }

def entryCount : List Bytes → Nat
  | [] => 0
  | [] :: frames => entryCount frames
  | (0x23 :: _) :: frames => entryCount frames
  | [0x32 :: _] => 0
  | (0x32 :: _) :: _ :: frames => entryCount frames + 1
  | (0x31 :: _) :: frames => entryCount frames + 1
  | (0x75 :: _) :: frames => entryCount frames + 1
  | (0x3f :: _) :: frames => entryCount frames + 1
  | (0x21 :: _) :: frames => entryCount frames + 1
  | _ => 0

def Item.apply (found : StatusParseResult) : Item → StatusParseResult
  | .header said => said.apply found
  | .record fields => pushRecord found fields

def Item.native (found : Refyard.StatusParseResult) : Item → Option Refyard.StatusParseResult
  | .header said => said.native found
  | .record fields => fields.native.map (Refyard.Status.pushRecord found)

section
variable {maxEntries : Nat}

theorem checkBound_of_lt {records : List StatusRecord} (room : records.length < maxEntries) :
    checkBound records maxEntries = .ok () :=
  if_neg (Nat.not_le.mpr room)

theorem toOption_items {α β : Type} {read : Except GitOutputParseError β} {item : β → Item}
    {items : Except GitOutputParseError (List Item)} {make : List Item → Option α} :
    (read >>= fun first => items >>= fun rest => pure (item first :: rest)).toOption.bind make =
      read.toOption.bind fun first => items.toOption.bind fun rest => make (item first :: rest) := by
  cases read with
  | error error => rfl
  | ok first => cases items <;> rfl

theorem records_apply (header : Header) (found : StatusParseResult) :
    (header.apply found).records = found.records := by
  cases header <;> rfl

theorem toOption_record {read : Except GitOutputParseError Fields} {frames : List Bytes}
    {found : StatusParseResult}
    (ih : ∀ next : StatusParseResult, next.records.length = found.records.length + 1 →
      (readFrames maxEntries next frames).toOption =
        (readItems frames).toOption.bind fun items => some (items.foldl Item.apply next)) :
    (read >>= fun record => readFrames maxEntries (pushRecord found record) frames).toOption = (do
        let record ← read
        return Item.record record :: (← readItems frames)).toOption.bind fun items =>
          some (items.foldl Item.apply found) := by
  rw [toOption_items, toOption_bind]
  congr 1
  funext record
  rw [ih _ (by rw [pushRecord, List.length_append, List.length_singleton])]
  rfl

theorem readFrames_eq (frames : List Bytes) (found : StatusParseResult)
    (room : found.records.length + entryCount frames ≤ maxEntries) :
    (readFrames maxEntries found frames).toOption =
      (readItems frames).toOption.bind fun items => some (items.foldl Item.apply found) := by
  induction frames using readItems.induct generalizing found with
  | case1 => rfl
  | case2 frames ih => exact ih found room
  | case3 fields frames ih =>
    rw [readFrames, readItems, toOption_items, toOption_bind]
    congr 1
    funext header
    exact ih _ (by rwa [records_apply])
  | case4 fields frames ih =>
    rw [entryCount] at room
    rw [readFrames, readItems, checkBound_of_lt (by omega)]
    exact toOption_record fun next count => ih next (by omega)
  | case5 fields =>
    rw [readFrames, readItems]
    cases checkBound found.records maxEntries <;> rfl
  | case6 fields original frames ih =>
    rw [entryCount] at room
    rw [readFrames, readItems, checkBound_of_lt (by omega)]
    exact toOption_record fun next count => ih next (by omega)
  | case7 fields frames ih =>
    rw [entryCount] at room
    rw [readFrames, readItems, checkBound_of_lt (by omega)]
    exact toOption_record fun next count => ih next (by omega)
  | case8 fields frames ih =>
    rw [entryCount] at room
    rw [readFrames, readItems]
    exact toOption_record fun next count => ih next (by omega)
  | case9 fields frames ih =>
    rw [entryCount] at room
    rw [readFrames, readItems]
    exact toOption_record fun next count => ih next (by omega)
  | case10 other fields frames =>
    rw [readFrames, readItems]
    · rfl
    all_goals assumption

end

/-! The native parser reads the same items. -/
section
variable {maxEntries : Nat}

theorem records_native {header : Header} {found next : Refyard.StatusParseResult}
    (made : header.native found = some next) : next.records = found.records := by
  cases header with
  | branchOid | branchHead | upstream | other =>
    cases made
    rfl
  | aheadBehind ahead behind =>
    obtain ⟨_, -, second⟩ := Option.bind_eq_some_iff.mp made
    obtain ⟨_, -, rfl⟩ := Option.map_eq_some_iff.mp second
    rfl
  | stash digits =>
    obtain ⟨_, -, rfl⟩ := Option.map_eq_some_iff.mp made
    rfl

theorem toOption_readRecord {reader : Refyard.FrameReader Refyard.StatusRecord}
    {other : FrameReader Fields} (tracks : Tracks reader other Fields.native)
    {fields : Bytes} {frames : List Bytes} {found : Refyard.StatusParseResult}
    (room : found.records.length < maxEntries)
    (ih : ∀ next : Refyard.StatusParseResult, next.records.length = found.records.length + 1 →
      (Refyard.Status.readFrames maxEntries next frames).toOption =
        (readItems frames).toOption.bind fun items => items.foldlM Item.native next) :
    (Refyard.Status.readRecord maxEntries found reader fields >>= fun next =>
      Refyard.Status.readFrames maxEntries next frames).toOption = (do
        let record ← other.on fields
        return Item.record record :: (← readItems frames)).toOption.bind fun items =>
          items.foldlM Item.native found := by
  have admitted : Refyard.Status.checkBound found.records maxEntries = .ok () :=
    if_neg (Nat.not_le.mpr room)
  rw [toOption_items]
  unfold Refyard.Status.readRecord
  rw [admitted]
  change Except.toOption ((reader.on fields >>= fun record => pure (Refyard.Status.pushRecord found record))
    >>= fun next => Refyard.Status.readFrames maxEntries next frames) = _
  rw [bind_assoc, toOption_bind, tracks.on, Option.bind_assoc]
  congr 1
  funext record
  simp only [List.foldlM_cons, Item.native]
  cases record.native with
  | none => cases (readItems frames).toOption <;> rfl
  | some made =>
    exact ih _ (by rw [Refyard.Status.pushRecord, List.length_append, List.length_singleton])

theorem native_readFrames_eq (frames : List Bytes) (found : Refyard.StatusParseResult)
    (room : found.records.length + entryCount frames ≤ maxEntries) :
    (Refyard.Status.readFrames maxEntries found frames).toOption =
      (readItems frames).toOption.bind fun items => items.foldlM Item.native found := by
  induction frames using readItems.induct generalizing found with
  | case1 => rfl
  | case2 frames ih => exact ih found room
  | case3 fields frames ih =>
    rw [Refyard.Status.readFrames, readItems, toOption_items, toOption_bind,
      (tracks_readHeader found).on, Option.bind_assoc]
    congr 1
    funext header
    simp only [List.foldlM_cons, Item.native]
    cases made : header.native found with
    | none => cases (readItems frames).toOption <;> rfl
    | some next => exact ih next (by rwa [records_native made])
  | case4 fields frames ih =>
    rw [entryCount] at room
    rw [Refyard.Status.readFrames, readItems]
    exact toOption_readRecord tracks_parseOrdinary (by omega) fun next count => ih next (by omega)
  | case5 fields =>
    rw [Refyard.Status.readFrames, readItems]
    cases Refyard.Status.checkBound found.records maxEntries <;> rfl
  | case6 fields original frames ih =>
    rw [entryCount] at room
    rw [Refyard.Status.readFrames, readItems]
    exact toOption_readRecord (tracks_parseRename original) (by omega) fun next count =>
      ih next (by omega)
  | case7 fields frames ih =>
    rw [entryCount] at room
    rw [Refyard.Status.readFrames, readItems]
    exact toOption_readRecord tracks_parseUnmerged (by omega) fun next count => ih next (by omega)
  | case8 fields frames ih =>
    rw [entryCount] at room
    rw [Refyard.Status.readFrames, readItems]
    exact toOption_readRecord (tracks_parsePathOnly .untracked) (by omega) fun next count =>
      ih next (by omega)
  | case9 fields frames ih =>
    rw [entryCount] at room
    rw [Refyard.Status.readFrames, readItems]
    exact toOption_readRecord (tracks_parsePathOnly .ignored) (by omega) fun next count =>
      ih next (by omega)
  | case10 other fields frames =>
    rw [Refyard.Status.readFrames, readItems]
    · rfl
    all_goals assumption

end

/-! Both cut the stream at the same bytes. -/

theorem pushFrames_fst (frame bytes : Bytes) : (pushFrames frame bytes).1 = cutFrames frame bytes := by
  induction bytes generalizing frame with
  | nil => rfl
  | cons byte rest ih =>
    rw [pushFrames, cutFrames]
    split
    · rw [ih]
    · exact ih _

theorem pushFrames_snd (frame bytes : Bytes) :
    (pushFrames frame bytes).2 = [] ↔ (frame ++ bytes).getLast? = none ∨ bytes.getLast? = some 0 := by
  induction bytes generalizing frame with
  | nil => simp [pushFrames]
  | cons byte rest ih =>
    rw [pushFrames]
    split
    · rename_i nul
      rw [ih [], List.nil_append, nul]
      cases rest <;> simp
    · rename_i other
      rw [ih (frame ++ [byte])]
      cases rest <;> simp [other]

theorem toOption_splitNulFrames (format : String) :
    (Refyard.splitNulFrames bytes format).toOption = (splitNulFrames bytes format).toOption := by
  have pending := pushFrames_snd [] bytes
  unfold splitNulFrames Refyard.splitNulFrames
  dsimp only
  rw [List.nil_append] at pending
  rw [pushFrames_fst]
  cases last : bytes.getLast? with
  | none =>
    rw [last] at pending
    rw [pending.mpr (.inl rfl), List.getLast?_eq_none_iff.mp last]
    rfl
  | some byte =>
    rw [last] at pending
    by_cases nul : byte = 0
    · rw [pending.mpr (.inr (congrArg some nul))]
      dsimp only
      rw [if_neg (not_not.mpr nul)]
      rfl
    · have some_pending : (pushFrames [] bytes).2 ≠ [] := by
        rw [Ne, pending]
        simp [nul]
      dsimp only
      rw [if_pos nul, if_pos (List.length_pos_of_ne_nil some_pending)]
      rfl

/-! What both make of a text that is a number. -/

theorem digits_of_parseUnsigned (read : parseUnsigned bits text = some value) :
    ∃ digits, (if text.head? = some '+' then text.tail else text) = digits ∧ digits ≠ [] ∧
      (∀ digit ∈ digits, digit.isDigit = true) ∧ decimalValue digits = value ∧ value < 2 ^ bits := by
  unfold parseUnsigned at read
  dsimp only at read
  refine ⟨_, rfl, ?_⟩
  generalize (if text.head? = some '+' then text.tail else text) = digits at read
  split at read
  · cases read
  · rename_i shape
    rw [Bool.or_eq_true, not_or, Bool.not_eq_true', Bool.not_eq_false] at shape
    split at read
    · rename_i fits
      have same := Option.some.inj read
      exact ⟨by simpa using shape.1, List.all_eq_true.mp shape.2, same, same ▸ fits⟩
    · cases read

theorem parseUnsigned_lt (read : parseUnsigned bits text = some value) : value < 2 ^ bits := by
  obtain ⟨_, -, -, -, -, fits⟩ := digits_of_parseUnsigned read
  exact fits

theorem parseInt_of_parseUnsigned (read : parseUnsigned bits text = some value) :
    parseInt text = .of value := by
  obtain ⟨digits, cut, some_digit, digit, rfl, -⟩ := digits_of_parseUnsigned read
  have sign_not_trimmed : isTrimmed '+' = false := by decide
  have whole : digits.takeWhile Char.isDigit = digits := List.takeWhile_eq_self_iff.mpr digit
  unfold parseInt
  by_cases signed : text.head? = some '+'
  · obtain ⟨rest, rfl⟩ : ∃ rest, text = '+' :: rest := by
      cases text with
      | nil => cases signed
      | cons char rest => exact ⟨rest, by rw [Option.some.inj signed]⟩
    rw [if_pos signed] at cut
    rw [List.dropWhile_cons_of_neg (by simp [sign_not_trimmed])]
    dsimp only
    rw [if_pos (Or.inr signed), cut, whole, if_neg some_digit, if_neg (by simp)]
  · rw [if_neg signed] at cut
    subst cut
    obtain ⟨first, rest, rfl⟩ := List.exists_cons_of_ne_nil some_digit
    have first_digit := digit first (by simp)
    have unsigned (sign : Char) (other : sign.isDigit = false) : (first :: rest).head? ≠ some sign := by
      intro same
      rw [Option.some.inj same, other] at first_digit
      cases first_digit
    rw [List.dropWhile_cons_of_neg (by simp [isTrimmed_digit first_digit])]
    dsimp only
    rw [if_neg (not_or.mpr ⟨unsigned '-' (by decide), unsigned '+' (by decide)⟩), whole,
      if_neg some_digit, if_neg (unsigned '-' (by decide))]

theorem of_eq_integer_iff (fits : value < 2 ^ 64) :
    Number.of value = .integer value ↔ Double.round value = value := by
  unfold Number.of
  constructor
  · intro same
    split at same
    · cases same
    · exact Number.integer.inj same
  · intro precise
    have magnitude : Double.roundMagnitude value = value := by
      obtain rfl | positive := Nat.eq_zero_or_pos value
      · exact Double.roundMagnitude_exact (by decide)
      · unfold Double.round at precise
        rw [Int.sign_eq_one_of_pos (by omega), Int.one_mul, Int.natAbs_natCast] at precise
        exact_mod_cast precise
    rw [Int.natAbs_natCast, magnitude, precise, if_neg]
    exact not_le_of_gt (fits.trans (pow_lt_pow_right₀ Nat.one_lt_two (by decide)))

/-! What both make of the fields. -/

theorem decodeMode_eq_iff (some_byte : mode ≠ []) :
    decodeMode mode = Refyard.Status.decodeMode mode ↔ ∀ byte ∈ mode, byte ≤ 0x7f := by
  have zeroes : isZeroes (mode.map byteChar) = mode.all (· == 0x30) := by
    rw [isZeroes, List.all_map, List.isEmpty_map, Bool.eq_iff_iff]
    simp only [Bool.and_eq_true, List.all_eq_true, Function.comp_apply, beq_iff_eq]
    constructor
    · rintro ⟨-, zero⟩ byte member
      have same := congrArg charByte (zero byte member)
      rwa [charByte_byteChar] at same
    · intro zero
      refine ⟨by simpa using some_byte, fun byte member => ?_⟩
      rw [zero byte member]
      rfl
  unfold decodeMode Refyard.Status.decodeMode
  rw [zeroes]
  split
  · rename_i zero
    refine iff_of_true rfl fun byte member => ?_
    rw [beq_iff_eq.mp (List.all_eq_true.mp zero byte member)]
    decide
  · rw [Option.some_inj, asciiText, String.ofList_inj, eq_comm]
    exact Utf8.decode_eq_map_iff

theorem readZeroedOid_eq {oid : String} (some_char : oid.toList ≠ []) :
    readZeroedOid oid = Refyard.Status.readZeroedOid oid := by
  unfold readZeroedOid Refyard.Status.readZeroedOid isZeroes
  rw [List.isEmpty_eq_false_iff.mpr some_char, Bool.not_false, Bool.true_and]

theorem mem_stagesOf {modes : List String} {stage : StatusUnmergedStage} :
    stage ∈ Refyard.Status.stagesOf modes oids ↔
      1 ≤ stage.stage ∧ modes[stage.stage - 1]? = some stage.mode ∧
        oids[stage.stage - 1]? = some stage.oid ∧ stage.mode ≠ "000000" := by
  unfold Refyard.Status.stagesOf
  rw [List.mem_filterMap]
  constructor
  · rintro ⟨⟨⟨mode, oid⟩, index⟩, member, kept⟩
    rw [List.mk_mem_zipIdx_iff_le_and_getElem?_sub, List.getElem?_zip_eq_some] at member
    dsimp only at kept
    split at kept
    · cases kept
    · rename_i there
      cases kept
      exact ⟨member.1, member.2.1, member.2.2, there⟩
  · rintro ⟨counted, modeAt, oidAt, there⟩
    refine ⟨((stage.mode, stage.oid), stage.stage), ?_, if_neg there⟩
    rw [List.mk_mem_zipIdx_iff_le_and_getElem?_sub, List.getElem?_zip_eq_some]
    exact ⟨counted, modeAt, oidAt⟩

theorem ascii_of_isZeroes (zero : isZeroes (mode.map byteChar) = true) :
    ∀ byte ∈ mode, byte ≤ 0x7f := by
  unfold isZeroes at zero
  rw [Bool.and_eq_true, List.all_map, List.all_eq_true] at zero
  intro byte member
  have same := congrArg charByte (beq_iff_eq.mp (zero.2 byte member))
  rw [charByte_byteChar] at same
  rw [same]
  decide

theorem stagesOf_eq_iff {stageModes : List Bytes} (paired : stageModes.length = oids.length)
    (some_byte : ∀ mode ∈ stageModes, mode ≠ []) :
    Refyard.Status.stagesOf (stageModes.map fun mode => (decodeMode mode).getD "000000") oids =
      Refyard.Status.stagesOf
        (stageModes.map fun mode => (Refyard.Status.decodeMode mode).getD "000000") oids ↔
      ∀ mode ∈ stageModes, ∀ byte ∈ mode, byte ≤ 0x7f := by
  constructor
  · intro same mode member
    cases zero : isZeroes (mode.map byteChar) with
    | true => exact ascii_of_isZeroes zero
    | false =>
      obtain ⟨index, inside, at_index⟩ := List.getElem_of_mem member
      have text : decodeMode mode = some (asciiText mode) := by
        rw [decodeMode, zero, if_neg nofun]
      have there : asciiText mode ≠ "000000" := by
        intro zeroes
        rw [← toList_asciiText, zeroes] at zero
        exact absurd zero (by decide)
      obtain ⟨oid, oidAt⟩ : ∃ oid, oids[index]? = some oid :=
        ⟨_, List.getElem?_eq_getElem (paired ▸ inside)⟩
      have stage : (⟨index + 1, asciiText mode, oid⟩ : StatusUnmergedStage) ∈
          Refyard.Status.stagesOf (stageModes.map fun mode => (decodeMode mode).getD "000000") oids := by
        rw [mem_stagesOf]
        refine ⟨by simp, ?_, oidAt, there⟩
        simp [inside, at_index, text]
      rw [same, mem_stagesOf] at stage
      have native := stage.2.1
      simp only [Nat.add_sub_cancel, List.getElem?_map, List.getElem?_eq_getElem inside, at_index,
        Option.map_some, Option.some_inj] at native
      rw [← decodeMode_eq_iff (some_byte mode member), text]
      cases read : Refyard.Status.decodeMode mode with
      | none =>
        rw [read, Option.getD_none] at native
        exact absurd native.symm there
      | some other =>
        rw [read, Option.getD_some] at native
        rw [native]
  · intro ascii
    congr 1
    apply List.map_congr_left
    intro mode member
    rw [(decodeMode_eq_iff (some_byte mode member)).mpr (ascii mode member)]

def ChangedFields.modes (changed : ChangedFields) : List Bytes :=
  [changed.modeHead, changed.modeIndex, changed.modeWorktree]

def Fields.modes : Fields → List Bytes
  | .ordinary changed _ => changed.modes
  | .renamed changed _ _ _ _ => changed.modes
  | .unmerged _ _ _ stageModes modeWorktree _ _ => modeWorktree :: stageModes
  | .pathOnly _ _ => []

structure ChangedFields.Formed (changed : ChangedFields) : Prop where
  modes : ∀ mode ∈ changed.modes, mode ≠ []
  oidHead : changed.oidHead.toList ≠ []
  oidIndex : changed.oidIndex.toList ≠ []

def Fields.Formed : Fields → Prop
  | .ordinary changed _ => changed.Formed
  | .renamed changed _ _ _ _ => changed.Formed
  | .unmerged _ _ _ stageModes modeWorktree oids _ =>
      stageModes.length = oids.length ∧ ∀ mode ∈ modeWorktree :: stageModes, mode ≠ []
  | .pathOnly kind _ => kind = .untracked ∨ kind = .ignored

theorem yields_takeBytes {count : Nat} (some_byte : count ≠ 0) :
    Yields (takeBytes statusFormat count) (fun _ => True) fun bytes => bytes ≠ [] := by
  intro cursor _ bytes next ran
  change takeBytes statusFormat count cursor = .ok (bytes, next) at ran
  unfold takeBytes at ran
  split at ran
  · cases ran
  · rename_i enough
    cases ran
    refine ⟨fun empty => ?_, fun _ _ => trivial⟩
    obtain none_taken | nothing := List.take_eq_nil_iff.mp empty
    · exact some_byte none_taken
    · rw [nothing, List.length_nil] at enough
      omega

theorem yields_takeOid :
    Yields (takeOid statusFormat) (fun _ => True) fun oid => oid.toList ≠ [] := by
  refine Yields.after fun field => ?_
  split
  · rename_i named
    apply Yields.pure
    intro empty
    unfold FrameReader.isObjectName at named
    rw [← String.length_toList, empty] at named
    cases named
  · exact fun _ _ _ _ ran => by cases ran

theorem yields_readChanged : Yields readChanged (fun _ => True) ChangedFields.Formed := by
  have space := Yields.any (expectSpace statusFormat)
  refine space.bind fun _ _ => Yields.after fun _ => space.bind fun _ _ => ?_
  refine Yields.after fun _ => space.bind fun _ _ => ?_
  refine (yields_takeBytes (by decide)).bind fun modeHead head => space.bind fun _ _ => ?_
  refine (yields_takeBytes (by decide)).bind fun modeIndex index => space.bind fun _ _ => ?_
  refine (yields_takeBytes (by decide)).bind fun modeWorktree worktree => space.bind fun _ _ => ?_
  refine yields_takeOid.bind fun oidHead named => space.bind fun _ _ => ?_
  refine yields_takeOid.bind fun oidIndex also => space.bind fun _ _ => Yields.pure ?_
  exact ⟨by simp [ChangedFields.modes, head, index, worktree], named, also⟩

theorem yields_parseOrdinary : Yields parseOrdinary (fun _ => True) Fields.Formed := by
  refine yields_readChanged.bind fun changed formed => Yields.after fun path => ?_
  split
  · exact Yields.throw _
  · exact Yields.pure formed

theorem yields_parseRename : Yields (parseRename originalFrame) (fun _ => True) Fields.Formed := by
  refine yields_readChanged.bind fun changed formed => ?_
  refine Yields.after fun scoreKind => ?_
  refine Yields.after fun scoreText => ?_
  split
  · exact Yields.throw _
  · refine Yields.after fun _ => Yields.after fun path => ?_
    split
    · exact Yields.throw _
    · split
      · exact Yields.throw _
      · exact Yields.pure formed

theorem yields_takeStageMode : Yields takeStageMode (fun _ => True) fun mode => mode ≠ [] :=
  (yields_takeBytes (by decide)).bind fun _ some_byte =>
    Yields.after fun _ => Yields.pure some_byte

theorem yields_parseUnmerged : Yields parseUnmerged (fun _ => True) Fields.Formed := by
  have space := Yields.any (expectSpace statusFormat)
  have oid := Yields.any takeStageOid
  refine space.bind fun _ _ => Yields.after fun _ => space.bind fun _ _ => ?_
  refine Yields.after fun _ => space.bind fun _ _ => ?_
  refine yields_takeStageMode.bind fun base one => yields_takeStageMode.bind fun ours two => ?_
  refine yields_takeStageMode.bind fun theirs three => ?_
  refine (yields_takeBytes (by decide)).bind fun worktree four => space.bind fun _ _ => ?_
  refine oid.bind fun _ _ => oid.bind fun _ _ => oid.bind fun _ _ => ?_
  refine Yields.after fun path => ?_
  split
  · exact Yields.throw _
  · exact Yields.pure ⟨rfl, by simp [one, two, three, four]⟩

theorem yields_parsePathOnly {kind : StatusRecordKind} (either : kind = .untracked ∨ kind = .ignored) :
    Yields (parsePathOnly kind) (fun _ => True) Fields.Formed := by
  refine Yields.after fun _ => Yields.after fun path => ?_
  split
  · exact Yields.throw _
  · exact Yields.pure either

theorem formed_of_readItems {frames : List Bytes} {items : List Item}
    (read : readItems frames = .ok items) : ∀ fields, .record fields ∈ items → fields.Formed := by
  have behind {reader : FrameReader Fields} (yields : Yields reader (fun _ => True) Fields.Formed)
      {bytes : Bytes} {frames : List Bytes} {items : List Item}
      (ih : ∀ items, readItems frames = .ok items → ∀ fields, .record fields ∈ items → fields.Formed)
      (ran : (do
        let record ← reader.on bytes
        return Item.record record :: (← readItems frames)) = Except.ok items) :
      ∀ fields, .record fields ∈ items → fields.Formed := by
    obtain ⟨record, parsed, ran⟩ := bind_eq_ok.mp ran
    obtain ⟨rest, later, same⟩ := bind_eq_ok.mp ran
    cases same
    intro fields member
    obtain same | member := List.mem_cons.mp member
    · cases same
      exact yields.on (fun _ _ => trivial) parsed
    · exact ih rest later fields member
  induction frames using readItems.induct generalizing items with
  | case1 =>
    cases read
    exact fun fields member => absurd member List.not_mem_nil
  | case2 frames ih => exact ih read
  | case3 fields frames ih =>
    obtain ⟨header, -, read⟩ := bind_eq_ok.mp read
    obtain ⟨rest, later, same⟩ := bind_eq_ok.mp read
    cases same
    intro fields member
    obtain same | member := List.mem_cons.mp member
    · cases same
    · exact ih later fields member
  | case4 fields frames ih =>
    exact behind yields_parseOrdinary (fun _ => ih) read
  | case5 fields =>
    cases read
  | case6 fields original frames ih =>
    exact behind (yields_parseRename original) (fun _ => ih) read
  | case7 fields frames ih =>
    exact behind yields_parseUnmerged (fun _ => ih) read
  | case8 fields frames ih =>
    exact behind (yields_parsePathOnly (.inl rfl)) (fun _ => ih) read
  | case9 fields frames ih =>
    exact behind (yields_parsePathOnly (.inr rfl)) (fun _ => ih) read
  | case10 other fields frames =>
    rw [readItems] at read
    · cases read
    all_goals assumption

def shown (record : Refyard.StatusRecord) : StatusRecord :=
  { record with score := record.score.map fun score => .integer score }

theorem of_small (small : value < 2 ^ 53) : Number.of value = .integer value :=
  (of_eq_integer_iff (Nat.lt_trans small (by decide))).mpr (Double.round_exact small)

theorem changedRecord_eq_iff {changed : ChangedFields} (formed : changed.Formed)
    (kind : StatusRecordKind) (path : Bytes) (originalPath : Option Bytes) (score : Option Nat) :
    changedRecord changed kind path originalPath (score.map fun score => .integer score) =
        shown (changed.decoded.record kind path originalPath score) ↔
      ∀ mode ∈ changed.modes, ∀ byte ∈ mode, byte ≤ 0x7f := by
  have read (mode : Bytes) (member : mode ∈ changed.modes) := decodeMode_eq_iff (formed.modes mode member)
  unfold changedRecord shown ChangedFields.decoded Refyard.Status.ChangedFields.record
  rw [readZeroedOid_eq formed.oidHead, readZeroedOid_eq formed.oidIndex]
  simp only [StatusRecord.mk.injEq, true_and, and_true]
  rw [read _ (by simp [ChangedFields.modes]), read _ (by simp [ChangedFields.modes]),
    read _ (by simp [ChangedFields.modes])]
  simp [ChangedFields.modes]

theorem record_eq_iff {fields : Fields} (formed : fields.Formed) {record : Refyard.StatusRecord}
    (made : fields.native = some record) :
    fields.record = shown record ↔ ∀ mode ∈ fields.modes, ∀ byte ∈ mode, byte ≤ 0x7f := by
  cases fields with
  | ordinary changed path =>
    cases made
    exact changedRecord_eq_iff formed .ordinary path none none
  | renamed changed scoreKind scoreText path originalPath =>
    obtain ⟨score, read, rfl⟩ := Option.map_eq_some_iff.mp made
    have number : parseInt scoreText.toList = .integer score := by
      rw [parseInt_of_parseUnsigned read]
      exact of_small (Nat.lt_trans (parseUnsigned_lt read) (by decide))
    rw [Fields.record, number]
    exact changedRecord_eq_iff formed _ path (some originalPath) (some score)
  | unmerged indexStatus worktreeStatus sub stageModes modeWorktree oids path =>
    cases made
    have stages := stagesOf_eq_iff formed.1 fun mode member => formed.2 mode (by simp [member])
    unfold Fields.record shown Fields.modes
    simp only [StatusRecord.mk.injEq, true_and, and_true]
    rw [decodeMode_eq_iff (formed.2 _ (by simp)), stages]
    simp
  | pathOnly kind path =>
    cases made
    refine iff_of_true ?_ (by simp [Fields.modes])
    obtain rfl | rfl := formed <;> rfl

/-! What both make of a whole status. -/

/-- The digits that a status ends up with: those of the last header of either kind. -/
structure Kept where
  aheadBehind : Option (List Char × List Char)
  stash : Option (List Char)

def Kept.start : Kept := ⟨none, none⟩

def Item.keep (kept : Kept) : Item → Kept
  | .header (.aheadBehind ahead behind) => { kept with aheadBehind := some (ahead, behind) }
  | .header (.stash digits) => { kept with stash := some digits }
  | _ => kept

def Kept.digits (kept : Kept) : List (List Char) :=
  (kept.aheadBehind.toList.flatMap fun counts => [counts.1, counts.2]) ++ kept.stash.toList

structure Follows (kept : Kept) (found : StatusParseResult) (native : Refyard.StatusParseResult) :
    Prop where
  branch : found.branch = native.branch
  upstream : found.upstream = native.upstream
  aheadBehind : found.aheadBehind = kept.aheadBehind.map fun counts =>
    (parseInt counts.1, parseInt counts.2)
  counts : native.ahead = kept.aheadBehind.bind (fun counts => parseUnsigned 64 counts.1) ∧
    native.behind = kept.aheadBehind.bind (fun counts => parseUnsigned 64 counts.2)
  stash : found.stashCount = kept.stash.map parseInt
  stashed : native.stashCount = kept.stash.bind (parseUnsigned 64)
  readable : ∀ digits ∈ kept.digits, (parseUnsigned 64 digits).isSome = true

theorem follows_start : Follows .start .start .start :=
  ⟨rfl, rfl, rfl, ⟨rfl, rfl⟩, rfl, rfl, fun _ member => absurd member List.not_mem_nil⟩

theorem Follows.header {found : StatusParseResult} {native next : Refyard.StatusParseResult}
    (follows : Follows kept found native) {header : Header}
    (made : header.native native = some next) :
    Follows (Item.keep kept (.header header)) (header.apply found) next := by
  cases header with
  | branchOid value =>
    cases made
    exact { follows with branch := by simp [Header.apply, follows.branch] }
  | branchHead value =>
    cases made
    exact { follows with branch := by simp [Header.apply, follows.branch] }
  | upstream value =>
    cases made
    exact { follows with upstream := rfl }
  | other =>
    cases made
    exact follows
  | aheadBehind ahead behind =>
    obtain ⟨aheadCount, aheadRead, made⟩ := Option.bind_eq_some_iff.mp made
    obtain ⟨behindCount, behindRead, rfl⟩ := Option.map_eq_some_iff.mp made
    refine { follows with aheadBehind := rfl, counts := ⟨aheadRead.symm, behindRead.symm⟩,
                          readable := ?_ }
    intro digits member
    have before := follows.readable digits
    simp only [Kept.digits, Item.keep, Option.toList_some, List.flatMap_cons, List.flatMap_nil,
      List.append_nil, List.mem_append, List.mem_cons, List.not_mem_nil, or_false] at member before
    obtain (rfl | rfl) | member := member
    · rw [aheadRead, Option.isSome_some]
    · rw [behindRead, Option.isSome_some]
    · exact before (.inr member)
  | stash digits =>
    obtain ⟨count, read, rfl⟩ := Option.map_eq_some_iff.mp made
    refine { follows with stash := rfl, stashed := read.symm, readable := ?_ }
    intro others member
    have before := follows.readable others
    simp only [Kept.digits, Item.keep, Option.toList_some, List.mem_append, List.mem_cons,
      List.not_mem_nil, or_false] at member before
    obtain member | rfl := member
    · exact before (.inl member)
    · rw [read, Option.isSome_some]

theorem Follows.pushRecord {found : StatusParseResult} {native : Refyard.StatusParseResult}
    (follows : Follows kept found native) (fields : Fields) (record : Refyard.StatusRecord) :
    Follows kept (Status.pushRecord found fields) (Refyard.Status.pushRecord native record) :=
  { follows with }

theorem Follows.items {found : StatusParseResult} {native last : Refyard.StatusParseResult}
    (follows : Follows kept found native) {items : List Item}
    (formed : ∀ fields, .record fields ∈ items → fields.Formed)
    (made : items.foldlM Item.native native = some last) :
    Follows (items.foldl Item.keep kept) (items.foldl Item.apply found) last ∧
      ∃ records natives, (items.foldl Item.apply found).records = found.records ++ records ∧
        last.records = native.records ++ natives ∧ records.length = natives.length ∧
        (records = natives.map shown ↔
          ∀ fields, .record fields ∈ items → ∀ mode ∈ fields.modes, ∀ byte ∈ mode, byte ≤ 0x7f) := by
  induction items generalizing kept found native with
  | nil =>
    cases made
    refine ⟨follows, [], [], by simp, by simp, rfl, iff_of_true rfl ?_⟩
    exact fun fields member => absurd member List.not_mem_nil
  | cons item items ih =>
    have formedLater (fields : Fields) (member : .record fields ∈ items) :=
      formed fields (List.mem_cons_of_mem _ member)
    obtain ⟨next, step, later⟩ := Option.bind_eq_some_iff.mp made
    cases item with
    | header header =>
      obtain ⟨still, records, natives, mine, its, counted, same⟩ :=
        ih (follows.header step) formedLater later
      refine ⟨still, records, natives, ?_, ?_, counted, ?_⟩
      · exact mine.trans (congrArg (· ++ records) (records_apply header found))
      · rw [its, records_native step]
      · rw [same]
        simp
    | record fields =>
      obtain ⟨record, read, rfl⟩ := Option.map_eq_some_iff.mp step
      obtain ⟨still, records, natives, mine, its, counted, same⟩ :=
        ih (follows.pushRecord fields record) formedLater later
      have first := record_eq_iff (formed fields (by simp)) read
      refine ⟨still, fields.record :: records, record :: natives, ?_, ?_, by simp [counted], ?_⟩
      · exact mine.trans (List.append_assoc found.records [fields.record] records)
      · exact its.trans (List.append_assoc native.records [record] natives)
      · rw [List.map_cons, List.cons.injEq, first, same]
        simp

def Fields.score : Fields → Option String
  | .renamed _ _ scoreText _ _ => some scoreText
  | _ => none

def Header.digits : Header → List (List Char)
  | .aheadBehind ahead behind => [ahead, behind]
  | .stash digits => [digits]
  | _ => []

def Item.Readable : Item → Prop
  | .header said => ∀ digits ∈ said.digits, (parseUnsigned 64 digits).isSome = true
  | .record fields => ∀ text ∈ fields.score, (parseUnsigned 32 text.toList).isSome = true

theorem isSome_native_iff (item : Item) : (item.native found).isSome = true ↔ item.Readable := by
  cases item with
  | header header =>
    cases header with
    | aheadBehind ahead behind =>
      simp only [Item.native, Header.native, Item.Readable, Header.digits, List.mem_cons,
        List.not_mem_nil, or_false, forall_eq_or_imp, forall_eq]
      cases parseUnsigned 64 ahead <;> cases parseUnsigned 64 behind <;> simp
    | stash digits => simp [Item.native, Header.native, Item.Readable, Header.digits]
    | _ => simp [Item.native, Header.native, Item.Readable, Header.digits]
  | record fields =>
    cases fields with
    | renamed => simp [Item.native, Fields.native, Item.Readable, Fields.score]
    | _ => simp [Item.native, Fields.native, Item.Readable, Fields.score]

theorem isSome_foldlM_iff (items : List Item) (found : Refyard.StatusParseResult) :
    (items.foldlM Item.native found).isSome = true ↔ ∀ item ∈ items, item.Readable := by
  induction items generalizing found with
  | nil => simp
  | cons item items ih =>
    have first := isSome_native_iff found item
    rw [List.foldlM_cons, List.forall_mem_cons, ← first]
    cases item.native found with
    | none => simp
    | some next => simpa using ih next

theorem count_eq_iff {digits : List Char} (readable : (parseUnsigned 64 digits).isSome = true) :
    some (parseInt digits) = (parseUnsigned 64 digits).map (fun count => .integer count) ↔
      ∀ value ∈ parseUnsigned 64 digits, Double.round value = value := by
  obtain ⟨value, read⟩ := Option.isSome_iff_exists.mp readable
  rw [parseInt_of_parseUnsigned read, read, Option.map_some, Option.some_inj,
    of_eq_integer_iff (parseUnsigned_lt read)]
  simp

structure SameStatus (found : StatusParseResult) (native : Refyard.StatusParseResult) : Prop where
  branch : found.branch = native.branch
  upstream : found.upstream = native.upstream
  ahead : found.aheadBehind.map Prod.fst = native.ahead.map fun count => .integer count
  behind : found.aheadBehind.map Prod.snd = native.behind.map fun count => .integer count
  stashCount : found.stashCount = native.stashCount.map fun count => .integer count
  records : found.records = native.records.map shown

theorem Follows.sameCounts_iff {found : StatusParseResult} {native : Refyard.StatusParseResult}
    (follows : Follows kept found native) :
    (found.aheadBehind.map Prod.fst = native.ahead.map (fun count : Nat => Number.integer count) ∧
      found.aheadBehind.map Prod.snd = native.behind.map (fun count : Nat => Number.integer count) ∧
      found.stashCount = native.stashCount.map fun count : Nat => Number.integer count) ↔
      ∀ digits ∈ kept.digits, ∀ value ∈ parseUnsigned 64 digits, Double.round value = value := by
  have readable := follows.readable
  rw [follows.aheadBehind, follows.counts.1, follows.counts.2, follows.stash, follows.stashed]
  unfold Kept.digits at readable ⊢
  obtain ⟨counts, stash⟩ := kept
  rw [← and_assoc, List.forall_mem_append]
  apply and_congr
  · cases counts with
    | none => simp
    | some counts =>
      simp only [Option.map_some, Option.bind_some]
      rw [count_eq_iff (readable counts.1 (by simp)), count_eq_iff (readable counts.2 (by simp))]
      simp
  · cases stash with
    | none => simp
    | some digits =>
      simp only [Option.map_some, Option.bind_some]
      rw [count_eq_iff (readable digits (by simp))]
      simp

def Agree (found : Except GitOutputParseError StatusParseResult)
    (native : Except CoreError Refyard.StatusParseResult) : Prop :=
  match found, native with
  | .ok found, .ok native => SameStatus found native
  | .error _, .error _ => True
  | _, _ => False

theorem agree_iff (found : Except GitOutputParseError StatusParseResult)
    (native : Except CoreError Refyard.StatusParseResult) :
    Agree found native ↔ found.toOption = none ∧ native.toOption = none ∨
      ∃ status other, found.toOption = some status ∧ native.toOption = some other ∧
        SameStatus status other := by
  cases found <;> cases native <;> simp [Agree, Except.toOption]

def readStatus (bytes : Bytes) : Except GitOutputParseError (List Item) := do
  readItems (← splitNulFrames bytes statusFormat)

structure Plain (items : List Item) : Prop where
  modes : ∀ fields, .record fields ∈ items → ∀ mode ∈ fields.modes, ∀ byte ∈ mode, byte ≤ 0x7f
  readable : ∀ item ∈ items, item.Readable
  precise : ∀ digits ∈ (items.foldl Item.keep .start).digits, ∀ value ∈ parseUnsigned 64 digits,
    Double.round value = value

theorem toOption_parseStatus {maxEntries : Nat}
    (room : entryCount (cutFrames [] bytes) ≤ maxEntries) :
    (parseStatus bytes maxEntries).toOption =
        (readStatus bytes).toOption.bind (fun items => some (items.foldl Item.apply .start)) ∧
      (Refyard.parseStatus bytes maxEntries).toOption =
        (readStatus bytes).toOption.bind fun items => items.foldlM Item.native .start := by
  have cut (frames : List Bytes) (split_up : splitNulFrames bytes statusFormat = .ok frames) :
      frames = cutFrames [] bytes := by
    unfold splitNulFrames at split_up
    dsimp only at split_up
    split at split_up
    · cases split_up
    · rw [← pushFrames_fst]
      exact (Except.ok.inj split_up).symm
  unfold parseStatus Refyard.parseStatus readStatus
  rw [toOption_bind, toOption_bind, toOption_bind, toOption_splitNulFrames]
  cases split_up : splitNulFrames bytes statusFormat with
  | error error => exact ⟨rfl, rfl⟩
  | ok frames =>
    have fits := (congrArg entryCount (cut frames split_up)).trans_le room
    exact ⟨readFrames_eq frames .start ((Nat.zero_add _).trans_le fits),
      native_readFrames_eq frames .start ((Nat.zero_add _).trans_le fits)⟩

/-- The two parsers agree on just the streams whose modes, scores and counts are plain. -/
theorem parsers_agree_iff (bytes : Bytes) (maxEntries : Nat)
    (room : entryCount (cutFrames [] bytes) ≤ maxEntries) :
    Agree (parseStatus bytes maxEntries) (Refyard.parseStatus bytes maxEntries) ↔
      ∀ items, readStatus bytes = .ok items → Plain items := by
  obtain ⟨mine, its⟩ := toOption_parseStatus bytes room
  rw [agree_iff, mine, its]
  cases read : readStatus bytes with
  | error error =>
    refine iff_of_true (.inl ⟨rfl, rfl⟩) fun items same => ?_
    cases same
  | ok items =>
    have formed : ∀ fields, .record fields ∈ items → fields.Formed := by
      obtain ⟨frames, -, taken⟩ := bind_eq_ok.mp read
      exact formed_of_readItems taken
    have readable := isSome_foldlM_iff items .start
    cases made : items.foldlM Item.native .start with
    | none =>
      rw [made] at readable
      constructor
      · rintro (⟨same, -⟩ | ⟨status, other, -, same, -⟩)
        · cases same
        · cases made.symm.trans same
      · intro plain
        cases readable.mpr (plain items rfl).readable
    | some last =>
      rw [made] at readable
      obtain ⟨follows, records, natives, mineHas, itHas, -, same⟩ :=
        follows_start.items formed made
      have counts := follows.sameCounts_iff
      have nothing : StatusParseResult.start.records = [] := rfl
      have nor : Refyard.StatusParseResult.start.records = [] := rfl
      rw [nothing, List.nil_append] at mineHas
      rw [nor, List.nil_append] at itHas
      constructor
      · rintro (⟨other, -⟩ | ⟨status, other, found, native, agree⟩) others again
        · cases other
        · cases again
          cases found
          cases made.symm.trans native
          refine ⟨same.mp ?_, readable.mp rfl, counts.mp ⟨agree.ahead, agree.behind, agree.stashCount⟩⟩
          rw [← mineHas, ← itHas]
          exact agree.records
      · intro plain
        obtain ⟨modes, -, precise⟩ := plain items rfl
        obtain ⟨ahead, behind, stashCount⟩ := counts.mpr precise
        refine .inr ⟨_, last, rfl, made, follows.branch, follows.upstream, ahead, behind, stashCount, ?_⟩
        rw [mineHas, itHas]
        exact same.mpr modes

def plainStream : Bytes :=
  asciiBytes "# branch.ab +3 -1" ++ [0] ++ asciiBytes "# stash 2" ++ [0] ++ asciiBytes "? a" ++ [0]

def plainItems : List Item :=
  [.header (.aheadBehind ['3'] ['1']), .header (.stash ['2']), .record (.pathOnly .untracked [0x61])]

theorem plain_plainItems : Plain plainItems where
  modes := by simp [plainItems, Fields.modes]
  readable := by
    simp only [plainItems, List.forall_mem_cons, Item.Readable, Header.digits, Fields.score]
    exact ⟨⟨by decide, by decide, nofun⟩, ⟨by decide, nofun⟩, nofun, nofun⟩
  precise := by
    intro digits member value read
    have small : value < 2 ^ 53 := by
      simp only [plainItems, List.foldl_cons, List.foldl_nil, Item.keep, Kept.digits, Kept.start,
        Option.toList_some, List.flatMap_cons, List.flatMap_nil, List.append_nil, List.mem_append,
        List.mem_cons, List.not_mem_nil, or_false] at member
      obtain (rfl | rfl) | rfl := member
      all_goals
        cases read
        decide
    exact Double.round_exact small

theorem parsers_agree_plainStream :
    Agree (parseStatus plainStream 1) (Refyard.parseStatus plainStream 1) := by
  refine (parsers_agree_iff plainStream 1 (by decide)).mpr fun items read => ?_
  cases read
  exact plain_plainItems

/-- A count without digits is NaN to one and refused by the other. -/
theorem not_parsers_agree : entryCount (cutFrames [] (asciiBytes "# branch.ab + -0" ++ [0])) ≤ 1 ∧
      ¬ Agree (parseStatus (asciiBytes "# branch.ab + -0" ++ [0]) 1)
        (Refyard.parseStatus (asciiBytes "# branch.ab + -0" ++ [0]) 1) := by
  refine ⟨by decide, ?_⟩
  have mine : (parseStatus (asciiBytes "# branch.ab + -0" ++ [0]) 1).toOption =
      some { StatusParseResult.start with aheadBehind := some (.nan, .integer 0) } := by
    decide +kernel
  have its : (Refyard.parseStatus (asciiBytes "# branch.ab + -0" ++ [0]) 1).toOption = none := by
    rfl
  rw [agree_iff, mine, its]
  rintro (⟨same, -⟩ | ⟨_, _, -, same, -⟩) <;> cases same

end Refyard.GitCore.Status
