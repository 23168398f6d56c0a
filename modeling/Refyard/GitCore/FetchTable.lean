import Refyard.Core.FetchTable
import Refyard.Foundation.Utf16

/-! The portable core's reading of a fetch's table, in sixteen-bit units, and what both readings
keep of the lines that are no refs. -/
namespace Refyard.GitCore
open Utf16

/-- `String.fromCodePoint`, which throws above the last code point. -/
def fromCodePoint (point : Nat) : Option (List Nat) :=
  if 0x10ffff < point then none
  else if point < 0x10000 then some [point]
  else some [0xd800 + (point - 0x10000) / 0x400, 0xdc00 + (point - 0x10000) % 0x400]

def joined (units behind : Option (List Nat)) : Option (List Nat) :=
  units.bind fun units => behind.map fun behind => units ++ behind

/-- Continuation bytes are not checked, and a character that is cut short ends the text. -/
def decode : Bytes → Option (List Nat)
  | [] => some []
  | first :: rest =>
      if first.toNat < 0x80 then joined (some [first.toNat]) (decode rest)
      else if first.toNat / 0x20 = 6 then
        match rest with
        | second :: rest =>
            joined (fromCodePoint (first.toNat % 0x20 * 0x40 + second.toNat % 0x40)) (decode rest)
        | [] => some [0xfffd]
      else if first.toNat / 0x10 = 0xe then
        match rest with
        | second :: third :: rest =>
            joined (fromCodePoint ((first.toNat % 0x10 * 0x40 + second.toNat % 0x40) * 0x40 +
              third.toNat % 0x40)) (decode rest)
        | _ => some [0xfffd]
      else if first.toNat / 8 = 0x1e then
        match rest with
        | second :: third :: fourth :: rest =>
            joined (fromCodePoint (((first.toNat % 8 * 0x40 + second.toNat % 0x40) * 0x40 +
              third.toNat % 0x40) * 0x40 + fourth.toNat % 0x40)) (decode rest)
        | _ => some [0xfffd]
      else joined (some [0xfffd]) (decode rest)

def splitLines (bytes : Bytes) : List Bytes :=
  let lines := bytes.splitOn 0x0a
  if lines.getLast? = some [] then lines.dropLast else lines

structure FetchRefResult where
  flag : List Nat
  oldOid : List Nat
  newOid : List Nat
  localRef : List Nat

structure FetchParseResult where
  refs : List FetchRefResult := []
  diagnostics : List (List Nat) := []

def isHexUnit (unit : Nat) : Bool := (0x30 ≤ unit && unit ≤ 0x39) || (0x61 ≤ unit && unit ≤ 0x66)

/-- `/^[0-9a-f]{40}$|^[0-9a-f]{64}$/`. -/
def isOidOrZero (value : List Nat) : Bool :=
  (value.length == 40 || value.length == 64) && value.all isHexUnit

def refsUnits : List Nat := "refs/".toList.map Char.toNat

def fetchRefOf (line : List Nat) : Option FetchRefResult :=
  match line with
  | flag :: 0x20 :: fields =>
      match fields.splitOn 0x20 with
      | [oldOid, newOid, localRef] =>
          if isOidOrZero oldOid && isOidOrZero newOid && refsUnits <+: localRef then
            some { flag := [flag], oldOid, newOid, localRef }
          else none
      | _ => none
  | _ => none

def readFetchLine (result : FetchParseResult) (lineBytes : Bytes) : Option FetchParseResult :=
  (decode lineBytes).map fun line =>
    if line.length = 0 then result
    else
      match fetchRefOf line with
      | some found => { result with refs := result.refs ++ [found] }
      | none => { result with diagnostics := result.diagnostics ++ [line] }

def parseFetchPorcelain (bytes : Bytes) : Option FetchParseResult :=
  (splitLines bytes).foldlM readFetchLine {}

/-! Text that is UTF-8 is decoded as it is. -/

variable (char : Char) {bytes : Bytes} {line : List Nat} {chars : List Char} (oid : ObjectName)
  (lines : List FetchLine)

theorem fromCodePoint_char : fromCodePoint char.toNat = some (units char) := by
  have valid := Utf8.scalar char
  unfold fromCodePoint units Json.utf16
  rw [if_neg (by omega)]
  split <;> rfl

theorem decode_encodeChar (rest : Bytes) :
    decode (String.utf8EncodeChar char ++ rest) = joined (some (units char)) (decode rest) := by
  have point := fromCodePoint_char char
  have ascii (small : char.toNat < 0x80) : units char = [char.toNat] := units_ascii small
  have valid := Utf8.scalar char
  have unfolded : char.val.toNat = char.toNat := rfl
  unfold String.utf8EncodeChar
  dsimp only
  rw [unfolded]
  generalize units char = written at point ascii
  generalize char.toNat = value at valid point ascii
  split_ifs with one two three
  · have byte := Utf8.toNat_ofNat (show value < 256 by omega)
    rw [List.singleton_append, decode.eq_def (_ :: _)]
    dsimp only
    rw [byte, if_pos (by omega), ascii (by omega)]
  · have first := Utf8.toNat_ofNat (show value / 64 % 32 + 0xc0 < 256 by omega)
    have second := Utf8.toNat_ofNat (show value % 64 + 0x80 < 256 by omega)
    rw [List.cons_append, List.singleton_append, decode.eq_def (_ :: _)]
    dsimp only
    rw [first, if_neg (by omega), if_pos (by omega), second,
      show (value / 64 % 32 + 0xc0) % 0x20 * 0x40 + (value % 64 + 0x80) % 0x40 = value by omega,
      point]
  · have first := Utf8.toNat_ofNat (show value / 4096 % 16 + 0xe0 < 256 by omega)
    have second := Utf8.toNat_ofNat (show value / 64 % 64 + 0x80 < 256 by omega)
    have third := Utf8.toNat_ofNat (show value % 64 + 0x80 < 256 by omega)
    rw [List.cons_append, List.cons_append, List.singleton_append, decode.eq_def (_ :: _)]
    dsimp only
    rw [first, if_neg (by omega), if_neg (by omega), if_pos (by omega), second, third,
      show ((value / 4096 % 16 + 0xe0) % 0x10 * 0x40 + (value / 64 % 64 + 0x80) % 0x40) * 0x40 +
        (value % 64 + 0x80) % 0x40 = value by omega, point]
  · have first := Utf8.toNat_ofNat (show value / 262144 % 8 + 0xf0 < 256 by omega)
    have second := Utf8.toNat_ofNat (show value / 4096 % 64 + 0x80 < 256 by omega)
    have third := Utf8.toNat_ofNat (show value / 64 % 64 + 0x80 < 256 by omega)
    have fourth := Utf8.toNat_ofNat (show value % 64 + 0x80 < 256 by omega)
    rw [List.cons_append, List.cons_append, List.cons_append, List.singleton_append,
      decode.eq_def (_ :: _)]
    dsimp only
    rw [first, if_neg (by omega), if_neg (by omega), if_neg (by omega), if_pos (by omega), second,
      third, fourth,
      show (((value / 262144 % 8 + 0xf0) % 8 * 0x40 + (value / 4096 % 64 + 0x80) % 0x40) * 0x40 +
        (value / 64 % 64 + 0x80) % 0x40) * 0x40 + (value % 64 + 0x80) % 0x40 = value by omega,
      point]

theorem decode_encode (chars : List Char) : decode (Utf8.encode chars) = some (encode chars) := by
  induction chars with
  | nil => rfl
  | cons char rest ih => rw [Utf8.encode_cons, decode_encodeChar, ih]; rfl

/-! The lines, decoded and sifted. -/

def noteOf (line : List Nat) : Option (List Nat) :=
  if line.length = 0 ∨ (fetchRefOf line).isSome then none else some line

def rowOf (bytes : Bytes) : Option FetchRefResult := (decode bytes).bind fetchRefOf

def diagnosticOf (bytes : Bytes) : Option (List Nat) := (decode bytes).bind noteOf

theorem readFetchLine_eq (result : FetchParseResult) (decoded : decode bytes = some line) :
    readFetchLine result bytes = some
        { refs := result.refs ++ (rowOf bytes).toList
          diagnostics := result.diagnostics ++ (diagnosticOf bytes).toList } := by
  unfold readFetchLine rowOf diagnosticOf noteOf
  rw [decoded, Option.map_some, Option.bind_some, Option.bind_some]
  cases line with
  | nil => simp [fetchRefOf]
  | cons unit rest => cases fetchRefOf (unit :: rest) <;> simp

theorem foldlM_readFetchLine (lines : List Bytes) (result : FetchParseResult)
    (readable : ∀ bytes ∈ lines, (decode bytes).isSome = true) :
    lines.foldlM readFetchLine result = some
        { refs := result.refs ++ lines.filterMap rowOf
          diagnostics := result.diagnostics ++ lines.filterMap diagnosticOf } := by
  induction lines generalizing result with
  | nil => simp
  | cons bytes lines ih =>
    rw [List.forall_mem_cons] at readable
    obtain ⟨line, decoded⟩ := Option.isSome_iff_exists.mp readable.1
    rw [List.foldlM_cons, readFetchLine_eq result decoded]
    change lines.foldlM readFetchLine _ = _
    rw [ih _ readable.2, List.filterMap_cons, List.filterMap_cons]
    cases rowOf bytes <;> cases diagnosticOf bytes <;> simp

theorem readable_of_foldlM {lines : List Bytes} {result parsed : FetchParseResult}
    (returned : lines.foldlM readFetchLine result = some parsed) :
    ∀ bytes ∈ lines, (decode bytes).isSome = true := by
  induction lines generalizing result with
  | nil => exact fun _ none => absurd none List.not_mem_nil
  | cons bytes lines ih =>
    rw [List.foldlM_cons] at returned
    cases decoded : decode bytes with
    | none =>
      rw [readFetchLine, decoded] at returned
      cases returned
    | some line =>
      rw [readFetchLine_eq result decoded] at returned
      exact List.forall_mem_cons.mpr ⟨by rw [decoded]; rfl, ih returned⟩

/-! The lines that are refs. -/

/-- A flag of one unit, two object names in lower case, and a name under `refs/`. -/
def ReferenceRow (bytes : Bytes) : Prop :=
  ∃ flag old new name, decode bytes =
      some (flag :: 0x20 :: (old ++ 0x20 :: (new ++ 0x20 :: name))) ∧
    isOidOrZero old = true ∧ isOidOrZero new = true ∧ refsUnits <+: name ∧ 0x20 ∉ name

theorem space_notMem_oid {value : List Nat} (oid : isOidOrZero value = true) : 0x20 ∉ value := by
  intro member
  rw [isOidOrZero, Bool.and_eq_true, List.all_eq_true] at oid
  exact absurd (oid.2 _ member) (by decide)

theorem fetchRefOf_eq_some {result : FetchRefResult} : fetchRefOf line = some result ↔
      ∃ flag old new name, line = flag :: 0x20 :: (old ++ 0x20 :: (new ++ 0x20 :: name)) ∧
        (isOidOrZero old = true ∧ isOidOrZero new = true ∧ refsUnits <+: name ∧ 0x20 ∉ name) ∧
        result = ⟨[flag], old, new, name⟩ := by
  constructor
  · intro found
    unfold fetchRefOf at found
    split at found
    · rename_i flag fields
      split at found
      · rename_i old new name parts
        split at found
        · rename_i shape
          rw [Bool.and_eq_true, Bool.and_eq_true, decide_eq_true_eq] at shape
          obtain ⟨spelled, -, frees⟩ := Delimited.splitOn_eq_cons.mp parts
          rw [List.forall_mem_cons, List.forall_mem_singleton] at frees
          refine ⟨flag, old, new, name, by rw [spelled]; simp [Delimited.marked],
            ⟨shape.1.1, shape.1.2, shape.2, frees.2⟩, (Option.some.inj found).symm⟩
        · cases found
      · cases found
    · cases found
  · rintro ⟨flag, old, new, name, rfl, ⟨oldOid, newOid, under, free⟩, rfl⟩
    have parts : (old ++ 0x20 :: (new ++ 0x20 :: name)).splitOn 0x20 = [old, new, name] := by
      refine Delimited.splitOn_eq_cons.mpr ⟨by simp [Delimited.marked], space_notMem_oid oldOid, ?_⟩
      exact List.forall_mem_cons.mpr
        ⟨space_notMem_oid newOid, List.forall_mem_singleton.mpr free⟩
    simp only [fetchRefOf]
    rw [parts]
    dsimp only
    rw [oldOid, newOid, decide_eq_true under]
    rfl

theorem rowOf_eq_none : rowOf bytes = none ↔ ¬ ReferenceRow bytes := by
  rw [rowOf, Option.bind_eq_none_iff]
  constructor
  · rintro none ⟨flag, old, new, name, decoded, shape⟩
    have found := none _ decoded
    rw [fetchRefOf_eq_some.mpr ⟨flag, old, new, name, rfl, shape, rfl⟩] at found
    cases found
  · intro noRow line decoded
    cases found : fetchRefOf line with
    | none => rfl
    | some result =>
      obtain ⟨flag, old, new, name, rfl, shape, -⟩ := fetchRefOf_eq_some.mp found
      exact absurd ⟨flag, old, new, name, decoded, shape⟩ noRow

/-! Git's table. -/

def referenceResult (update : FetchUpdate) : FetchRefResult where
  flag := [update.flag.byte.toNat]
  oldOid := encode update.old.text.toList
  newOid := encode update.new.text.toList
  localRef := encode update.name.1

theorem notMem_encode {char : Char} (ascii : char.toNat < 0x80) (absent : char ∉ chars) :
    char.toNat ∉ encode chars := by
  intro member
  obtain ⟨front, rest, cut⟩ := List.append_of_mem member
  obtain ⟨before, behind, rfl, -⟩ := (encode_eq_append ascii).mp cut
  exact absent (by simp)

theorem encode_ascii (ascii : ∀ char ∈ chars, char.toNat < 0x80) :
    encode chars = chars.map Char.toNat := by
  induction chars with
  | nil => rfl
  | cons char rest ih =>
    rw [List.forall_mem_cons] at ascii
    rw [encode_cons, units_ascii ascii.1, ih ascii.2]
    rfl

theorem encode_text : encode oid.text.toList = oid.1.map UInt8.toNat := by
  rw [ObjectName.text, toList_asciiText, encode_ascii, List.map_map]
  · exact List.map_congr_left fun byte _ => toNat_byteChar byte
  · intro char member
    obtain ⟨byte, inside, rfl⟩ := List.mem_map.mp member
    have low := UInt8.le_iff_toNat_le.mp (objectName_le oid byte inside)
    rw [toNat_byteChar]
    exact Nat.lt_succ_of_le low

theorem isOidOrZero_text : isOidOrZero (encode oid.text.toList) = true := by
  have shape := oid.2
  rw [isObjectName, Bool.and_eq_true, Bool.or_eq_true, decide_eq_true_eq, decide_eq_true_eq]
    at shape
  rw [isOidOrZero, encode_text, Bool.and_eq_true, Bool.or_eq_true, beq_iff_eq, beq_iff_eq,
    List.length_map, List.all_map, List.all_eq_true]
  exact ⟨shape.1, fun byte member => mem_objectName oid member⟩

variable (update : FetchUpdate)

theorem line_eq_encode :
    update.line = Utf8.encode (byteChar update.flag.byte :: ' ' :: (update.old.text.toList ++
      ' ' :: (update.new.text.toList ++ ' ' :: update.name.1))) := by
  have flag : String.utf8EncodeChar (byteChar update.flag.byte) = [update.flag.byte] := by
    cases update.flag <;> rfl
  have oid (name : ObjectName) : Utf8.encode name.text.toList = name.1 := by
    rw [ObjectName.text, toList_asciiText, encode_oid]
  rw [Utf8.encode_cons, flag, Utf8.encode_cons, Utf8.encode_append, oid, Utf8.encode_cons,
    Utf8.encode_append, oid, Utf8.encode_cons]
  rfl

theorem decode_line :
    decode update.line = some (update.flag.byte.toNat :: 0x20 :: (encode update.old.text.toList ++
      0x20 :: (encode update.new.text.toList ++ 0x20 :: encode update.name.1))) := by
  have flag : units (byteChar update.flag.byte) = [update.flag.byte.toNat] := by
    cases update.flag <;> rfl
  rw [line_eq_encode, decode_encode, encode_cons, flag, encode_cons, encode_append, encode_cons,
    encode_append, encode_cons]
  rfl

theorem rowOf_line : rowOf update.line = some (referenceResult update) := by
  obtain ⟨rest, spelled⟩ := update.name.2.1
  have under : refsUnits <+: encode update.name.1 := by
    rw [← spelled, encode_append]
    exact List.prefix_append _ _
  have free : 0x20 ∉ encode update.name.1 :=
    notMem_encode (show (' ' : Char).toNat < 0x80 by decide) (notMem_name update.name (by decide))
  rw [rowOf, decode_line, Option.bind_some]
  exact fetchRefOf_eq_some.mpr ⟨_, _, _, _, rfl,
    ⟨isOidOrZero_text update.old, isOidOrZero_text update.new, under, free⟩, rfl⟩

theorem diagnosticOf_line : diagnosticOf update.line = none := by
  have row := rowOf_line update
  rw [rowOf, decode_line, Option.bind_some] at row
  rw [diagnosticOf, decode_line, Option.bind_some, noteOf, row, if_pos (.inr rfl)]

/-- The portable core keeps a line as the text it is: it decodes it as UTF-8 with replacement,
the line has bytes, and is no row. -/
def KeptByReference (line : Bytes) : Prop :=
  decode line = some (encode (Utf8.decode line)) ∧ line ≠ [] ∧ ¬ ReferenceRow line

theorem keptByReference_iff (line : Bytes) :
    rowOf line = none ∧ diagnosticOf line = some (encode (Utf8.decode line)) ↔
      KeptByReference line := by
  rw [rowOf_eq_none]
  constructor
  · rintro ⟨notRow, noted⟩
    obtain ⟨text, decoded, found⟩ := Option.bind_eq_some_iff.mp noted
    unfold noteOf at found
    split at found
    · cases found
    · rename_i plain
      rw [Option.some.inj found] at decoded plain
      refine ⟨decoded, ?_, notRow⟩
      rintro rfl
      exact plain (.inl rfl)
  · rintro ⟨decoded, some_bytes, notRow⟩
    have noRow := rowOf_eq_none.mpr notRow
    have some_units : (encode (Utf8.decode line)).length ≠ 0 := by
      intro empty
      have nothing := encode_eq_nil.mp (List.length_eq_zero_iff.mp empty)
      exact Utf8.decodeFrom_ne_nil none (.inl some_bytes) nothing
    refine ⟨notRow, ?_⟩
    rw [rowOf, decoded, Option.bind_some] at noRow
    rw [diagnosticOf, decoded, Option.bind_some, noteOf, noRow, if_neg]
    rintro (empty | found)
    · exact some_units empty
    · cases found

theorem splitLines_fetchTable : splitLines (fetchTable lines) = lines.map FetchLine.bytes := by
  rw [splitLines, splitOn_fetchTable, List.getLast?_concat, if_pos rfl, List.dropLast_concat]

theorem parseFetchPorcelain_eq_iff : parseFetchPorcelain (fetchTable lines) = some
          { refs := (Sift.values lines).map referenceResult
            diagnostics := (Sift.others lines).map fun other => encode (Utf8.decode other.1) } ↔
      ∀ other, Sum.inr other ∈ lines → KeptByReference other.1 := by
  have sifts : (lines.map FetchLine.bytes).filterMap rowOf =
        (Sift.values lines).map referenceResult ∧
      (lines.map FetchLine.bytes).filterMap diagnosticOf =
        (Sift.others lines).map (fun other => encode (Utf8.decode other.1)) ↔ _ :=
    Sift.sifts_iff rowOf_line diagnosticOf_line _ lines
  rw [parseFetchPorcelain, splitLines_fetchTable]
  constructor
  · intro returned
    rw [foldlM_readFetchLine _ _ (readable_of_foldlM returned), Option.some_inj,
      FetchParseResult.mk.injEq] at returned
    intro other member
    exact (keptByReference_iff _).mp (sifts.mp returned other member)
  · intro kept
    have readable : ∀ bytes ∈ lines.map FetchLine.bytes, (decode bytes).isSome = true := by
      intro bytes member
      obtain ⟨line, inside, rfl⟩ := List.mem_map.mp member
      cases line with
      | inl update =>
        change (decode update.line).isSome = true
        rw [decode_line]
        rfl
      | inr other =>
        change (decode other.1).isSome = true
        rw [(kept other inside).1]
        rfl
    rw [foldlM_readFetchLine _ _ readable, Option.some_inj, FetchParseResult.mk.injEq]
    exact sifts.mpr fun other member => (keptByReference_iff _).mpr (kept other member)

/-! Both readings. -/

/-- Both hosts read exactly the updates, in order, and keep every other line as its text; and a
ref is said to have moved when Git moved it. -/
structure FetchTableInverted (lines : List FetchLine) : Prop where
  host : parseFetchTable (fetchTable lines) =
    { refs := (Sift.values lines).map FetchUpdate.result
      diagnostics := (Sift.others lines).map fun other => String.ofList (Utf8.decode other.1) }
  reference : parseFetchPorcelain (fetchTable lines) = some
      { refs := (Sift.values lines).map referenceResult
        diagnostics := (Sift.others lines).map fun other => encode (Utf8.decode other.1) }
  moved : ∀ update, Sum.inl update ∈ lines → (update.result.moved = true ↔ update.CarriedOut)

theorem moved_iff : (update.result.moved = true ↔ update.CarriedOut) ↔ update.flag ≠ .rejected := by
  obtain ⟨flag, old, new, name⟩ := update
  cases flag <;> simp [FetchUpdate.result, FetchRefResult.moved, FetchUpdate.CarriedOut,
    FetchFlag.byte]

/-- The table is inverted when no update is a rejected one, and both hosts keep every other
line. -/
theorem fetchTableInverted_iff (lines : List FetchLine) :
    FetchTableInverted lines ↔ (∀ update, Sum.inl update ∈ lines → update.flag ≠ .rejected) ∧
        ∀ other, Sum.inr other ∈ lines → KeptByHost other.1 ∧ KeptByReference other.1 := by
  constructor
  · rintro ⟨host, reference, moved⟩
    have keptHere := (parseFetchTable_eq_iff lines).mp host
    have keptThere := (parseFetchPorcelain_eq_iff lines).mp reference
    exact ⟨fun update member => (moved_iff update).mp (moved update member),
      fun other member => ⟨keptHere other member, keptThere other member⟩⟩
  · rintro ⟨noneRejected, kept⟩
    exact ⟨(parseFetchTable_eq_iff lines).mpr fun other member => (kept other member).1,
      (parseFetchPorcelain_eq_iff lines).mpr fun other member => (kept other member).2,
      fun update member => (moved_iff update).mpr (noneRejected update member)⟩

theorem isObjectName_zeros : isObjectName (List.replicate 40 0x30) = true := by
  decide

theorem mainBranch_fetched : "refs/".toList <+: "refs/heads/main".toList ∧
    "refs/heads/main".toList.any isControlOrSpace = false := by
  decide

def rejectedUpdate : FetchUpdate where
  flag := .rejected
  old := ⟨List.replicate 40 0x30, isObjectName_zeros⟩
  new := ⟨List.replicate 40 0x30, isObjectName_zeros⟩
  name := ⟨"refs/heads/main".toList, mainBranch_fetched⟩

theorem rejected_update_moved : ¬ FetchTableInverted [.inl rejectedUpdate] := by
  intro inverted
  have moved := (inverted.moved rejectedUpdate List.mem_cons_self).mp (by decide)
  exact moved.2 rfl

end Refyard.GitCore
