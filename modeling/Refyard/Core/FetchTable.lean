import Refyard.Core.Remotes
import Refyard.Foundation.Sift

/-! The whole table of a fetch: the refs it named, and every line that is none. -/
namespace Refyard

structure FetchParseResult where
  refs : List FetchRefResult := []
  diagnostics : List String := []

def withoutReturn (line : Bytes) : Bytes :=
  if line.getLast? = some 0x0d then line.dropLast else line

def readFetchLine (result : FetchParseResult) (line : Bytes) : FetchParseResult :=
  let line := withoutReturn line
  if line.isEmpty then result
  else
    match fetchRefOf line with
    | some found => { result with refs := result.refs ++ [found] }
    | none => { result with diagnostics := result.diagnostics ++ [String.ofList (Utf8.decode line)] }

def parseFetchTable (bytes : Bytes) : FetchParseResult :=
  (bytes.splitOn 0x0a).foldl readFetchLine {}

/-! Every line is a ref, a note or nothing. -/

def fetchNoteOf (line : Bytes) : Option String :=
  if line.isEmpty || (fetchRefOf line).isSome then none
  else some (String.ofList (Utf8.decode line))

theorem readFetchLine_eq (result : FetchParseResult) (line : Bytes) : readFetchLine result line =
      { refs := result.refs ++ (fetchRefOf (withoutReturn line)).toList
        diagnostics := result.diagnostics ++ (fetchNoteOf (withoutReturn line)).toList } := by
  unfold readFetchLine fetchNoteOf
  cases withoutReturn line with
  | nil => simp [fetchRefOf]
  | cons byte rest => cases found : fetchRefOf (byte :: rest) <;> simp [found]

theorem foldl_readFetchLine (lines : List Bytes) (result : FetchParseResult) :
    lines.foldl readFetchLine result =
      { refs := result.refs ++ lines.filterMap fun line => fetchRefOf (withoutReturn line)
        diagnostics :=
          result.diagnostics ++ lines.filterMap fun line => fetchNoteOf (withoutReturn line) } := by
  induction lines generalizing result with
  | nil => simp
  | cons line lines ih =>
    rw [List.foldl_cons, ih, readFetchLine_eq, List.filterMap_cons, List.filterMap_cons]
    cases fetchRefOf (withoutReturn line) <;> cases fetchNoteOf (withoutReturn line) <;> simp

/-! The lines that are refs. -/

/-- A flag of one byte, two object names in hexadecimal digits of either case, and a name under
`refs/`. -/
def HostRow (line : Bytes) : Prop :=
  ∃ flag old new name, line = flag :: 0x20 :: (Utf8.encode old ++
      0x20 :: (Utf8.encode new ++ 0x20 :: Utf8.encode name)) ∧
    isOidOrZero old = true ∧ isOidOrZero new = true ∧ "refs/".toList <+: name ∧ ' ' ∉ name

variable {value name : List Char} {char : Char} (lines : List FetchLine) (oid : ObjectName)

theorem space_notMem_oid (oid : isOidOrZero value = true) : (0x20 : UInt8) ∉ Utf8.encode value := by
  intro member
  rw [isOidOrZero, Bool.and_eq_true, List.all_eq_true] at oid
  exact absurd (oid.2 _ member) (by decide)

theorem space_notMem_name (free : ' ' ∉ name) : (0x20 : UInt8) ∉ Utf8.encode name :=
  Utf8.charByte_notMem_encode (show (' ' : Char).toNat < 0x80 by decide) free

theorem splitOn_fields {first second third : Bytes} (one : (0x20 : UInt8) ∉ first)
    (two : (0x20 : UInt8) ∉ second) (three : (0x20 : UInt8) ∉ third) :
    (first ++ 0x20 :: (second ++ 0x20 :: third)).splitOn 0x20 = [first, second, third] := by
  refine Delimited.splitOn_eq_cons.mpr ⟨by simp [Delimited.marked], one, ?_⟩
  exact List.forall_mem_cons.mpr ⟨two, List.forall_mem_singleton.mpr three⟩

theorem fetchRefOf_row (flag : UInt8) {old new : List Char} (oldOid : isOidOrZero old = true)
    (newOid : isOidOrZero new = true) (under : "refs/".toList <+: name) (free : ' ' ∉ name) :
    fetchRefOf (flag :: 0x20 :: (Utf8.encode old ++
        0x20 :: (Utf8.encode new ++ 0x20 :: Utf8.encode name))) =
      some ⟨flag, String.ofList old, String.ofList new, String.ofList name⟩ := by
  have strict (chars : List Char) : (Utf8.decodeStrict (Utf8.encode chars)).getD [] = chars := by
    rw [Utf8.decodeStrict_eq_some.mpr rfl, Option.getD_some]
  simp only [fetchRefOf]
  rw [splitOn_fields (space_notMem_oid oldOid) (space_notMem_oid newOid) (space_notMem_name free)]
  simp only [List.map_cons, List.map_nil, strict]
  rw [oldOid, newOid, decide_eq_true under]
  rfl

theorem oid_ne (oid : isOidOrZero value = true) : value ≠ [] := by
  rintro rfl
  cases oid

theorem space_mem_encode {chars : List Char} (space : ' ' ∈ chars) :
    (0x20 : UInt8) ∈ Utf8.encode chars :=
  List.mem_flatMap.mpr ⟨' ', space, List.mem_singleton.mpr rfl⟩

theorem encode_field {field : Bytes} (some_text : (Utf8.decodeStrict field).getD [] ≠ []) :
    field = Utf8.encode ((Utf8.decodeStrict field).getD []) := by
  cases decoded : Utf8.decodeStrict field with
  | none =>
    rw [decoded] at some_text
    exact absurd rfl some_text
  | some chars => exact Utf8.decodeStrict_eq_some.mp decoded

theorem hostRow_of_fetchRefOf {line : Bytes} {result : FetchRefResult}
    (found : fetchRefOf line = some result) : HostRow line := by
  unfold fetchRefOf at found
  split at found
  · rename_i flag fields
    split at found
    · rename_i old new name texts
      split at found
      · rename_i shape
        rw [Bool.and_eq_true, Bool.and_eq_true, decide_eq_true_eq] at shape
        obtain ⟨⟨oldOid, newOid⟩, under⟩ := shape
        obtain ⟨first, seconds, parts, rfl, two⟩ := List.map_eq_cons_iff.mp texts
        obtain ⟨second, thirds, rfl, rfl, three⟩ := List.map_eq_cons_iff.mp two
        obtain ⟨third, rest, rfl, rfl, none⟩ := List.map_eq_cons_iff.mp three
        obtain rfl := List.map_eq_nil_iff.mp none
        obtain ⟨spelled, -, frees⟩ := Delimited.splitOn_eq_cons.mp parts
        rw [List.forall_mem_cons, List.forall_mem_singleton] at frees
        have old := encode_field (oid_ne oldOid)
        have new := encode_field (oid_ne newOid)
        have name := encode_field fun empty => by
          rw [empty] at under
          exact absurd under (by decide)
        refine ⟨flag, _, _, _, ?_, oldOid, newOid, under, ?_⟩
        · rw [← old, ← new, ← name, spelled]
          simp [Delimited.marked]
        · intro space
          refine frees.2 ?_
          rw [name]
          exact space_mem_encode space
      · cases found
    · cases found
  · cases found

/-! The table as Git writes it. -/

inductive FetchFlag where
  | fastForward | forced | pruned | tag | created | rejected | upToDate

def FetchFlag.byte : FetchFlag → UInt8
  | .fastForward => 0x20
  | .forced => 0x2b
  | .pruned => 0x2d
  | .tag => 0x74
  | .created => 0x2a
  | .rejected => 0x21
  | .upToDate => 0x3d

/-- A name under `refs/` without spaces and control characters. -/
abbrev FetchedName :=
  { name : List Char // "refs/".toList <+: name ∧ name.any isControlOrSpace = false }

structure FetchUpdate where
  flag : FetchFlag
  old : ObjectName
  new : ObjectName
  name : FetchedName

namespace FetchUpdate

def line (update : FetchUpdate) : Bytes :=
  update.flag.byte :: 0x20 :: (update.old.1 ++
    0x20 :: (update.new.1 ++ 0x20 :: Utf8.encode update.name.1))

def result (update : FetchUpdate) : FetchRefResult where
  flag := update.flag.byte
  oldOid := update.old.text
  newOid := update.new.text
  localRef := String.ofList update.name.1

/-- Git moved the ref: it was not where it should be, and Git did not refuse. -/
def CarriedOut (update : FetchUpdate) : Prop :=
  update.flag ≠ .upToDate ∧ update.flag ≠ .rejected

end FetchUpdate

abbrev FetchOther :=
  { line : Bytes // (0x0a : UInt8) ∉ line ∧ ∀ update : FetchUpdate, line ≠ update.line }

abbrev FetchLine := FetchUpdate ⊕ FetchOther

def FetchLine.bytes : FetchLine → Bytes := Sum.elim FetchUpdate.line Subtype.val

def fetchTable (lines : List FetchLine) : Bytes :=
  (lines.map FetchLine.bytes).flatMap fun line => line ++ [0x0a]

theorem notMem_name (name : FetchedName) (control : isControlOrSpace char = true) :
    char ∉ name.1 := by
  intro member
  have plain := name.2.2
  rw [List.any_eq_false] at plain
  exact plain char member control

variable (update : FetchUpdate)

theorem charByte_notMem_line (ascii : char.toNat < 0x80) (control : isControlOrSpace char = true)
    (notFlag : ∀ flag, charByte char ≠ FetchFlag.byte flag)
    (notHex : ((0x30 ≤ charByte char && charByte char ≤ 0x39) ||
      (0x61 ≤ charByte char && charByte char ≤ 0x66)) = false) : charByte char ∉ update.line := by
  have notName := Utf8.charByte_notMem_encode ascii (notMem_name update.name control)
  rw [FetchUpdate.line]
  simp only [List.mem_cons, List.mem_append, not_or]
  exact ⟨notFlag update.flag, notFlag .fastForward, notMem_objectName _ notHex,
    notFlag .fastForward, notMem_objectName _ notHex, notFlag .fastForward, notName⟩

theorem newline_notMem_line : (0x0a : UInt8) ∉ update.line := by
  have notFlag (flag : FetchFlag) : charByte '\n' ≠ flag.byte := by
    cases flag <;> decide
  exact charByte_notMem_line update (by decide) (by decide) notFlag (by decide)

theorem return_notMem_line : (0x0d : UInt8) ∉ update.line := by
  have notFlag (flag : FetchFlag) : charByte '\r' ≠ flag.byte := by
    cases flag <;> decide
  exact charByte_notMem_line update (by decide) (by decide) notFlag (by decide)

theorem newline_notMem_bytes (line : FetchLine) : (0x0a : UInt8) ∉ line.bytes := by
  cases line with
  | inl update => exact newline_notMem_line update
  | inr other => exact other.2.1

theorem splitOn_fetchTable :
    (fetchTable lines).splitOn 0x0a = lines.map FetchLine.bytes ++ [[]] := by
  refine Delimited.splitOn_terminated fun line member => ?_
  obtain ⟨item, -, rfl⟩ := List.mem_map.mp member
  exact newline_notMem_bytes item

theorem withoutReturn_of_ne {line : Bytes} (plain : line.getLast? ≠ some 0x0d) :
    withoutReturn line = line :=
  if_neg plain

theorem withoutReturn_line : withoutReturn update.line = update.line :=
  withoutReturn_of_ne fun last => return_notMem_line update (List.mem_of_getLast? last)

theorem encode_oid : Utf8.encode (oid.1.map byteChar) = oid.1 :=
  Utf8.encode_ascii (objectName_le oid)

theorem isOidOrZero_objectName : isOidOrZero (oid.1.map byteChar) = true := by
  have shape := oid.2
  rw [isObjectName, Bool.and_eq_true, Bool.or_eq_true, decide_eq_true_eq, decide_eq_true_eq]
    at shape
  rw [isOidOrZero, encode_oid, Bool.and_eq_true, Bool.or_eq_true, beq_iff_eq, beq_iff_eq,
    List.all_eq_true]
  refine ⟨shape.1, fun byte member => ?_⟩
  have hex := mem_objectName oid member
  unfold isAsciiHexDigit
  rw [Bool.or_eq_true] at hex
  rw [Bool.or_eq_true, Bool.or_eq_true]
  exact hex.elim (fun digit => .inl (.inl digit)) .inr

theorem fetchRefOf_line : fetchRefOf update.line = some update.result := by
  have row := fetchRefOf_row update.flag.byte (isOidOrZero_objectName update.old)
    (isOidOrZero_objectName update.new) update.name.2.1 (notMem_name update.name (by decide))
  rw [encode_oid, encode_oid] at row
  exact row

theorem fetchNoteOf_line : fetchNoteOf update.line = none := by
  rw [fetchNoteOf, fetchRefOf_line, Option.isSome_some, Bool.or_true, if_pos rfl]

/-- The host keeps a line as it is: it has bytes, no carriage return at its end, and is no row. -/
def KeptByHost (line : Bytes) : Prop :=
  line ≠ [] ∧ line.getLast? ≠ some 0x0d ∧ ¬ HostRow line

theorem keptByHost_iff (line : Bytes) : fetchRefOf (withoutReturn line) = none ∧
        fetchNoteOf (withoutReturn line) = some (String.ofList (Utf8.decode line)) ↔
      KeptByHost line := by
  constructor
  · rintro ⟨noRef, noted⟩
    have plain : line.getLast? ≠ some 0x0d := by
      intro last
      have spelled : line.dropLast ++ [0x0d] = line := List.dropLast_append_getLast? _ last
      rw [withoutReturn, if_pos last] at noted
      unfold fetchNoteOf at noted
      split at noted
      · cases noted
      · have same := String.ofList_inj.mp (Option.some.inj noted)
        rw [← spelled, List.dropLast_concat, Utf8.decode_concat (by decide)] at same
        have counted := congrArg List.length same
        simp at counted
    rw [withoutReturn_of_ne plain] at noRef noted
    refine ⟨?_, plain, ?_⟩
    · rintro rfl
      cases noted
    · rintro ⟨flag, old, new, name, rfl, oldOid, newOid, under, free⟩
      rw [fetchRefOf_row flag oldOid newOid under free] at noRef
      cases noRef
  · rintro ⟨some_bytes, plain, notRow⟩
    rw [withoutReturn_of_ne plain]
    have noRef : fetchRefOf line = none := by
      cases found : fetchRefOf line with
      | none => rfl
      | some result => exact absurd (hostRow_of_fetchRefOf found) notRow
    refine ⟨noRef, ?_⟩
    rw [fetchNoteOf, noRef, List.isEmpty_eq_false_iff.mpr some_bytes]
    rfl

theorem parseFetchTable_eq_iff : parseFetchTable (fetchTable lines) =
        { refs := (Sift.values lines).map FetchUpdate.result
          diagnostics :=
            (Sift.others lines).map fun other => String.ofList (Utf8.decode other.1) } ↔
      ∀ other, Sum.inr other ∈ lines → KeptByHost other.1 := by
  rw [parseFetchTable, splitOn_fetchTable, foldl_readFetchLine, List.filterMap_append,
    List.filterMap_append, FetchParseResult.mk.injEq]
  have noRef : ([[]] : List Bytes).filterMap (fun line => fetchRefOf (withoutReturn line)) = [] :=
    rfl
  have noNote : ([[]] : List Bytes).filterMap (fun line => fetchNoteOf (withoutReturn line)) = [] :=
    rfl
  have sifts : (lines.map FetchLine.bytes).filterMap (fun line => fetchRefOf (withoutReturn line)) =
        (Sift.values lines).map FetchUpdate.result ∧
      (lines.map FetchLine.bytes).filterMap (fun line => fetchNoteOf (withoutReturn line)) =
        (Sift.others lines).map (fun other => String.ofList (Utf8.decode other.1)) ↔ _ :=
    Sift.sifts_iff (fun update => by rw [withoutReturn_line, fetchRefOf_line])
      (fun update => by rw [withoutReturn_line, fetchNoteOf_line]) _ lines
  rw [noRef, noNote, List.append_nil, List.append_nil]
  refine sifts.trans (forall_congr' fun other => ?_)
  rw [keptByHost_iff]

end Refyard
