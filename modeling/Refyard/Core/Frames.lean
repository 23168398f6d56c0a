import Refyard.Core.Bytes
import Refyard.Foundation.Reader

/-! NUL-terminated frames, and the positional reader that takes one frame apart. -/
namespace Refyard

/-- The loop of `split_nul_frames`, with the frame read so far. -/
def cutFrames (frame : Bytes) : Bytes → List Bytes
  | [] => []
  | byte :: rest => if byte = 0 then frame :: cutFrames [] rest else cutFrames (frame ++ [byte]) rest

/-- Splits a NUL-terminated stream into frames. A trailing byte that is no NUL means that
the stream was cut. -/
def splitNulFrames (bytes : Bytes) (format : String) : Except CoreError (List Bytes) :=
  match bytes.getLast? with
  | none => .ok []
  | some last =>
      if last ≠ 0 then .error (.outputIncomplete format "stream does not end with NUL")
      else .ok (cutFrames [] bytes)

abbrev FrameReader (α : Type) := Reader CoreError UInt8 α

namespace FrameReader

def fail {α : Type} (format detail : String) : FrameReader α :=
  throw (.outputUnparsable format detail)

def takeRest : FrameReader Bytes := fun cursor =>
  .ok (cursor.rest, ⟨[], cursor.offset + cursor.rest.length⟩)

def takeBytes (format : String) (length : Nat) : FrameReader Bytes := fun cursor =>
  if cursor.rest.length < length then
    .error (.outputUnparsable format
      s!"record ended after {cursor.offset} bytes, expected {length} more")
  else .ok (cursor.rest.take length, ⟨cursor.rest.drop length, cursor.offset + length⟩)

def takeField (format : String) : FrameReader Bytes := fun cursor =>
  let field := cursor.rest.takeWhile fun byte => byte ≠ 0x20
  if field.isEmpty then
    .error (.outputUnparsable format "expected a field but found a separator")
  else .ok (field, ⟨cursor.rest.drop field.length, cursor.offset + field.length⟩)

def takeAsciiField (format : String) : FrameReader String := do
  let field ← takeField format
  decodeAscii field format

def takeRestAscii (format : String) : FrameReader String := do
  let rest ← takeRest
  decodeAscii rest format

def takeOid (format : String) : FrameReader String := do
  let field ← takeField format
  if isObjectName field then decodeAscii field format
  else fail format "expected a Git object name of 40 or 64 hex characters"

def takeByte (format : String) : FrameReader UInt8 := fun cursor =>
  match cursor.rest with
  | [] => .error (.outputUnparsable format "record ended early")
  | byte :: rest => .ok (byte, ⟨rest, cursor.offset + 1⟩)

def expectSpace (format : String) : FrameReader Unit := do
  let byte ← takeByte format
  if byte = 0x20 then pure () else fail format "expected a space separator"

/-- An unsigned decimal integer that a `u64` holds. -/
def takeNumber (format : String) : FrameReader Nat := do
  let field ← takeField format
  if field.isEmpty || !field.all fun byte => 0x30 ≤ byte && byte ≤ 0x39 then
    fail format "expected a decimal number"
  else do
    let text ← decodeAscii field format
    match parseUnsigned 64 text.toList with
    | some value => pure value
    | none => fail format "number out of range"

end FrameReader

abbrev GitPath := { path : Bytes // path ≠ [] ∧ (0 : UInt8) ∉ path }

def nulFrames (frames : List Bytes) : Bytes := frames.flatMap fun frame => frame ++ [0]

theorem cutFrames_nulFrames {frames : List Bytes} (free : ∀ frame ∈ frames, (0 : UInt8) ∉ frame) :
    cutFrames [] (nulFrames frames) = frames := by
  have cut (front back rest : Bytes) (absent : (0 : UInt8) ∉ back) :
      cutFrames front (back ++ 0 :: rest) = (front ++ back) :: cutFrames [] rest := by
    induction back generalizing front with
    | nil => simp [cutFrames]
    | cons byte back ih =>
      rw [List.mem_cons, not_or] at absent
      rw [List.cons_append, cutFrames, if_neg fun same => absent.1 same.symm, ih _ absent.2]
      simp
  induction frames with
  | nil => rfl
  | cons frame frames ih =>
    unfold nulFrames at ih ⊢
    rw [List.flatMap_cons, List.append_assoc, List.singleton_append,
      cut [] frame _ (free frame (by simp)), ih fun other member => free other (by simp [member])]
    rfl

theorem splitNulFrames_nulFrames {frames : List Bytes}
    (free : ∀ frame ∈ frames, (0 : UInt8) ∉ frame) (format : String) :
    splitNulFrames (nulFrames frames) format = .ok frames := by
  have cut := cutFrames_nulFrames free
  unfold splitNulFrames
  obtain rfl | ⟨front, frame, rfl⟩ := List.eq_nil_or_concat frames
  · rfl
  · have last : (nulFrames (front.concat frame)).getLast? = some 0 := by
      simp [nulFrames]
    rw [last]
    dsimp only
    rw [if_neg (by simp), cut]

namespace FrameReader

def SpaceNext (rest : Bytes) : Prop := ∀ byte ∈ rest.head?, byte = 0x20

variable (format : String)

theorem reads_takeRest (bytes : Bytes) : Reads takeRest Nothing bytes bytes := by
  rintro rest rfl offset
  rw [List.append_nil]
  rfl

theorem reads_takeBytes {bytes : Bytes} {length : Nat} (fits : bytes.length = length) :
    Reads (takeBytes format length) Anything bytes bytes := by
  intro rest _ offset
  subst fits
  have enough : ¬ (bytes ++ rest).length < bytes.length := by simp
  change (if (bytes ++ rest).length < bytes.length then _ else _) = _
  rw [if_neg enough, List.take_left, List.drop_left]

theorem takeWhile_field {field rest : Bytes} (absent : (0x20 : UInt8) ∉ field)
    (followed : SpaceNext rest) :
    (field ++ rest).takeWhile (fun byte => decide (byte ≠ 0x20)) = field := by
  have inside : ∀ byte ∈ field, decide (byte ≠ 0x20) = true := by
    intro byte member
    rw [decide_eq_true_iff]
    exact fun same => absent (same ▸ member)
  have stops : rest.takeWhile (fun byte => decide (byte ≠ 0x20)) = [] := by
    cases rest with
    | nil => rfl
    | cons byte rest =>
      have space := followed byte rfl
      rw [List.takeWhile_cons_of_neg (by simp [space])]
  rw [List.takeWhile_append_of_pos inside, stops, List.append_nil]

theorem reads_takeField {field : Bytes} (absent : (0x20 : UInt8) ∉ field) (some_byte : field ≠ []) :
    Reads (takeField format) SpaceNext field field := by
  intro rest followed offset
  have taken := takeWhile_field absent followed
  change takeField format ⟨field ++ rest, offset⟩ = _
  unfold takeField
  dsimp only
  rw [taken, List.drop_left, if_neg (by simpa using some_byte)]

theorem reads_takeAsciiField {text : String} (ascii : IsAscii text) (absent : ' ' ∉ text.toList)
    (some_char : text.toList ≠ []) :
    Reads (takeAsciiField format) SpaceNext (asciiBytes text) text := by
  have space : (0x20 : UInt8) ∉ asciiBytes text := by
    rwa [show (0x20 : UInt8) = charByte ' ' by decide, charByte_mem ascii (by decide)]
  have field := reads_takeField format space (by simpa [asciiBytes] using some_char)
  exact field.finish (Reads.lift (decodeAscii_asciiBytes ascii format))

theorem reads_takeOid (oid : ObjectName) : Reads (takeOid format) SpaceNext oid.1 oid.text := by
  have field := reads_takeField format (notMem_objectName oid (by decide))
    (objectName_ne oid)
  refine field.finish ?_
  rw [if_pos oid.2]
  exact Reads.lift (decodeAscii_objectName oid format)

theorem reads_takeRestAscii {bytes : Bytes} (ascii : ∀ byte ∈ bytes, byte ≤ 0x7f) :
    Reads (takeRestAscii format) Nothing bytes (asciiText bytes) :=
  (reads_takeRest bytes).finish (Reads.lift (decodeAscii_of_le ascii format))

theorem reads_expectSpace : Reads (expectSpace format) Anything [0x20] () := by
  intro rest _ offset
  rfl

theorem reads_takeNumber {value : Nat} (fits : value < 2 ^ 64) :
    Reads (takeNumber format) SpaceNext (asciiBytes (decimalText value)) value := by
  have space : (0x20 : UInt8) ∉ asciiBytes (decimalText value) :=
    notMem_decimalBytes (by decide) value
  have digits : (asciiBytes (decimalText value)).all
      (fun byte => 0x30 ≤ byte && byte ≤ 0x39) = true :=
    List.all_eq_true.mpr fun byte member => digit_of_mem_decimalText member
  have some_digit := decimalBytes_ne value
  refine (reads_takeField format space some_digit).finish ?_
  rw [digits, if_neg (by simpa using some_digit)]
  refine (Reads.lift (decodeAscii_asciiBytes (isAscii_decimalText value) format)).finish ?_
  rw [parseUnsigned_decimalText fits]
  exact Reads.pure value

end FrameReader

end Refyard
