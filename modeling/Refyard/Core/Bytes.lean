import Refyard.Foundation.Ascii

/-! Byte-level scanning for machine formats: what is read is read by position, and
nothing is trimmed, normalised or decoded on the way. -/
namespace Refyard

inductive CoreError where
  | outputIncomplete (format detail : String)
  | outputUnparsable (format detail : String)
  | unsupportedPathEncoding (format detail : String)
  | invalidInput (detail : String)
  deriving DecidableEq

/-- Two lowercase hexadecimal digits, as `{byte:02x}` prints them. -/
def hexByte (byte : UInt8) : String :=
  String.ofList [Nat.digitChar (byte.toNat / 16), Nat.digitChar (byte.toNat % 16)]

def isAsciiHexDigit (byte : UInt8) : Bool :=
  (0x30 ≤ byte && byte ≤ 0x39) || (0x41 ≤ byte && byte ≤ 0x46) || (0x61 ≤ byte && byte ≤ 0x66)

/-- Decodes strictly ASCII bytes. Anything above `0x7f` is an error rather than a guess. -/
def decodeAscii (bytes : Bytes) (format : String) : Except CoreError String :=
  match bytes.findIdx? fun byte => byte > 0x7f with
  | some index =>
      .error (.outputUnparsable format
        s!"expected an ASCII field but found byte 0x{hexByte (bytes.getD index 0)} at {index}")
  | none => .ok (asciiText bytes)

theorem decodeAscii_of_le {bytes : Bytes} (ascii : ∀ byte ∈ bytes, byte ≤ 0x7f)
    (format : String) : decodeAscii bytes format = .ok (asciiText bytes) := by
  have none_above : bytes.findIdx? (fun byte => byte > 0x7f) = none := by
    rw [List.findIdx?_eq_none_iff]
    intro byte member
    simpa using ascii byte member
  unfold decodeAscii
  rw [none_above]

@[simp] theorem decodeAscii_asciiBytes {text : String} (ascii : IsAscii text) (format : String) :
    decodeAscii (asciiBytes text) format = .ok text := by
  rw [decodeAscii_of_le (asciiBytes_le ascii), asciiText_asciiBytes ascii]

variable {byte : UInt8} (oid : ObjectName)

theorem decodeAscii_of_gt {bytes : Bytes} (member : byte ∈ bytes) (above : byte > 0x7f)
    (format : String) :
    ∃ detail, decodeAscii bytes format = .error (.outputUnparsable format detail) := by
  unfold decodeAscii
  cases found : bytes.findIdx? fun byte => byte > 0x7f with
  | some index => exact ⟨_, rfl⟩
  | none =>
    rw [List.findIdx?_eq_none_iff] at found
    exact absurd (found byte member) (by simpa using above)

def isObjectName (bytes : Bytes) : Bool :=
  (bytes.length = 40 || bytes.length = 64) &&
    bytes.all fun byte => (0x30 ≤ byte && byte ≤ 0x39) || (0x61 ≤ byte && byte ≤ 0x66)

abbrev ObjectName := { name : Bytes // isObjectName name = true }

def ObjectName.text (oid : ObjectName) : String := asciiText oid.1

theorem mem_objectName (member : byte ∈ oid.1) :
    ((0x30 ≤ byte && byte ≤ 0x39) || (0x61 ≤ byte && byte ≤ 0x66)) = true := by
  have hex := oid.2
  unfold isObjectName at hex
  rw [Bool.and_eq_true, List.all_eq_true] at hex
  exact hex.2 byte member

theorem notMem_objectName
    (other : ((0x30 ≤ byte && byte ≤ 0x39) || (0x61 ≤ byte && byte ≤ 0x66)) = false) :
    byte ∉ oid.1 := by
  intro member
  rw [mem_objectName oid member] at other
  contradiction

theorem objectName_le : ∀ byte ∈ oid.1, byte ≤ 0x7f := by
  intro byte member
  have shape := mem_objectName oid member
  simp only [Bool.or_eq_true, Bool.and_eq_true, decide_eq_true_eq] at shape
  rcases shape with ⟨-, digit⟩ | ⟨-, letter⟩
  · exact UInt8.le_trans digit (by decide)
  · exact UInt8.le_trans letter (by decide)

theorem decodeAscii_objectName (format : String) : decodeAscii oid.1 format = .ok oid.text :=
  decodeAscii_of_le (objectName_le oid) format

theorem objectName_ne : oid.1 ≠ [] := by
  intro empty
  have hex := oid.2
  rw [empty] at hex
  contradiction

end Refyard
