import Mathlib.Data.List.Basic
import Mathlib.Algebra.Group.Nat.Defs

/-! Byte strings, ASCII text as bytes, and decimal numbers in it. -/
namespace Refyard

abbrev Bytes := List UInt8

def byteChar (byte : UInt8) : Char := Char.ofNat byte.toNat

def charByte (char : Char) : UInt8 := UInt8.ofNat char.toNat

def asciiText (bytes : Bytes) : String := String.ofList (bytes.map byteChar)

def asciiBytes (text : String) : Bytes := text.toList.map charByte

def IsAscii (text : String) : Prop := ∀ char ∈ text.toList, char.toNat < 128

instance (text : String) : Decidable (IsAscii text) :=
  List.decidableBAll (fun char : Char => char.toNat < 128) text.toList

variable {char : Char} {value : Nat} {text : String}

theorem toNat_charByte (ascii : char.toNat < 128) : (charByte char).toNat = char.toNat := by
  unfold charByte
  rw [UInt8.toNat_ofNat']
  omega

theorem byteChar_charByte (ascii : char.toNat < 128) : byteChar (charByte char) = char := by
  unfold byteChar
  rw [toNat_charByte ascii, Char.ofNat_toNat]

theorem toNat_charOfNat (valid : value.isValidChar) : (Char.ofNat value).toNat = value := by
  unfold Char.ofNat
  rw [dif_pos valid]
  rfl

theorem toNat_byteChar (byte : UInt8) : (byteChar byte).toNat = byte.toNat := by
  have below := byte.toNat_lt
  exact toNat_charOfNat (Or.inl (by omega))

@[simp] theorem charByte_byteChar (byte : UInt8) : charByte (byteChar byte) = byte := by
  unfold charByte
  rw [toNat_byteChar, UInt8.ofNat_toNat]

theorem charByte_inj {first second : Char} (ascii : first.toNat < 128)
    (alsoAscii : second.toNat < 128) : charByte first = charByte second ↔ first = second := by
  constructor
  · intro same
    rw [← byteChar_charByte ascii, same, byteChar_charByte alsoAscii]
  · exact congrArg charByte

theorem asciiText_asciiBytes (ascii : IsAscii text) : asciiText (asciiBytes text) = text := by
  have same : (text.toList.map charByte).map byteChar = text.toList := by
    rw [List.map_map]
    refine (List.map_congr_left fun char member => ?_).trans (List.map_id _)
    exact byteChar_charByte (ascii char member)
  unfold asciiText asciiBytes
  rw [same, String.ofList_toList]

@[simp] theorem asciiBytes_asciiText (bytes : Bytes) : asciiBytes (asciiText bytes) = bytes := by
  unfold asciiBytes asciiText
  rw [String.toList_ofList, List.map_map]
  exact (List.map_congr_left fun byte _ => charByte_byteChar byte).trans (List.map_id _)

theorem asciiBytes_ofList (chars : List Char) :
    asciiBytes (String.ofList chars) = chars.map charByte := by
  unfold asciiBytes
  rw [String.toList_ofList]

theorem toList_loop (bytes : ByteArray) (place : Nat) (taken : List UInt8) :
    ByteArray.toList.loop bytes place taken = taken.reverse ++ bytes.data.toList.drop place := by
  induction place, taken using ByteArray.toList.loop.induct bytes with
  | case1 place taken inside ih =>
    have length : place < bytes.data.toList.length := inside
    have byte : bytes.get! place = bytes.data.toList[place] := getElem!_pos bytes.data place inside
    rw [ByteArray.toList.loop, if_pos inside, ih, byte, List.reverse_cons, List.append_assoc,
      List.singleton_append, ← List.drop_eq_getElem_cons length]
  | case2 place taken outside =>
    have length : bytes.data.toList.length ≤ place := Nat.le_of_not_lt outside
    rw [ByteArray.toList.loop, if_neg outside, List.drop_eq_nil_of_le length, List.append_nil]

theorem toList_toUTF8 (text : String) :
    text.toUTF8.toList = text.toList.flatMap String.utf8EncodeChar := by
  rw [← String.ofList_toList (s := text)]
  change ByteArray.toList.loop _ 0 [] = _
  rw [toList_loop, String.toUTF8, String.toByteArray_ofList, List.utf8Encode,
    List.toList_data_toByteArray, String.toList_ofList]
  rfl

@[simp] theorem asciiBytes_append (first second : String) :
    asciiBytes (first ++ second) = asciiBytes first ++ asciiBytes second := by
  simp [asciiBytes]

theorem toList_asciiText (bytes : Bytes) : (asciiText bytes).toList = bytes.map byteChar := by
  simp [asciiText]

/-- No byte of an ASCII text is above `0x7f`. -/
theorem asciiBytes_le (ascii : IsAscii text) : ∀ byte ∈ asciiBytes text, byte ≤ 0x7f := by
  intro byte member
  obtain ⟨char, inside, rfl⟩ := List.mem_map.mp member
  have below := ascii char inside
  rw [UInt8.le_iff_toNat_le, toNat_charByte below]
  exact Nat.le_of_lt_succ below

/-- A character is in an ASCII text exactly if its byte is in the bytes. -/
theorem charByte_mem (ascii : IsAscii text) (small : char.toNat < 128) :
    charByte char ∈ asciiBytes text ↔ char ∈ text.toList := by
  unfold asciiBytes
  rw [List.mem_map]
  constructor
  · rintro ⟨other, member, same⟩
    rwa [(charByte_inj (ascii other member) small).mp same] at member
  · intro member
    exact ⟨char, member, rfl⟩

theorem IsAscii.append {first second : String} (left : IsAscii first) (right : IsAscii second) :
    IsAscii (first ++ second) := by
  intro char member
  rw [String.toList_append, List.mem_append] at member
  exact member.elim (left char) (right char)

/-- Decimal digits of a number, without a sign or leading zeros. -/
def decimalText (value : Nat) : String := toString value

theorem toList_decimalText (value : Nat) : (decimalText value).toList = Nat.toDigits 10 value := by
  simp [decimalText]

theorem isDigit_decimalText (value : Nat) :
    ∀ char ∈ (decimalText value).toList, char.isDigit = true := by
  intro char member
  rw [toList_decimalText] at member
  exact Nat.isDigit_of_mem_toDigits (by decide) (by decide) member

theorem not_mem_decimalText (other : char.isDigit = false) (value : Nat) :
    char ∉ (decimalText value).toList := by
  intro member
  rw [isDigit_decimalText value char member] at other
  contradiction

theorem toNat_of_isDigit (digit : char.isDigit = true) : 48 ≤ char.toNat ∧ char.toNat ≤ 57 := by
  simp only [Char.isDigit, Bool.and_eq_true, decide_eq_true_eq, ge_iff_le, UInt32.le_iff_toNat_le] at digit
  exact digit

theorem isAscii_decimalText (value : Nat) : IsAscii (decimalText value) := by
  intro char member
  have digit := toNat_of_isDigit (isDigit_decimalText value char member)
  omega

theorem decimalText_ne (value : Nat) : (decimalText value).toList ≠ [] := by
  rw [toList_decimalText]
  exact Nat.toDigits_ne_nil

theorem digit_of_mem_decimalText {byte : UInt8} (member : byte ∈ asciiBytes (decimalText value)) :
    (0x30 ≤ byte && byte ≤ 0x39) = true := by
  obtain ⟨char, inside, rfl⟩ := List.mem_map.mp member
  have digit := toNat_of_isDigit (isDigit_decimalText value char inside)
  rw [Bool.and_eq_true, decide_eq_true_eq, decide_eq_true_eq, UInt8.le_iff_toNat_le,
    UInt8.le_iff_toNat_le, toNat_charByte (by omega)]
  exact digit

theorem notMem_decimalBytes {byte : UInt8} (other : (0x30 ≤ byte && byte ≤ 0x39) = false)
    (value : Nat) : byte ∉ asciiBytes (decimalText value) := by
  intro member
  rw [digit_of_mem_decimalText member] at other
  contradiction

theorem decimalBytes_ne (value : Nat) : asciiBytes (decimalText value) ≠ [] := by
  unfold asciiBytes
  simpa using decimalText_ne value

def decimalValue (digits : List Char) : Nat := Nat.ofDigitChars 10 digits 0

@[simp] theorem decimalValue_decimalText (value : Nat) :
    decimalValue (decimalText value).toList = value := by
  unfold decimalValue
  rw [toList_decimalText, Nat.ofDigitChars_ten_toDigits]

/-- An unsigned integer of so many bits, as `str::parse` reads it: a leading `+` is allowed. -/
def parseUnsigned (bits : Nat) (text : List Char) : Option Nat :=
  let digits := if text.head? = some '+' then text.tail else text
  if digits.isEmpty || !digits.all Char.isDigit then none
  else if decimalValue digits < 2 ^ bits then some (decimalValue digits)
  else none

theorem parseUnsigned_decimalText {bits : Nat} (fits : value < 2 ^ bits) :
    parseUnsigned bits (decimalText value).toList = some value := by
  have unsigned : (decimalText value).toList.head? ≠ some '+' := fun head =>
    not_mem_decimalText (by decide) value (List.mem_of_head? head)
  have digits : (decimalText value).toList.all Char.isDigit = true :=
    List.all_eq_true.mpr (isDigit_decimalText value)
  have some_digit := decimalText_ne value
  unfold parseUnsigned
  dsimp only
  rw [if_neg unsigned, digits, decimalValue_decimalText, if_neg (by simpa using some_digit),
    if_pos fits]

end Refyard
