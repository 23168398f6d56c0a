import Refyard.Core.Bytes
import Refyard.Foundation.Utf8

/-! Path bytes and their printable form. A text never travels back in as a path where it could
be an escape that was made for display. -/
namespace Refyard

def leadLength (byte : UInt8) : Nat :=
  if 0xc0 ≤ byte ∧ byte ≤ 0xdf then 2
  else if 0xe0 ≤ byte ∧ byte ≤ 0xef then 3
  else if 0xf0 ≤ byte ∧ byte ≤ 0xf7 then 4
  else 0

/-- The bytes as a text to show, with so many left of a character that was decoded. -/
def escapeBytesFrom : Nat → Bytes → List Char
  | _, [] => []
  | skip + 1, _ :: rest => escapeBytesFrom skip rest
  | 0, byte :: rest =>
      if byte < 0x80 then Char.ofNat byte.toNat :: escapeBytesFrom 0 rest
      else
        let length := leadLength byte
        if length = 0 ∨ rest.length + 1 < length then
          "\\x".toList ++ (hexByte byte).toList ++ escapeBytesFrom 0 rest
        else
          match Utf8.decodeStrict ((byte :: rest).take length) with
          | some [char] => char :: escapeBytesFrom (length - 1) rest
          | _ => "\\x".toList ++ (hexByte byte).toList ++ escapeBytesFrom 0 rest

def displayText (bytes : Bytes) : String :=
  match Utf8.decodeStrict bytes with
  | some chars => String.ofList chars
  | none => String.ofList (escapeBytesFrom 0 bytes)

structure DisplayPath where
  text : String
  representable : Bool
  deriving DecidableEq

def toDisplayPath (bytes : Bytes) : DisplayPath :=
  match Utf8.decodeStrict bytes with
  | some chars => { text := String.ofList chars, representable := true }
  | none => { text := String.ofList (escapeBytesFrom 0 bytes), representable := false }

def beginsEscapeForm : Bytes → Bool
  | backslash :: letter :: first :: second :: _ =>
      backslash == 0x5c && letter == 0x78 && isAsciiHexDigit first && isAsciiHexDigit second
  | _ => false

def containsEscapeForm : Bytes → Bool
  | [] => false
  | byte :: rest => beginsEscapeForm (byte :: rest) || containsEscapeForm rest

def encodeExecutionPath (text : String) : Option Bytes :=
  if text.toList.contains '\x00' then none
  else if containsEscapeForm (Utf8.encode text.toList) then none
  else some (Utf8.encode text.toList)

def escapedByte (byte : UInt8) : List Char := "\\x".toList ++ (hexByte byte).toList

inductive EscapeStep : Bytes → List Char → Prop
  | ascii {byte : UInt8} {rest : Bytes} (low : byte < 0x80) :
      EscapeStep (byte :: rest) (byteChar byte :: escapeBytesFrom 0 rest)
  | character {char : Char} {rest : Bytes} (high : 0x80 ≤ char.toNat) :
      EscapeStep (String.utf8EncodeChar char ++ rest) (char :: escapeBytesFrom 0 rest)
  | escape {byte : UInt8} {rest : Bytes} (high : 0x80 ≤ byte) :
      EscapeStep (byte :: rest) (escapedByte byte ++ escapeBytesFrom 0 rest)

theorem escapeBytesFrom_skip (skip : Nat) (bytes : Bytes) :
    escapeBytesFrom skip bytes = escapeBytesFrom 0 (bytes.drop skip) := by
  induction skip generalizing bytes with
  | zero => rfl
  | succ skip ih =>
    cases bytes with
    | nil => rfl
    | cons byte rest => exact ih rest

theorem high_of_encoded {char : Char} {byte : UInt8} {rest : Bytes}
    (encoded : String.utf8EncodeChar char = byte :: rest) (high : 0x80 ≤ byte) :
    0x80 ≤ char.toNat := by
  obtain ⟨small, own⟩ | ⟨large, -⟩ := Utf8.encodeChar_cases char
  · rw [own] at encoded
    obtain ⟨rfl, -⟩ := List.cons.inj encoded
    have above := UInt8.le_iff_toNat_le.mp high
    rw [toNat_charByte (by omega)] at above
    exact above
  · exact large

variable (byte : UInt8) {bytes first second : Bytes} {text : List Char}

theorem escapeBytesFrom_step (rest : Bytes) :
    EscapeStep (byte :: rest) (escapeBytesFrom 0 (byte :: rest)) := by
  unfold escapeBytesFrom
  by_cases low : byte < 0x80
  · rw [if_pos low]
    exact .ascii low
  · rw [if_neg low]
    have high : 0x80 ≤ byte := UInt8.not_lt.mp low
    dsimp only
    split
    · exact .escape high
    · rename_i whole
      rw [not_or, Nat.not_lt] at whole
      split
      · rename_i char decoded
        have encoded := Utf8.decodeStrict_eq_some.mp decoded
        rw [Utf8.encode_cons, Utf8.encode_nil, List.append_nil] at encoded
        obtain ⟨count, same⟩ := Nat.exists_eq_succ_of_ne_zero whole.1
        have behind : escapeBytesFrom (leadLength byte - 1) rest =
            escapeBytesFrom 0 ((byte :: rest).drop (leadLength byte)) := by
          rw [escapeBytesFrom_skip, same]
          rfl
        have cut : byte :: rest =
            String.utf8EncodeChar char ++ (byte :: rest).drop (leadLength byte) := by
          rw [← encoded, List.take_append_drop]
        rw [same, List.take_succ_cons] at encoded
        rw [behind]
        generalize (byte :: rest).drop (leadLength byte) = back at cut
        rw [cut]
        exact .character (high_of_encoded encoded.symm high)
      · exact .escape high

/-- A text that holds the escape of a byte from `0x80` on. -/
def SpellsEscape (text : List Char) : Prop :=
  ∃ byte : UInt8, 0x80 ≤ byte ∧ escapedByte byte <:+: text

theorem digitChar_inj : ∀ first < 16, ∀ second < 16,
    Nat.digitChar first = Nat.digitChar second → first = second := by
  decide

theorem toList_hexByte :
    (hexByte byte).toList = [Nat.digitChar (byte.toNat / 16), Nat.digitChar (byte.toNat % 16)] :=
  String.toList_ofList

theorem hexByte_injective {first second : UInt8}
    (same : (hexByte first).toList = (hexByte second).toList) : first = second := by
  simp only [toList_hexByte, List.cons.injEq, and_true] at same
  have high := digitChar_inj _ (by have := first.toNat_lt; omega) _
    (by have := second.toNat_lt; omega) same.1
  have low := digitChar_inj _ (Nat.mod_lt _ (by decide)) _ (Nat.mod_lt _ (by decide)) same.2
  apply UInt8.toNat_inj.mp
  omega

theorem digitChar_plain : ∀ digit < 16,
    (Nat.digitChar digit).toNat < 0x80 ∧ Nat.digitChar digit ≠ '\\' ∧
      Nat.digitChar digit ≠ '\x00' ∧ isAsciiHexDigit (charByte (Nat.digitChar digit)) = true := by
  decide

def escapeTail (byte : UInt8) : List Char := 'x' :: (hexByte byte).toList

theorem escapedByte_eq : escapedByte byte = '\\' :: escapeTail byte := rfl

theorem escapeTail_plain : ∀ char ∈ escapeTail byte,
    char.toNat < 0x80 ∧ char ≠ '\\' ∧ char ≠ '\x00' := by
  intro char member
  unfold escapeTail at member
  rw [toList_hexByte] at member
  have high := digitChar_plain (byte.toNat / 16) (by have := byte.toNat_lt; omega)
  have low := digitChar_plain (byte.toNat % 16) (Nat.mod_lt _ (by decide))
  simp only [List.mem_cons, List.not_mem_nil, or_false] at member
  obtain rfl | rfl | rfl := member
  · decide
  · exact ⟨high.1, high.2.1, high.2.2.1⟩
  · exact ⟨low.1, low.2.1, low.2.2.1⟩

theorem toNat_byteChar_of_low {byte : UInt8} (low : byte < 0x80) : (byteChar byte).toNat < 0x80 := by
  rw [toNat_byteChar]
  exact UInt8.lt_iff_toNat_lt.mp low

/-- A character from `0x80` on: its first byte tells how many there are, and none of the others
could be a first one. -/
theorem encodeChar_lead {char : Char} (high : 0x80 ≤ char.toNat) :
    ∃ first behind, String.utf8EncodeChar char = first :: behind ∧ 0xc0 ≤ first ∧
      leadLength first = behind.length + 1 ∧ behind ≠ [] ∧
        ∀ byte ∈ behind, 0x80 ≤ byte ∧ byte < 0xc0 := by
  have valid := Utf8.scalar char
  have unfolded : char.val.toNat = char.toNat := rfl
  have further (value : Nat) :
      0x80 ≤ UInt8.ofNat (value % 64 + 128) ∧ UInt8.ofNat (value % 64 + 128) < 0xc0 := by
    rw [UInt8.le_iff_toNat_le, UInt8.lt_iff_toNat_lt, Utf8.toNat_ofNat (by omega)]
    exact ⟨Nat.le_add_left _ _, Nat.add_lt_add_right (Nat.mod_lt _ (by decide)) _⟩
  have bounds : (0xc0 : UInt8).toNat = 192 ∧ (0xdf : UInt8).toNat = 223 ∧
      (0xe0 : UInt8).toNat = 224 ∧ (0xef : UInt8).toNat = 239 ∧ (0xf0 : UInt8).toNat = 240 ∧
      (0xf7 : UInt8).toNat = 247 := by decide
  unfold String.utf8EncodeChar leadLength
  dsimp only
  rw [unfolded]
  generalize char.toNat = value at high valid
  split_ifs with one two three
  · omega
  all_goals
    refine ⟨_, _, rfl, ?_, ?_, List.cons_ne_nil _ _, by simp only [List.forall_mem_cons, further,
      true_and, List.not_mem_nil, false_implies, implies_true]⟩
    · rw [UInt8.le_iff_toNat_le, Utf8.toNat_ofNat (by omega)]
      omega
    · simp only [UInt8.le_iff_toNat_le, bounds]
      rw [Utf8.toNat_ofNat (by omega)]
      simp only [List.length_cons, List.length_nil]
      split_ifs <;> omega

theorem escapeBytesFrom_encode (text : List Char) (rest : Bytes) :
    escapeBytesFrom 0 (Utf8.encode text ++ rest) = text ++ escapeBytesFrom 0 rest := by
  induction text with
  | nil => rfl
  | cons char text ih =>
    rw [Utf8.encode_cons, List.append_assoc, List.cons_append, ← ih]
    by_cases small : char.toNat < 0x80
    · have low : charByte char < 0x80 := by
        rw [UInt8.lt_iff_toNat_lt, toNat_charByte small]
        exact small
      rw [Utf8.encodeChar_ascii small, List.singleton_append, escapeBytesFrom, if_pos low,
        toNat_charByte small, Char.ofNat_toNat]
    · obtain ⟨first, behind, encoded, high, length, -⟩ := encodeChar_lead (Nat.not_lt.mp small)
      have whole : (first :: (behind ++ (Utf8.encode text ++ rest))).take (behind.length + 1) =
          Utf8.encode [char] := by
        rw [List.take_succ_cons, List.take_left', Utf8.encode_cons, encoded]
        · simp
        · rfl
      have above : ¬first < 0x80 := UInt8.not_lt.mpr (UInt8.le_trans (by decide) high)
      rw [encoded, List.cons_append, escapeBytesFrom, if_neg above]
      dsimp only
      rw [length, if_neg (by simp), whole, Utf8.decodeStrict_eq_some.mpr rfl]
      dsimp only
      rw [Nat.add_sub_cancel, escapeBytesFrom_skip, List.drop_left]

theorem head_encode {text : List Char} {byte : UInt8} {rest : Bytes}
    (encoded : Utf8.encode text = byte :: rest) : byte < 0x80 ∨ 0xc0 ≤ byte := by
  cases text with
  | nil => cases encoded
  | cons char text =>
    rw [Utf8.encode_cons] at encoded
    by_cases small : char.toNat < 0x80
    · rw [Utf8.encodeChar_ascii small] at encoded
      obtain ⟨rfl, -⟩ := List.cons.inj encoded
      exact .inl (by rw [UInt8.lt_iff_toNat_lt, toNat_charByte small]; exact small)
    · obtain ⟨first, behind, own, high, -⟩ := encodeChar_lead (Nat.not_lt.mp small)
      rw [own] at encoded
      obtain ⟨rfl, -⟩ := List.cons.inj encoded
      exact .inr high

/-- No character begins at a byte from `0x80` on with a text behind it. -/
theorem escapeBytesFrom_stray {byte : UInt8} (high : 0x80 ≤ byte) (text : List Char) :
    escapeBytesFrom 0 (byte :: Utf8.encode text) = escapedByte byte ++ text := by
  have step := escapeBytesFrom_step byte (Utf8.encode text)
  generalize shown : escapeBytesFrom 0 (byte :: Utf8.encode text) = other at step
  generalize whole : byte :: Utf8.encode text = bytes at step
  cases step with
  | @ascii byte' rest low =>
    obtain ⟨rfl, -⟩ := List.cons.inj whole
    exact absurd low (UInt8.not_lt.mpr high)
  | @character char rest big =>
    obtain ⟨first, behind, own, -, -, further, each⟩ := encodeChar_lead big
    rw [own, List.cons_append] at whole
    obtain ⟨next, behind, rfl⟩ := List.exists_cons_of_ne_nil further
    have ⟨above, below⟩ := each next List.mem_cons_self
    obtain low | far := head_encode (List.cons.inj whole).2
    · exact absurd low (UInt8.not_lt.mpr above)
    · exact absurd below (UInt8.not_lt.mpr far)
  | @escape byte' rest high =>
    obtain ⟨rfl, rfl⟩ := List.cons.inj whole
    have all := escapeBytesFrom_encode text []
    rw [List.append_nil] at all
    rw [all]
    exact congrArg (escapedByte byte ++ ·) (List.append_nil text)

theorem stray_ne {byte : UInt8} (high : 0x80 ≤ byte) (other : UInt8) (front text : List Char)
    (rest back : Bytes) : Utf8.encode front ++ byte :: rest ≠
      Utf8.encode (front ++ (escapedByte other ++ text)) ++ back := by
  intro same
  rw [Utf8.encode_append, List.append_assoc] at same
  have first := (List.cons.inj (List.append_cancel_left same)).1
  rw [first] at high
  exact absurd high (by decide)

theorem toDisplayPath_stray {byte : UInt8} (high : 0x80 ≤ byte) (front back : List Char) :
    toDisplayPath (Utf8.encode front ++ byte :: Utf8.encode back) =
      ⟨String.ofList (front ++ (escapedByte byte ++ back)), false⟩ := by
  have shown := (escapeBytesFrom_encode front _).trans
    (congrArg (front ++ ·) (escapeBytesFrom_stray high back))
  unfold toDisplayPath
  cases decoded : Utf8.decodeStrict (Utf8.encode front ++ byte :: Utf8.encode back) with
  | none => rw [shown]
  | some chars =>
    have whole := Utf8.decodeStrict_eq_some.mp decoded
    have all := escapeBytesFrom_encode chars []
    rw [List.append_nil, ← whole, shown, escapeBytesFrom, List.append_nil] at all
    rw [← all, ← List.append_nil (Utf8.encode (front ++ _))] at whole
    exact absurd whole (stray_ne high byte front back _ _)

/-- Bytes are valid, or there is a first one that is escaped. -/
theorem exists_stray (bytes : Bytes) : bytes = Utf8.encode (escapeBytesFrom 0 bytes) ∨
    ∃ front byte rest, 0x80 ≤ byte ∧ bytes = Utf8.encode front ++ byte :: rest ∧
      escapeBytesFrom 0 bytes = front ++ (escapedByte byte ++ escapeBytesFrom 0 rest) := by
  induction size : bytes.length using Nat.strongRecOn generalizing bytes with
  | ind count ih =>
    cases bytes with
    | nil => exact .inl rfl
    | cons byte rest =>
      have step := escapeBytesFrom_step byte rest
      generalize byte :: rest = bytes at step size ⊢
      generalize escapeBytesFrom 0 bytes = text at step ⊢
      have behind : ∀ {char : Char} {rest : Bytes}, bytes = String.utf8EncodeChar char ++ rest →
          text = char :: escapeBytesFrom 0 rest → bytes = Utf8.encode text ∨
            ∃ front byte rest, 0x80 ≤ byte ∧ bytes = Utf8.encode front ++ byte :: rest ∧
              text = front ++ (escapedByte byte ++ escapeBytesFrom 0 rest) := by
        intro char rest parts begins
        have shorter : rest.length < count := by
          have := List.length_pos_of_ne_nil (Utf8.encodeChar_ne char)
          rw [parts, List.length_append] at size
          omega
        rw [parts, begins]
        obtain whole | ⟨front, byte, further, high, cut, shown⟩ := ih rest.length shorter rest rfl
        · exact .inl (congrArg (String.utf8EncodeChar char ++ ·) whole)
        · refine .inr ⟨char :: front, byte, further, high, ?_, congrArg (char :: ·) shown⟩
          rw [cut, Utf8.encode_cons, List.append_assoc]
      cases step with
      | @ascii byte rest low =>
        refine behind ?_ rfl
        rw [Utf8.encodeChar_ascii (toNat_byteChar_of_low low), charByte_byteChar]
        rfl
      | @character char rest high => exact behind rfl rfl
      | @escape byte rest high => exact .inr ⟨[], byte, rest, high, rfl, rfl⟩

/-! Escapes do not overlap. -/

theorem escapedByte_append {byte other : UInt8} {front back behind : List Char}
    (same : escapedByte byte ++ back = front ++ (escapedByte other ++ behind)) :
    front = [] ∨ ∃ between, front = escapedByte byte ++ between ∧
      back = between ++ (escapedByte other ++ behind) := by
  obtain ⟨between, parts, rest⟩ | ⟨cut, parts, rest⟩ := List.append_eq_append_iff.mp same
  · exact .inr ⟨between, parts, rest⟩
  · cases front with
    | nil => exact .inl rfl
    | cons char front =>
      cases cut with
      | nil =>
        rw [List.append_nil] at parts
        exact .inr ⟨[], by rw [parts, List.append_nil], rest.symm⟩
      | cons first cut =>
        have tail : escapeTail byte = front ++ first :: cut :=
          (List.cons.inj ((escapedByte_eq byte).symm.trans parts)).2
        have inside : first ∈ escapeTail byte :=
          tail ▸ List.mem_append_right _ List.mem_cons_self
        exact absurd (List.cons.inj rest).1.symm (escapeTail_plain byte first inside).2.1

theorem escapedByte_part {byte other : UInt8} {front back before behind : List Char}
    (plain : ¬SpellsEscape front) (alsoPlain : ¬SpellsEscape back) (high : 0x80 ≤ other)
    (same : front ++ (escapedByte byte ++ back) = before ++ (escapedByte other ++ behind)) :
    front = before ∧ byte = other ∧ back = behind := by
  have equal : ∀ {back behind : List Char},
      escapedByte byte ++ back = escapedByte other ++ behind → byte = other ∧ back = behind := by
    intro back behind same
    obtain ⟨digits, later⟩ := List.append_inj same (by simp [escapedByte, toList_hexByte])
    exact ⟨hexByte_injective (List.append_cancel_left digits), later⟩
  obtain ⟨between, rfl, rest⟩ | ⟨between, rfl, rest⟩ := List.append_eq_append_iff.mp same
  · obtain rfl | ⟨further, -, rfl⟩ := escapedByte_append rest
    · exact ⟨(List.append_nil _).symm, equal rest⟩
    · exact absurd ⟨other, high, further, behind, List.append_assoc _ _ _⟩ alsoPlain
  · obtain rfl | ⟨further, rfl, -⟩ := escapedByte_append rest
    · exact ⟨List.append_nil _, equal rest.symm⟩
    · exact absurd ⟨other, high, before, further, List.append_assoc _ _ _⟩ plain

theorem nul_notMem_escapeBytesFrom (free : (0 : UInt8) ∉ bytes) :
    '\x00' ∉ escapeBytesFrom 0 bytes := by
  induction size : bytes.length using Nat.strongRecOn generalizing bytes with
  | ind count ih =>
    obtain whole | ⟨front, byte, rest, high, rfl, shown⟩ := exists_stray bytes
    · rw [whole] at free
      exact Utf8.nul_notMem_of_encode free
    · rw [List.mem_append, List.mem_cons, not_or, not_or] at free
      have later := ih rest.length (by rw [List.length_append, List.length_cons] at size; omega)
        free.2.2 rfl
      have clean : '\x00' ∉ escapedByte byte := by
        rw [escapedByte_eq, List.mem_cons, not_or]
        exact ⟨by decide, fun member => (escapeTail_plain byte _ member).2.2 rfl⟩
      rw [shown, List.mem_append, List.mem_append, not_or, not_or]
      exact ⟨Utf8.nul_notMem_of_encode free.1, clean, later⟩

/-- A path that is valid UTF-8 but for one byte, with no text beside it that reads like an escape. -/
def OneStray (path : Bytes) : Prop :=
  ∃ front byte back, 0x80 ≤ byte ∧ path = Utf8.encode front ++ byte :: Utf8.encode back ∧
    ¬SpellsEscape front ∧ ¬SpellsEscape back

theorem OneStray.injective (stray : OneStray first)
    (same : toDisplayPath first = toDisplayPath second) : first = second := by
  obtain ⟨front, byte, back, high, rfl, plain, alsoPlain⟩ := stray
  rw [toDisplayPath_stray high] at same
  unfold toDisplayPath at same
  cases decoded : Utf8.decodeStrict second with
  | some chars =>
    rw [decoded] at same
    cases (DisplayPath.mk.injEq .. ▸ same).2
  | none =>
    rw [decoded, DisplayPath.mk.injEq, String.ofList_inj] at same
    obtain whole | ⟨before, other, rest, alsoHigh, rfl, shown⟩ := exists_stray second
    · rw [Utf8.decodeStrict_eq_some.mpr whole] at decoded
      cases decoded
    · obtain ⟨rfl, rfl, behind⟩ := escapedByte_part plain alsoPlain alsoHigh (same.1.trans shown)
      obtain whole | ⟨more, last, further, lastHigh, -, spells⟩ := exists_stray rest
      · rw [whole, behind]
      · rw [behind, spells] at alsoPlain
        exact absurd ⟨last, lastHigh, more, _, List.append_assoc _ _ _⟩ alsoPlain

theorem oneStray_of_injective (free : (0 : UInt8) ∉ bytes)
    (invalid : (toDisplayPath bytes).representable = false)
    (one : ∀ other, (0 : UInt8) ∉ other → toDisplayPath bytes = toDisplayPath other → bytes = other) :
    OneStray bytes := by
  unfold toDisplayPath at invalid one
  cases decoded : Utf8.decodeStrict bytes with
  | some chars =>
    rw [decoded] at invalid
    cases invalid
  | none =>
    rw [decoded] at one
    obtain whole | ⟨front, byte, rest, high, cut, shown⟩ := exists_stray bytes
    · rw [Utf8.decodeStrict_eq_some.mpr whole] at decoded
      cases decoded
    · -- whatever escape of the text is taken for the byte, the path is the one shown so
      have only : ∀ before other behind, 0x80 ≤ other →
          escapeBytesFrom 0 bytes = before ++ (escapedByte other ++ behind) →
            bytes = Utf8.encode before ++ other :: Utf8.encode behind := by
        intro before other behind alsoHigh parts
        refine one _ ?_ ?_
        · have clean := nul_notMem_escapeBytesFrom free
          rw [parts, List.mem_append, List.mem_append, not_or, not_or] at clean
          rw [List.mem_append, List.mem_cons, not_or, not_or]
          have absent : ∀ text, '\x00' ∉ text → charByte '\x00' ∉ Utf8.encode text :=
            fun text => Utf8.charByte_notMem_encode (by decide)
          refine ⟨absent before clean.1, ?_, absent behind clean.2.2⟩
          rintro rfl
          exact absurd alsoHigh (by decide)
        · exact (parts ▸ toDisplayPath_stray alsoHigh before behind).symm
      have whole := only front byte _ high shown
      refine ⟨front, byte, _, high, whole, ?_, ?_⟩
      · rintro ⟨other, alsoHigh, before, behind, rfl⟩
        have again := only before other (behind ++ (escapedByte byte ++ escapeBytesFrom 0 rest))
          alsoHigh (shown.trans (by rw [List.append_assoc, List.append_assoc]))
        rw [List.append_assoc] at whole
        exact stray_ne alsoHigh other before behind _ _ (again.symm.trans whole)
      · rintro ⟨other, alsoHigh, before, behind, spelled⟩
        have again := only (front ++ (escapedByte byte ++ before)) other behind alsoHigh
          (shown.trans (by rw [← spelled]; simp only [List.append_assoc]))
        exact stray_ne high byte front before _ _ (whole.symm.trans again)

/-! What is refused on the way back. -/

theorem containsEscapeForm_append (contains : containsEscapeForm bytes = true) (front : Bytes) :
    containsEscapeForm (front ++ bytes) = true := by
  induction front with
  | nil => exact contains
  | cons byte front ih =>
    rw [List.cons_append, containsEscapeForm, ih, Bool.or_true]

theorem containsEscapeForm_escapedByte (rest : List Char) :
    containsEscapeForm (Utf8.encode (escapedByte byte ++ rest)) = true := by
  have high := digitChar_plain (byte.toNat / 16) (by have := byte.toNat_lt; omega)
  have low := digitChar_plain (byte.toNat % 16) (Nat.mod_lt _ (by decide))
  have ascii : ∀ char ∈ escapedByte byte, char.toNat < 0x80 := by
    intro char member
    obtain rfl | behind := List.mem_cons.mp member
    · decide
    · exact (escapeTail_plain byte char behind).1
  have form : beginsEscapeForm (Utf8.encode (escapedByte byte ++ rest)) = true := by
    rw [Utf8.encode_ascii_append ascii, escapedByte_eq, escapeTail, toList_hexByte]
    change (charByte '\\' == 0x5c && charByte 'x' == 0x78 &&
      isAsciiHexDigit (charByte (Nat.digitChar (byte.toNat / 16))) &&
      isAsciiHexDigit (charByte (Nat.digitChar (byte.toNat % 16)))) = true
    rw [high.2.2.2, low.2.2.2]
    rfl
  generalize Utf8.encode (escapedByte byte ++ rest) = bytes at form ⊢
  cases bytes with
  | nil => exact form
  | cons first behind => rw [containsEscapeForm, form, Bool.true_or]

theorem encodeExecutionPath_unrepresentable (invalid : (toDisplayPath bytes).representable = false) :
    encodeExecutionPath (toDisplayPath bytes).text = none := by
  unfold toDisplayPath at invalid ⊢
  cases decoded : Utf8.decodeStrict bytes with
  | some chars =>
    rw [decoded] at invalid
    cases invalid
  | none =>
    have escaped : containsEscapeForm (Utf8.encode (escapeBytesFrom 0 bytes)) = true := by
      obtain whole | ⟨front, byte, rest, -, -, shown⟩ := exists_stray bytes
      · rw [Utf8.decodeStrict_eq_some.mpr whole] at decoded
        cases decoded
      · rw [shown, Utf8.encode_append]
        exact containsEscapeForm_append (containsEscapeForm_escapedByte byte _) _
    unfold encodeExecutionPath
    rw [String.toList_ofList, if_pos escaped, ite_self]

theorem encodeExecutionPath_representable (free : (0 : UInt8) ∉ bytes)
    (valid : (toDisplayPath bytes).representable = true) :
    encodeExecutionPath (toDisplayPath bytes).text =
      if containsEscapeForm bytes then none else some bytes := by
  unfold toDisplayPath at valid ⊢
  cases decoded : Utf8.decodeStrict bytes with
  | none =>
    rw [decoded] at valid
    cases valid
  | some chars =>
    obtain rfl := Utf8.decodeStrict_eq_some.mp decoded
    unfold encodeExecutionPath
    rw [String.toList_ofList, if_neg (by simpa using Utf8.nul_notMem_of_encode free)]

theorem representable_iff :
    (toDisplayPath bytes).representable = true ↔ ∃ text, bytes = Utf8.encode text := by
  unfold toDisplayPath
  simp only [← Utf8.decodeStrict_eq_some]
  cases Utf8.decodeStrict bytes <;> simp

theorem toDisplayPath_encode (text : List Char) :
    toDisplayPath (Utf8.encode text) = ⟨String.ofList text, true⟩ := by
  unfold toDisplayPath
  rw [Utf8.decodeStrict_eq_some.mpr rfl]

/-- A path's display is its own, and gives the path back or is refused. -/
structure FaithfulDisplay (path : Bytes) : Prop where
  one : ∀ other, (0 : UInt8) ∉ other → toDisplayPath path = toDisplayPath other → path = other
  back : (toDisplayPath path).representable = true →
    encodeExecutionPath (toDisplayPath path).text = some path
  refused : (toDisplayPath path).representable = false →
    encodeExecutionPath (toDisplayPath path).text = none

/-- A display is faithful exactly where the path is valid UTF-8 without the escape form, or valid
but for one byte and with no text that reads like another's escape. -/
theorem faithfulDisplay_iff {path : Bytes} (free : (0 : UInt8) ∉ path) : FaithfulDisplay path ↔
    (∃ text, path = Utf8.encode text ∧ containsEscapeForm path = false) ∨ OneStray path := by
  have back := encodeExecutionPath_representable free
  by_cases valid : (toDisplayPath path).representable = true
  · obtain ⟨text, whole⟩ := representable_iff.mp valid
    constructor
    · intro faithful
      refine .inl ⟨text, whole, ?_⟩
      have same := (back valid).symm.trans (faithful.back valid)
      split at same
      · cases same
      · rename_i plain
        exact Bool.not_eq_true _ ▸ plain
    · rintro (⟨-, -, plain⟩ | ⟨front, byte, rest, high, rfl, -⟩)
      · refine ⟨fun other _ same => ?_, fun _ => ?_, fun invalid => absurd valid (by simp [invalid])⟩
        · obtain ⟨also, rfl⟩ := representable_iff.mp (same ▸ valid)
          rw [whole, toDisplayPath_encode, toDisplayPath_encode, DisplayPath.mk.injEq,
            String.ofList_inj] at same
          rw [whole, same.1]
        · rw [back valid, if_neg (by simp [plain])]
      · rw [toDisplayPath_stray high] at valid
        cases valid
  · have invalid : (toDisplayPath path).representable = false := Bool.not_eq_true _ ▸ valid
    constructor
    · intro faithful
      exact .inr (oneStray_of_injective free invalid faithful.one)
    · rintro (⟨text, whole, -⟩ | stray)
      · exact absurd (representable_iff.mpr ⟨text, whole⟩) valid
      · exact ⟨fun other _ => stray.injective, fun holds => absurd holds valid,
          encodeExecutionPath_unrepresentable⟩

/-- A name in Latin-1, and another in UTF-8. -/
theorem faithfulDisplay_cafe :
    FaithfulDisplay [0x63, 0x61, 0x66, 0xe9] ∧ FaithfulDisplay [0x63, 0x61, 0x66, 0xc3, 0xa9] := by
  constructor
  · have plain : ∀ text : List Char, text.length < 4 → ¬SpellsEscape text := by
      rintro text short ⟨byte, -, part⟩
      have long := part.length_le
      rw [escapedByte_eq, escapeTail, toList_hexByte] at long
      exact absurd long (Nat.not_le.mpr short)
    exact (faithfulDisplay_iff (by decide)).mpr (.inr ⟨['c', 'a', 'f'], 0xe9, [], by decide, by decide,
      plain _ (by decide), plain _ (by decide)⟩)
  · exact (faithfulDisplay_iff (by decide)).mpr (.inl ⟨['c', 'a', 'f', 'é'], by decide, by decide⟩)

def byteThenSpelled : Bytes := 0xff :: asciiBytes "\\xfe"

def spelledThenByte : Bytes := asciiBytes "\\xff" ++ [0xfe]

/-- Two files that a user cannot tell apart, and one that cannot be named. -/
theorem not_faithfulDisplay : toDisplayPath byteThenSpelled = toDisplayPath spelledThenByte ∧
      byteThenSpelled ≠ spelledThenByte ∧
      (toDisplayPath (asciiBytes "caf\\xe9")).representable = true ∧
      encodeExecutionPath (toDisplayPath (asciiBytes "caf\\xe9")).text = none := by
  decide +kernel

end Refyard
