import Refyard.Core.Bytes
import Refyard.Foundation.Utf8

/-! The text codec of the TypeScript host: path bytes as a text to show, and a text as bytes
for Git where it is certain which. A text here is its characters. -/
namespace Refyard.TextCodec

/-- U+FEFF, which a decoder takes for a byte order mark where a text begins with it. -/
def mark : Char := Char.ofNat 0xfeff

def withoutMark : List Char → List Char
  | [] => []
  | first :: rest => if first = mark then rest else first :: rest

/-- What `TextDecoder` with `fatal` decodes. -/
def decodeFatal (bytes : Bytes) : Option (List Char) := (Utf8.decodeStrict bytes).map withoutMark

def decodeUtf8Strict (bytes : Bytes) : Option Char :=
  match decodeFatal bytes with
  | some [char] => some char
  | _ => none

def sequenceLength (byte : UInt8) : Nat :=
  if byte &&& 0xe0 = 0xc0 then 2
  else if byte &&& 0xf0 = 0xe0 then 3
  else if byte &&& 0xf8 = 0xf0 then 4
  else 0

def escapeByte (byte : UInt8) : List Char := '\\' :: 'x' :: (hexByte byte).toList

/-- `escapeInvalidBytes`, with so many bytes left that belong to a character it has decoded. -/
def escapeFrom : Nat → Bytes → List Char
  | _, [] => []
  | skip + 1, _ :: rest => escapeFrom skip rest
  | 0, byte :: rest =>
      if byte < 0x80 then Char.ofNat byte.toNat :: escapeFrom 0 rest
      else
        match decodeUtf8Strict ((byte :: rest).take (sequenceLength byte)) with
        | some char => char :: escapeFrom (sequenceLength byte - 1) rest
        | none => escapeByte byte ++ escapeFrom 0 rest

def escapeInvalidBytes (bytes : Bytes) : List Char := escapeFrom 0 bytes

structure DisplayPath where
  text : List Char
  representable : Bool

def toDisplayPath (bytes : Bytes) : DisplayPath :=
  match decodeFatal bytes with
  | some text => ⟨text, true⟩
  | none => ⟨escapeInvalidBytes bytes, false⟩

def isHexDigit (char : Char) : Bool :=
  char.isDigit || ('a' ≤ char && char ≤ 'f') || ('A' ≤ char && char ≤ 'F')

def showsEscape : List Char → Bool
  | [] => false
  | '\\' :: 'x' :: first :: second :: rest =>
      (isHexDigit first && isHexDigit second) || showsEscape ('x' :: first :: second :: rest)
  | _ :: rest => showsEscape rest

/-- Bytes for a path that will be handed to Git, where the text gives them back. -/
def encodeExecutionPath (text : List Char) : Option Bytes :=
  if text.contains '\x00' then none
  else if showsEscape text then none
  else if decodeFatal (Utf8.encode text) ≠ some text then none
  else some (Utf8.encode text)

variable {bytes : Bytes}

theorem decodeFatal_eq_some {text : List Char} :
    decodeFatal bytes = some text ↔ ∃ chars, bytes = Utf8.encode chars ∧ withoutMark chars = text := by
  unfold decodeFatal
  rw [Option.map_eq_some_iff]
  simp only [Utf8.decodeStrict_eq_some]

theorem decodeFatal_encode (chars : List Char) :
    decodeFatal (Utf8.encode chars) = some (withoutMark chars) :=
  decodeFatal_eq_some.mpr ⟨chars, rfl, rfl⟩

theorem encoded_of_decodeUtf8Strict {char : Char} (decoded : decodeUtf8Strict bytes = some char) :
    ∃ chars, bytes = Utf8.encode chars := by
  unfold decodeUtf8Strict at decoded
  split at decoded
  · rename_i other whole
    obtain ⟨chars, same, -⟩ := decodeFatal_eq_some.mp whole
    exact ⟨chars, same⟩
  · cases decoded

theorem showsEscape_cons {char : Char} {rest : List Char} (shows : showsEscape rest = true) :
    showsEscape (char :: rest) = true := by
  unfold showsEscape
  split
  · rename_i same
    cases same
  · rename_i first second behind same
    obtain ⟨-, rfl⟩ := List.cons.inj same
    rw [shows, Bool.or_true]
  · rename_i same
    obtain ⟨-, rfl⟩ := List.cons.inj same
    exact shows

theorem isHexDigit_digitChar : ∀ digit < 16, isHexDigit (Nat.digitChar digit) = true := by
  decide

theorem digits_hexByte (byte : UInt8) :
    ∃ first second, (hexByte byte).toList = [first, second] ∧ isHexDigit first = true ∧
      isHexDigit second = true := by
  refine ⟨_, _, String.toList_ofList, isHexDigit_digitChar _ ?_, isHexDigit_digitChar _ ?_⟩
  · have := byte.toNat_lt
    omega
  · exact Nat.mod_lt _ (by decide)

theorem showsEscape_escapeByte (byte : UInt8) (rest : List Char) :
    showsEscape (escapeByte byte ++ rest) = true := by
  obtain ⟨first, second, same, digit, alsoDigit⟩ := digits_hexByte byte
  unfold escapeByte
  rw [same]
  simp [showsEscape, digit, alsoDigit]

theorem escapeFrom_skip (skip : Nat) (bytes : Bytes) :
    escapeFrom skip bytes = escapeFrom 0 (bytes.drop skip) := by
  induction skip generalizing bytes with
  | zero => rfl
  | succ skip ih =>
    cases bytes with
    | nil => rfl
    | cons byte rest => exact ih rest

theorem encoded_of_unescaped (plain : showsEscape (escapeInvalidBytes bytes) = false) :
    ∃ chars, bytes = Utf8.encode chars := by
  unfold escapeInvalidBytes at plain
  generalize size : bytes.length = length
  induction length using Nat.strongRecOn generalizing bytes with
  | ind length ih =>
    cases bytes with
    | nil => exact ⟨[], rfl⟩
    | cons byte rest =>
      unfold escapeFrom at plain
      split at plain
      · rename_i ascii
        have later : showsEscape (escapeFrom 0 rest) = false :=
          Bool.eq_false_iff.mpr fun shows => Bool.eq_false_iff.mp plain (showsEscape_cons shows)
        obtain ⟨chars, rfl⟩ := ih rest.length (by rw [← size]; exact Nat.lt_succ_self _) later rfl
        have low : ∀ other ∈ [byte], other ≤ 0x7f := by
          intro other member
          rw [List.mem_singleton.mp member]
          exact UInt8.le_iff_toNat_le.mpr (Nat.le_of_lt_succ (UInt8.lt_iff_toNat_lt.mp ascii))
        have one : Utf8.encode [byteChar byte] = [byte] := Utf8.encode_ascii low
        refine ⟨[byteChar byte] ++ chars, ?_⟩
        rw [Utf8.encode_append, one, List.singleton_append]
      · split at plain
        · rename_i char decoded
          obtain ⟨chars, slice⟩ := encoded_of_decodeUtf8Strict decoded
          have positive : sequenceLength byte ≠ 0 := by
            intro none
            rw [none, List.take_zero] at decoded
            cases decoded
          have later : showsEscape (escapeFrom 0 ((byte :: rest).drop (sequenceLength byte))) =
              false := by
            rw [escapeFrom_skip] at plain
            obtain ⟨count, same⟩ := Nat.exists_eq_succ_of_ne_zero positive
            rw [same] at plain ⊢
            exact Bool.eq_false_iff.mpr fun shows =>
              Bool.eq_false_iff.mp plain (showsEscape_cons shows)
          obtain ⟨behind, whole⟩ := ih ((byte :: rest).drop (sequenceLength byte)).length (by
            rw [List.length_drop, ← size]
            exact Nat.sub_lt (Nat.succ_pos _) (Nat.pos_of_ne_zero positive)) later rfl
          refine ⟨chars ++ behind, ?_⟩
          rw [Utf8.encode_append, ← slice, ← whole, List.take_append_drop]
        · rw [showsEscape_escapeByte] at plain
          cases plain

def executionOf (bytes : Bytes) : Option Bytes := encodeExecutionPath (toDisplayPath bytes).text

theorem withoutMark_sublist (chars : List Char) : (withoutMark chars).Sublist chars := by
  unfold withoutMark
  split
  · exact List.Sublist.refl _
  · split
    · exact List.sublist_cons_self _ _
    · exact List.Sublist.refl _

theorem executionOf_eq_some {form : Bytes} (free : (0 : UInt8) ∉ bytes) :
    executionOf bytes = some form ↔ ∃ chars, bytes = Utf8.encode chars ∧
      form = Utf8.encode (withoutMark chars) ∧ showsEscape (withoutMark chars) = false ∧
        withoutMark (withoutMark chars) = withoutMark chars := by
  unfold executionOf toDisplayPath
  cases decoded : decodeFatal bytes with
  | none =>
    have escaped : showsEscape (escapeInvalidBytes bytes) = true := by
      by_contra plain
      obtain ⟨chars, rfl⟩ := encoded_of_unescaped (Bool.eq_false_iff.mpr plain)
      rw [decodeFatal_encode] at decoded
      cases decoded
    have refused : encodeExecutionPath (escapeInvalidBytes bytes) = none := by
      unfold encodeExecutionPath
      split <;> rfl
    rw [refused]
    refine iff_of_false nofun ?_
    rintro ⟨chars, rfl, -⟩
    rw [decodeFatal_encode] at decoded
    cases decoded
  | some text =>
    obtain ⟨chars, rfl, rfl⟩ := decodeFatal_eq_some.mp decoded
    have clean : (withoutMark chars).contains '\x00' = false := by
      rw [List.contains_eq_mem, decide_eq_false_iff_not]
      exact fun member => Utf8.nul_notMem_of_encode free ((withoutMark_sublist chars).subset member)
    dsimp only
    unfold encodeExecutionPath
    rw [clean, decodeFatal_encode]
    constructor
    · intro found
      refine ⟨chars, rfl, ?_⟩
      split at found
      · cases found
      · split at found
        · cases found
        · rename_i plain
          split at found
          · cases found
          · rename_i same
            exact ⟨(Option.some.inj found).symm, Bool.eq_false_iff.mpr plain,
              Option.some.inj (not_not.mp same)⟩
    · rintro ⟨other, same, rfl, plain, once⟩
      obtain rfl : other = chars := by
        rw [← Utf8.decode_encode other, ← same, Utf8.decode_encode]
      rw [if_neg nofun, if_neg (by rw [plain]; exact nofun), if_neg (by rw [once]; simp)]

def Marked (bytes : Bytes) : Prop :=
  ∃ rest, bytes = Utf8.encode (mark :: rest) ∧ rest.head? ≠ some mark ∧ showsEscape rest = false

theorem withoutMark_eq_self {chars : List Char} :
    withoutMark chars = chars ↔ chars.head? ≠ some mark := by
  cases chars with
  | nil => simp [withoutMark]
  | cons first rest =>
    unfold withoutMark
    split
    · rename_i same
      simp [same]
    · rename_i differs
      simp [differs]

theorem executionOf_cases {form : Bytes} (free : (0 : UInt8) ∉ bytes)
    (handed : executionOf bytes = some form) :
    form = bytes ∧ ¬ Marked bytes ∨ Marked bytes ∧ bytes = Utf8.encode [mark] ++ form := by
  obtain ⟨chars, rfl, rfl, plain, once⟩ := (executionOf_eq_some free).mp handed
  cases chars with
  | nil =>
    refine .inl ⟨rfl, ?_⟩
    rintro ⟨rest, same, -⟩
    cases Utf8.encode_injective same
  | cons first rest =>
    by_cases marked : first = mark
    · subst marked
      exact .inr ⟨⟨rest, rfl, withoutMark_eq_self.mp once, plain⟩, rfl⟩
    · have text : withoutMark (first :: rest) = first :: rest := if_neg marked
      refine .inl ⟨by rw [text], ?_⟩
      rintro ⟨other, same, -⟩
      exact marked (List.cons.inj (Utf8.encode_injective same)).1

theorem executionOf_marked (free : (0 : UInt8) ∉ bytes) (marked : Marked bytes) :
    ∃ form, executionOf bytes = some form ∧ bytes = Utf8.encode [mark] ++ form := by
  obtain ⟨rest, rfl, single, plain⟩ := marked
  refine ⟨Utf8.encode rest, (executionOf_eq_some free).mpr ⟨mark :: rest, rfl, ?_⟩, rfl⟩
  exact ⟨rfl, plain, withoutMark_eq_self.mpr single⟩

end Refyard.TextCodec
