import Refyard.Contract.Problem
import Refyard.Foundation.Fallible
import Refyard.Foundation.Utf8

/-! The static workbench: what a request path is read as. -/
namespace Refyard.Assets

/-- `char::to_digit` in base sixteen. -/
def toDigit (byte : UInt8) : Option Nat :=
  if 0x30 ≤ byte ∧ byte ≤ 0x39 then some (byte.toNat - 48)
  else if 0x41 ≤ byte ∧ byte ≤ 0x46 then some (byte.toNat - 55)
  else if 0x61 ≤ byte ∧ byte ≤ 0x66 then some (byte.toNat - 87)
  else none

def unsigned : Bytes → Bytes
  | 0x2b :: next :: rest => next :: rest
  | text => text

/-- `u8::from_str_radix` in base sixteen, which takes a plus sign in front of a digit. -/
def fromStrRadix (text : Bytes) : Option UInt8 :=
  if text = [] then none
  else
    ((unsigned text).foldlM (fun value byte => do
      let digit ← toDigit byte
      let value := value * 16 + digit
      if value < 256 then some value else none) 0).map UInt8.ofNat

def badEncoding : Problem := .new .invalidRequest "the path is not valid percent-encoding"

def percentBytes : Bytes → Except Problem Bytes
  | [] => .ok []
  | 0x25 :: high :: low :: rest =>
      match (Utf8.decodeStrict [high, low]).bind fun _ => fromStrRadix [high, low] with
      | some byte => (percentBytes rest).map (byte :: ·)
      | none => .error badEncoding
  | 0x25 :: _ => .error badEncoding
  | byte :: rest => (percentBytes rest).map (byte :: ·)

def percentDecode (input : List Char) : Except Problem (List Char) := do
  let output ← percentBytes (Utf8.encode input)
  match Utf8.decodeStrict output with
  | some text => pure text
  | none => .error (.new .invalidRequest "the path is not valid UTF-8")

/-! Percent-encoding as it is defined: two hexadecimal digits behind every percent sign. -/

def escapes : Bytes → Option Bytes
  | [] => some []
  | 0x25 :: high :: low :: rest => do
      let high ← toDigit high
      let low ← toDigit low
      (escapes rest).map (UInt8.ofNat (high * 16 + low) :: ·)
  | 0x25 :: _ => none
  | byte :: rest => (escapes rest).map (byte :: ·)

def wellEncoded (bytes : Bytes) : Option (List Char) := (escapes bytes).bind Utf8.decodeStrict

/-- The bytes that an encoder leaves as they are. -/
structure Spared where
  takes : UInt8 → Bool
  plain : ∀ byte, takes byte = true → byte ≤ 0x7f ∧ byte ≠ 0x25

def hexDigit (digit : Nat) : UInt8 := UInt8.ofNat (if digit < 10 then 48 + digit else 55 + digit)

def escape (spared : Spared) (byte : UInt8) : Bytes :=
  if spared.takes byte then [byte] else [0x25, hexDigit (byte.toNat / 16), hexDigit (byte.toNat % 16)]

def percentEncode (spared : Spared) (text : List Char) : List Char :=
  ((Utf8.encode text).flatMap (escape spared)).map byteChar

/-- The decoder accepts what is well encoded and nothing else, and takes an encoding back. -/
def Strict (path : List Char) : Prop :=
  (percentDecode path).toOption = wellEncoded (Utf8.encode path) ∧
    ∀ spared, percentDecode (percentEncode spared path) = .ok path

/-- The bytes with a zero for the plus sign behind a percent sign. -/
def zeroed : Bytes → Bytes
  | 0x25 :: high :: low :: rest => 0x25 :: (if high = 0x2b then 0x30 else high) :: low :: zeroed rest
  | byte :: rest => byte :: zeroed rest
  | [] => []

theorem toDigit_cases {byte : UInt8} {digit : Nat} (read : toDigit byte = some digit) :
    digit < 16 ∧ byte.toNat < 0x80 ∧ byte ≠ 0x25 ∧ byte ≠ 0x2b := by
  unfold toDigit at read
  simp only [UInt8.le_iff_toNat_le, ne_eq, ← UInt8.toNat_inj] at read ⊢
  split_ifs at read <;> simp at read <;> simp <;> simp at * <;> omega

variable {bytes : Bytes} {high low byte : UInt8}

theorem fromStrRadix_pair (high low : UInt8) : fromStrRadix [high, low] =
    (toDigit (if high = 0x2b then 0x30 else high)).bind fun high =>
      (toDigit low).map fun low => UInt8.ofNat (high * 16 + low) := by
  have small (digit : Nat) (below : digit < 16) : digit < 256 := by omega
  by_cases plus : high = 0x2b
  · subst plus
    have zero : toDigit 0x30 = some 0 := rfl
    cases read : toDigit low with
    | none => simp [fromStrRadix, unsigned, read]
    | some digit =>
      have below := (toDigit_cases read).1
      simp [fromStrRadix, unsigned, read, zero, small digit below]
  · have digits : unsigned [high, low] = [high, low] := by
      unfold unsigned
      split
      · rename_i same
        exact absurd (List.cons.inj same).1 plus
      · rfl
    rw [if_neg plus, fromStrRadix, digits]
    cases first : toDigit high with
    | none => simp [first]
    | some front =>
      cases second : toDigit low with
      | none => simp [first, second]
      | some back =>
        have frontSmall := (toDigit_cases first).1
        have backSmall := (toDigit_cases second).1
        have sum : front * 16 + back < 256 := by omega
        simp [first, second, small front frontSmall, sum]

theorem decodePair (high low : UInt8) :
    ((Utf8.decodeStrict [high, low]).bind fun _ => fromStrRadix [high, low]) =
      fromStrRadix [high, low] := by
  cases read : fromStrRadix [high, low] with
  | none => cases Utf8.decodeStrict [high, low] <;> rfl
  | some byte =>
    rw [fromStrRadix_pair] at read
    obtain ⟨front, first, read⟩ := Option.bind_eq_some_iff.mp read
    obtain ⟨back, second, -⟩ := Option.map_eq_some_iff.mp read
    have lowAscii := (toDigit_cases second).2.1
    have highAscii : high.toNat < 0x80 := by
      split at first
      · rename_i plus
        rw [plus]
        decide
      · exact (toDigit_cases first).2.1
    have ascii : ∀ byte ∈ [high, low], byte ≤ 0x7f := by
      simp [UInt8.le_iff_toNat_le]
      omega
    rw [Utf8.decodeStrict_eq_some.mpr (Utf8.encode_ascii ascii).symm]
    rfl

theorem toOption_percentBytes (bytes : Bytes) :
    (percentBytes bytes).toOption = escapes (zeroed bytes) := by
  fun_induction percentBytes bytes with
  | case1 => rfl
  | case2 high low rest byte read ih =>
    rw [decodePair, fromStrRadix_pair] at read
    obtain ⟨front, first, read⟩ := Option.bind_eq_some_iff.mp read
    obtain ⟨back, second, rfl⟩ := Option.map_eq_some_iff.mp read
    simp only [zeroed, escapes, first, second, Option.bind_eq_bind, Option.bind_some, ← ih]
    cases percentBytes rest <;> rfl
  | case3 high low rest refused =>
    rw [decodePair, fromStrRadix_pair] at refused
    rw [zeroed, escapes]
    cases first : toDigit (if high = 0x2b then 0x30 else high) with
    | none => rfl
    | some front =>
      cases second : toDigit low with
      | none => rfl
      | some back => simp [first, second] at refused
  | case4 rest short =>
    rcases rest with _ | ⟨high, _ | ⟨low, rest⟩⟩
    · rfl
    · simp [zeroed, escapes, Except.toOption]
    · exact absurd rfl (short high low rest)
  | case5 byte rest plain unmarked ih =>
    rw [zeroed, escapes, ← ih]
    · cases percentBytes rest <;> rfl
    · exact fun _ _ _ mark _ => unmarked mark
    · exact unmarked
    · exact plain

theorem zeroed_eq_self (absent : ¬ [0x25, 0x2b] <:+: bytes) : zeroed bytes = bytes := by
  fun_induction zeroed bytes with
  | case1 high low rest ih =>
    have plain : high ≠ 0x2b := by
      rintro rfl
      exact absent ⟨[], low :: rest, rfl⟩
    rw [if_neg plain, ih fun inside => absent (inside.trans ⟨[0x25, high, low], [], by simp⟩)]
  | case2 byte rest other ih =>
    rw [ih fun inside => absent (inside.trans (List.suffix_cons byte rest).isInfix)]
  | case3 => rfl

theorem escapes_plus (present : [0x25, 0x2b] <:+: bytes) : escapes bytes = none := by
  fun_induction escapes bytes with
  | case1 => simp at present
  | case2 high low rest ih =>
    cases first : toDigit high with
    | none => rfl
    | some front =>
      cases second : toDigit low with
      | none => rfl
      | some back =>
        have notHigh := toDigit_cases first
        have notLow := toDigit_cases second
        simp only [List.infix_cons_iff, List.cons_prefix_cons] at present
        have inside : [0x25, 0x2b] <:+: rest := by
          obtain ⟨-, same, -⟩ | ⟨same, -⟩ | ⟨same, -⟩ | inside := present
          · exact absurd same.symm notHigh.2.2.2
          · exact absurd same.symm notHigh.2.2.1
          · exact absurd same.symm notLow.2.2.1
          · exact inside
        simp [ih inside]
  | case3 => rfl
  | case4 byte rest plain unmarked ih =>
    rw [List.infix_cons_iff, List.cons_prefix_cons] at present
    have inside := present.resolve_left fun mark => unmarked mark.1.symm
    rw [ih inside]
    rfl

theorem percentBytes_escape (spared : Spared) (byte : UInt8) (rest : Bytes) :
    percentBytes (escape spared byte ++ rest) = (percentBytes rest).map (byte :: ·) := by
  unfold escape
  split
  · rename_i taken
    have other := (spared.plain byte taken).2
    rw [List.singleton_append, percentBytes]
    · exact fun _ _ _ mark _ => other mark
    · exact other
  · have digits : ∀ digit < 16, toDigit (hexDigit digit) = some digit ∧ hexDigit digit ≠ 0x2b := by
      decide
    have below := byte.toNat_lt
    obtain ⟨front, unsigned⟩ := digits (byte.toNat / 16) (by omega)
    obtain ⟨back, -⟩ := digits (byte.toNat % 16) (by omega)
    have whole : byte.toNat / 16 * 16 + byte.toNat % 16 = byte.toNat := by omega
    rw [List.cons_append, List.cons_append, List.singleton_append, percentBytes, decodePair,
      fromStrRadix_pair, if_neg unsigned, front, back, Option.bind_some, Option.map_some, whole,
      UInt8.ofNat_toNat]

theorem percentDecode_percentEncode (spared : Spared) (text : List Char) :
    percentDecode (percentEncode spared text) = .ok text := by
  have ascii : ∀ byte ∈ (Utf8.encode text).flatMap (escape spared), byte ≤ 0x7f := by
    intro byte member
    obtain ⟨source, -, inside⟩ := List.mem_flatMap.mp member
    have digits : ∀ digit < 16, hexDigit digit ≤ 0x7f := by decide
    have below := source.toNat_lt
    unfold escape at inside
    split at inside
    · rename_i taken
      rw [List.mem_singleton.mp inside]
      exact (spared.plain source taken).1
    · simp only [List.mem_cons, List.not_mem_nil, or_false] at inside
      obtain rfl | rfl | rfl := inside
      · decide
      · exact digits _ (by omega)
      · exact digits _ (by omega)
  have read (bytes : Bytes) : percentBytes (bytes.flatMap (escape spared)) = .ok bytes := by
    induction bytes with
    | nil => rfl
    | cons byte rest ih =>
      rw [List.flatMap_cons, percentBytes_escape, ih]
      rfl
  rw [percentDecode, percentEncode, Utf8.encode_ascii ascii, read]
  change (match Utf8.decodeStrict (Utf8.encode text) with
    | some text => pure text
    | none => _) = _
  rw [Utf8.decodeStrict_eq_some.mpr rfl]
  rfl

theorem toOption_percentDecode (path : List Char) :
    (percentDecode path).toOption = wellEncoded (zeroed (Utf8.encode path)) := by
  rw [percentDecode, toOption_bind, toOption_percentBytes, wellEncoded]
  apply congrArg (Option.bind _)
  funext output
  cases Utf8.decodeStrict output <;> rfl

/-- A plus sign in front of a digit is read as a zero. -/
theorem strict_iff (path : List Char) : Strict path ↔
    ¬ [0x25, 0x2b] <:+: Utf8.encode path ∨ wellEncoded (zeroed (Utf8.encode path)) = none := by
  rw [Strict, and_iff_left fun spared => percentDecode_percentEncode spared path,
    toOption_percentDecode]
  by_cases present : [0x25, 0x2b] <:+: Utf8.encode path
  · rw [or_iff_right (not_not_intro present), wellEncoded, wellEncoded, escapes_plus present]
    rfl
  · exact iff_of_true (by rw [zeroed_eq_self present]) (.inl present)

theorem plus_is_a_digit : ¬ ∀ path, Strict path := by
  intro strict
  exact absurd (strict "/%+f".toList).1 (by decide +kernel)

end Refyard.Assets
