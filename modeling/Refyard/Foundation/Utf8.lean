import Refyard.Foundation.Ascii
import Refyard.Foundation.Delimited

/-! UTF-8 with replacement: bytes that are no part of a character become U+FFFD, one for
each longest start of a character that does not go on. -/
namespace Refyard

def isWhitespace (char : Char) : Bool :=
  let code := char.toNat
  (0x9 ≤ code && code ≤ 0xd) || code == 0x20 || code == 0x85 || code == 0xa0 ||
    code == 0x1680 || (0x2000 ≤ code && code ≤ 0x200a) || code == 0x2028 || code == 0x2029 ||
    code == 0x202f || code == 0x205f || code == 0x3000

/-- White space, as `trim` takes it off in JavaScript. -/
def isTrimmed (char : Char) : Bool :=
  char.toNat = 0xfeff || (isWhitespace char && char.toNat != 0x85)

theorem isWhitespace_digit {char : Char} (digit : char.isDigit = true) :
    isWhitespace char = false := by
  have bounds := toNat_of_isDigit digit
  unfold isWhitespace
  simp only [Bool.or_eq_false_iff, Bool.and_eq_false_iff, decide_eq_false_iff_not,
    beq_eq_false_iff_ne]
  omega

theorem isTrimmed_digit {char : Char} (digit : char.isDigit = true) : isTrimmed char = false := by
  have bounds := toNat_of_isDigit digit
  unfold isTrimmed
  rw [isWhitespace_digit digit, Bool.false_and, Bool.or_false, decide_eq_false_iff_not]
  omega

namespace Utf8

def replacement : Char := Char.ofNat 0xfffd

/-- A character that has begun: the bits so far, how many bytes are to come, and the range
in which the next one must lie. -/
structure Pending where
  value : Nat
  more : Nat
  low : Nat
  high : Nat

/-- The second byte's range excludes overlong forms, surrogates and what lies above
U+10FFFF. -/
def lead (byte : Nat) : Option Pending :=
  if 0xc2 ≤ byte ∧ byte ≤ 0xdf then some ⟨byte - 0xc0, 1, 0x80, 0xbf⟩
  else if byte = 0xe0 then some ⟨0, 2, 0xa0, 0xbf⟩
  else if byte = 0xed then some ⟨0xd, 2, 0x80, 0x9f⟩
  else if 0xe1 ≤ byte ∧ byte ≤ 0xef then some ⟨byte - 0xe0, 2, 0x80, 0xbf⟩
  else if byte = 0xf0 then some ⟨0, 3, 0x90, 0xbf⟩
  else if 0xf1 ≤ byte ∧ byte ≤ 0xf3 then some ⟨byte - 0xf0, 3, 0x80, 0xbf⟩
  else if byte = 0xf4 then some ⟨4, 3, 0x80, 0x8f⟩
  else none

def start (byte : Nat) : List Char × Option Pending :=
  if byte < 0x80 then ([Char.ofNat byte], none)
  else
    match lead byte with
    | some pending => ([], some pending)
    | none => ([replacement], none)

/-- What one byte yields behind a character that has begun. A byte that does not continue it
ends it and starts over. -/
def resume (pending : Pending) (byte : Nat) : List Char × Option Pending :=
  if pending.low ≤ byte ∧ byte ≤ pending.high then
    let value := pending.value * 64 + (byte - 0x80)
    if pending.more ≤ 1 then ([Char.ofNat value], none)
    else ([], some ⟨value, pending.more - 1, 0x80, 0xbf⟩)
  else (replacement :: (start byte).1, (start byte).2)

def next (pending : Option Pending) (byte : Nat) : List Char × Option Pending :=
  match pending with
  | none => start byte
  | some pending => resume pending byte

def decodeFrom (pending : Option Pending) : Bytes → List Char
  | [] => if pending.isSome then [replacement] else []
  | byte :: rest =>
      (next pending byte.toNat).1 ++ decodeFrom (next pending byte.toNat).2 rest

def decode (bytes : Bytes) : List Char := decodeFrom none bytes

def encode (chars : List Char) : Bytes := chars.flatMap String.utf8EncodeChar

/-- The characters of bytes that are UTF-8 throughout: those that encode back to them. -/
def decodeStrict (bytes : Bytes) : Option (List Char) :=
  if encode (decode bytes) = bytes then some (decode bytes) else none

@[simp] theorem encode_nil : encode [] = [] := rfl

variable (char : Char) (pending : Option Pending) {byte value low high : Nat} {bytes front : Bytes}
  {chars : List Char}

@[simp] theorem encode_cons (chars : List Char) :
    encode (char :: chars) = String.utf8EncodeChar char ++ encode chars := rfl

@[simp] theorem encode_append (front back : List Char) :
    encode (front ++ back) = encode front ++ encode back := by
  simp [encode]

theorem decodeFrom_cons (byte : UInt8) (rest : Bytes) : decodeFrom pending (byte :: rest) =
      (next pending byte.toNat).1 ++ decodeFrom (next pending byte.toNat).2 rest := rfl

/-- A byte in range that ends the character. -/
theorem next_last {pending : Pending} (low : pending.low ≤ byte) (high : byte ≤ pending.high)
    (last : pending.more ≤ 1) :
    next (some pending) byte = ([Char.ofNat (pending.value * 64 + (byte - 0x80))], none) := by
  unfold next resume
  dsimp only
  rw [if_pos ⟨low, high⟩]
  exact if_pos last

/-- A byte in range behind which more must come. -/
theorem next_more {pending : Pending} (low : pending.low ≤ byte) (high : byte ≤ pending.high)
    (more : ¬ pending.more ≤ 1) : next (some pending) byte =
      ([], some ⟨pending.value * 64 + (byte - 0x80), pending.more - 1, 0x80, 0xbf⟩) := by
  unfold next resume
  dsimp only
  rw [if_pos ⟨low, high⟩]
  exact if_neg more

theorem next_ascii (ascii : byte < 0x80) : next none byte = ([Char.ofNat byte], none) := by
  exact if_pos ascii

theorem next_lead {pending : Pending} (above : 0x80 ≤ byte) (first : lead byte = some pending) :
    next none byte = ([], some pending) := by
  unfold next start
  rw [if_neg (by omega), first]

/-- Character numbers on one side of the surrogates, and not zero. -/
def Spans (first last : Nat) : Prop :=
  0 < first ∧ last < 0xd800 ∨ 0xdfff < first ∧ last < 0x110000

/-- Every way in which a character that has begun may end is a character, and not NUL. -/
def Pending.Fits (pending : Pending) : Prop :=
  0x80 ≤ pending.low ∧ (pending.more = 1 ∧ Spans (pending.value * 64 + (pending.low - 0x80))
        (pending.value * 64 + (pending.high - 0x80)) ∨
      pending.more = 2 ∧ Spans ((pending.value * 64 + (pending.low - 0x80)) * 64)
        ((pending.value * 64 + (pending.high - 0x80)) * 64 + 63) ∨
      pending.more = 3 ∧ Spans ((pending.value * 64 + (pending.low - 0x80)) * 4096)
        ((pending.value * 64 + (pending.high - 0x80)) * 4096 + 4095))

theorem fits_one (above : 0x80 ≤ low)
    (spans : Spans (value * 64 + (low - 0x80)) (value * 64 + (high - 0x80))) :
    Pending.Fits ⟨value, 1, low, high⟩ :=
  ⟨above, .inl ⟨rfl, spans⟩⟩

theorem fits_two (above : 0x80 ≤ low)
    (spans : Spans ((value * 64 + (low - 0x80)) * 64) ((value * 64 + (high - 0x80)) * 64 + 63)) :
    Pending.Fits ⟨value, 2, low, high⟩ :=
  ⟨above, .inr (.inl ⟨rfl, spans⟩)⟩

theorem fits_three (above : 0x80 ≤ low) (spans : Spans ((value * 64 + (low - 0x80)) * 4096)
      ((value * 64 + (high - 0x80)) * 4096 + 4095)) : Pending.Fits ⟨value, 3, low, high⟩ :=
  ⟨above, .inr (.inr ⟨rfl, spans⟩)⟩

theorem fits_lead {pending : Pending} (first : lead byte = some pending) : pending.Fits := by
  unfold lead at first
  split at first
  · rw [← Option.some.inj first]
    exact fits_one (by omega) (by unfold Spans; omega)
  split at first
  · rw [← Option.some.inj first]
    exact fits_two (by omega) (by unfold Spans; omega)
  split at first
  · rw [← Option.some.inj first]
    exact fits_two (by omega) (by unfold Spans; omega)
  split at first
  · rw [← Option.some.inj first]
    exact fits_two (by omega) (by unfold Spans; omega)
  split at first
  · rw [← Option.some.inj first]
    exact fits_three (by omega) (by unfold Spans; omega)
  split at first
  · rw [← Option.some.inj first]
    exact fits_three (by omega) (by unfold Spans; omega)
  split at first
  · rw [← Option.some.inj first]
    exact fits_three (by omega) (by unfold Spans; omega)
  · cases first

theorem ofNat_ne_nul (spans : Spans value value) : Char.ofNat value ≠ Char.ofNat 0 := by
  have valid : value.isValidChar := by
    unfold Spans at spans
    omega
  intro same
  have number : (Char.ofNat value).toNat = value := toNat_charOfNat valid
  rw [same] at number
  have zero : (Char.ofNat 0).toNat = 0 := by decide
  unfold Spans at spans
  omega

/-- Bytes without NUL are characters without NUL. -/
theorem nul_notMem_decodeFrom (free : (0 : UInt8) ∉ bytes) (pending : Option Pending)
    (fits : ∀ begun ∈ pending, begun.Fits) : Char.ofNat 0 ∉ decodeFrom pending bytes := by
  have start_free {byte : Nat} (nonzero : byte ≠ 0) :
      Char.ofNat 0 ∉ (start byte).1 ∧ ∀ begun ∈ (start byte).2, begun.Fits := by
    unfold start
    split
    · have differs : Char.ofNat byte ≠ Char.ofNat 0 := by
        apply ofNat_ne_nul
        unfold Spans
        omega
      simpa using Ne.symm differs
    · split
      · rename_i begun first
        simpa using fits_lead first
      · simp only [List.mem_singleton, Option.not_mem_none, false_implies, implies_true, and_true]
        decide
  induction bytes generalizing pending with
  | nil =>
    unfold decodeFrom
    split
    · rw [List.mem_singleton]
      decide
    · simp
  | cons byte rest ih =>
    rw [List.mem_cons, not_or] at free
    have nonzero : byte.toNat ≠ 0 := fun zero => free.1 (UInt8.toNat_inj.mp zero.symm)
    obtain ⟨starts, begins⟩ := start_free nonzero
    have step : Char.ofNat 0 ∉ (next pending byte.toNat).1 ∧
        ∀ begun ∈ (next pending byte.toNat).2, begun.Fits := by
      cases pending with
      | none => exact ⟨starts, begins⟩
      | some begun =>
        have fit := fits begun rfl
        unfold next resume
        dsimp only
        split
        · rename_i range
          obtain ⟨above, fit⟩ := fit
          split
          · rename_i last
            have differs : Char.ofNat (begun.value * 64 + (byte.toNat - 0x80)) ≠ Char.ofNat 0 := by
              apply ofNat_ne_nul
              unfold Spans at fit ⊢
              omega
            simpa using Ne.symm differs
          · rename_i more
            simp only [List.not_mem_nil, not_false_eq_true, Option.mem_some, forall_eq', true_and]
            unfold Spans at fit
            rcases fit with ⟨one, -⟩ | ⟨two, spans⟩ | ⟨three, spans⟩
            · omega
            · rw [two]
              exact fits_one (by omega) (by unfold Spans; omega)
            · rw [three]
              exact fits_two (by omega) (by unfold Spans; omega)
        · refine ⟨?_, begins⟩
          rw [List.mem_cons, not_or]
          exact ⟨by decide, starts⟩
    rw [decodeFrom_cons, List.mem_append, not_or]
    exact ⟨step.1, ih free.2 _ step.2⟩

theorem nul_notMem_decode (free : (0 : UInt8) ∉ bytes) : Char.ofNat 0 ∉ decode bytes :=
  nul_notMem_decodeFrom free none (by simp)

/-- Characters that number bytes below `0x80` are encoded as those bytes. -/
theorem encode_ascii (ascii : ∀ byte ∈ bytes, byte ≤ 0x7f) :
    encode (bytes.map byteChar) = bytes := by
  induction bytes with
  | nil => rfl
  | cons byte rest ih =>
    have below : byte.toNat ≤ 0x7f := UInt8.le_iff_toNat_le.mp (ascii byte (by simp))
    have number : (byteChar byte).val.toNat = byte.toNat := toNat_byteChar byte
    have one : String.utf8EncodeChar (byteChar byte) = [byte] := by
      unfold String.utf8EncodeChar
      rw [number, if_pos below, UInt8.ofNat_toNat]
    rw [List.map_cons, encode_cons, one, ih fun other member => ascii other (by simp [member])]
    rfl

/-- Bytes below `0x80` are the characters they number. -/
theorem decode_ascii (ascii : ∀ byte ∈ bytes, byte ≤ 0x7f) : decode bytes = bytes.map byteChar := by
  unfold decode
  induction bytes with
  | nil => rfl
  | cons byte rest ih =>
    have below : byte.toNat < 0x80 :=
      Nat.lt_succ_of_le (UInt8.le_iff_toNat_le.mp (ascii byte (by simp)))
    rw [decodeFrom_cons, next_ascii below, ih fun other member => ascii other (by simp [member])]
    rfl

/-- A scalar value lies outside the surrogates. -/
theorem scalar : char.toNat < 0xd800 ∨ (0xdfff < char.toNat ∧ char.toNat < 0x110000) := by
  have valid := char.valid
  exact valid

theorem lead_two (low : 0x80 ≤ value) (high : value ≤ 0x7ff) :
    lead (value / 64 % 32 + 0xc0) = some ⟨value / 64, 1, 0x80, 0xbf⟩ := by
  have bits : value / 64 % 32 + 0xc0 - 0xc0 = value / 64 := by omega
  unfold lead
  rw [if_pos (by omega), bits]

theorem lead_three (low : 0x800 ≤ value) (high : value ≤ 0xffff)
    (scalar : value < 0xd800 ∨ 0xdfff < value) :
    ∃ first last, lead (value / 4096 % 16 + 0xe0) = some ⟨value / 4096, 2, first, last⟩ ∧
      first ≤ value / 64 % 64 + 0x80 ∧ value / 64 % 64 + 0x80 ≤ last := by
  have bits : value / 4096 % 16 + 0xe0 - 0xe0 = value / 4096 := by omega
  unfold lead
  rw [if_neg (by omega)]
  split_ifs with least surrogate
  · have zero : value / 4096 = 0 := by omega
    exact ⟨0xa0, 0xbf, by rw [zero], by omega, by omega⟩
  · have thirteen : value / 4096 = 0xd := by omega
    exact ⟨0x80, 0x9f, by rw [thirteen], by omega, by omega⟩
  · exact ⟨0x80, 0xbf, by rw [bits], by omega, by omega⟩
  all_goals omega

theorem lead_four (low : 0x10000 ≤ value) (high : value < 0x110000) :
    ∃ first last, lead (value / 262144 % 8 + 0xf0) = some ⟨value / 262144, 3, first, last⟩ ∧
      first ≤ value / 4096 % 64 + 0x80 ∧ value / 4096 % 64 + 0x80 ≤ last := by
  have bits : value / 262144 % 8 + 0xf0 - 0xf0 = value / 262144 := by omega
  unfold lead
  rw [if_neg (by omega), if_neg (by omega), if_neg (by omega), if_neg (by omega)]
  split_ifs with least middle greatest
  · have zero : value / 262144 = 0 := by omega
    exact ⟨0x90, 0xbf, by rw [zero], by omega, by omega⟩
  · exact ⟨0x80, 0xbf, by rw [bits], by omega, by omega⟩
  · have four : value / 262144 = 4 := by omega
    exact ⟨0x80, 0x8f, by rw [four], by omega, by omega⟩
  · omega

theorem toNat_ofNat (below : value < 256) : (UInt8.ofNat value).toNat = value := by
  rw [UInt8.toNat_ofNat', Nat.mod_eq_of_lt below]

/-- A character below `0x80` is its own byte, and any other has no byte below `0x80`. -/
theorem encodeChar_cases : (char.toNat < 0x80 ∧ String.utf8EncodeChar char = [charByte char]) ∨
      0x80 ≤ char.toNat ∧ ∀ byte ∈ String.utf8EncodeChar char, 0x80 ≤ byte.toNat := by
  have valid := scalar char
  have unfolded : char.val.toNat = char.toNat := rfl
  have high (value : Nat) (below : value < 256) (above : 0x80 ≤ value) :
      0x80 ≤ (UInt8.ofNat value).toNat := by
    rw [toNat_ofNat below]
    exact above
  unfold String.utf8EncodeChar charByte
  dsimp only
  rw [unfolded]
  generalize char.toNat = value at valid
  split_ifs with one two three <;>
    simp only [List.forall_mem_cons]
  · exact .inl ⟨by omega, trivial⟩
  · exact .inr ⟨by omega, high _ (by omega) (by omega), high _ (by omega) (by omega), nofun⟩
  · exact .inr ⟨by omega, high _ (by omega) (by omega), high _ (by omega) (by omega),
      high _ (by omega) (by omega), nofun⟩
  · exact .inr ⟨by omega, high _ (by omega) (by omega), high _ (by omega) (by omega),
      high _ (by omega) (by omega), high _ (by omega) (by omega), nofun⟩

theorem encodeChar_ascii {char : Char} (ascii : char.toNat < 0x80) :
    String.utf8EncodeChar char = [charByte char] := by
  cases encodeChar_cases char with
  | inl own => exact own.2
  | inr high => omega

/-- The byte of an ASCII character is in no other character's. -/
theorem charByte_notMem_encodeChar {char other : Char} (ascii : char.toNat < 0x80)
    (differs : other ≠ char) : charByte char ∉ String.utf8EncodeChar other := by
  intro member
  obtain ⟨small, own⟩ | ⟨-, high⟩ := encodeChar_cases other
  · rw [own, List.mem_singleton] at member
    exact differs ((charByte_inj small ascii).mp member.symm)
  · have above := high _ member
    rw [toNat_charByte ascii] at above
    omega

/-- An ASCII byte is a character of its own. -/
theorem encode_eq_append {rest : Bytes} {char : Char} (ascii : char.toNat < 0x80) :
    encode chars = front ++ charByte char :: rest ↔
      ∃ before behind, chars = before ++ char :: behind ∧ encode before = front ∧
        encode behind = rest :=
  Delimited.flatMap_eq_append (encodeChar_ascii ascii)
    fun _ differs => charByte_notMem_encodeChar ascii differs

theorem encodeChar_ne : String.utf8EncodeChar char ≠ [] :=
  String.utf8EncodeChar_ne_nil

theorem encode_eq_nil : encode chars = [] ↔ chars = [] := by
  cases chars with
  | nil => simp
  | cons char rest => simp [encodeChar_ne char]

theorem encode_eq_cons {byte : UInt8} {rest : Bytes} (ascii : byte.toNat < 0x80) :
    encode chars = byte :: rest ↔
      ∃ behind, chars = byteChar byte :: behind ∧ encode behind = rest := by
  have cut : encode chars = [] ++ charByte (byteChar byte) :: rest ↔ _ :=
    encode_eq_append ((toNat_byteChar byte).symm ▸ ascii)
  rw [charByte_byteChar, List.nil_append] at cut
  rw [cut]
  constructor
  · rintro ⟨before, behind, rfl, started, ended⟩
    obtain rfl := encode_eq_nil.mp started
    exact ⟨behind, rfl, ended⟩
  · rintro ⟨behind, rfl, ended⟩
    exact ⟨[], behind, rfl, rfl, ended⟩

theorem charByte_notMem_encode {char : Char} (ascii : char.toNat < 0x80) (absent : char ∉ chars) :
    charByte char ∉ encode chars := by
  induction chars with
  | nil => simp
  | cons other rest ih =>
    rw [List.mem_cons, not_or] at absent
    rw [encode_cons, List.mem_append, not_or]
    exact ⟨charByte_notMem_encodeChar ascii fun same => absent.1 same.symm, ih absent.2⟩

theorem newline_notMem_encode {line : List Char} (one : '\n' ∉ line) :
    (0x0a : UInt8) ∉ encode line :=
  charByte_notMem_encode (show ('\n' : Char).toNat < 0x80 by decide) one

/-- Decoding takes exactly one encoded character off the front. -/
theorem decodeFrom_encodeChar (rest : Bytes) :
    decodeFrom none (String.utf8EncodeChar char ++ rest) = char :: decodeFrom none rest := by
  have valid := scalar char
  have same : Char.ofNat char.toNat = char := Char.ofNat_toNat char
  have unfolded : char.val.toNat = char.toNat := rfl
  unfold String.utf8EncodeChar
  dsimp only
  rw [unfolded]
  generalize char.toNat = value at valid same
  split_ifs with one two three
  · have byte := toNat_ofNat (show value < 256 by omega)
    rw [List.singleton_append, decodeFrom_cons, byte, next_ascii (by omega), same]
    rfl
  · have first := toNat_ofNat (show value / 64 % 32 + 0xc0 < 256 by omega)
    have second := toNat_ofNat (show value % 64 + 0x80 < 256 by omega)
    have bits : value / 64 * 64 + (value % 64 + 0x80 - 0x80) = value := by omega
    rw [List.cons_append, List.singleton_append, decodeFrom_cons, first,
      next_lead (by omega) (lead_two (by omega) (by omega)), decodeFrom_cons, second,
      next_last (by dsimp only; omega) (by dsimp only; omega) (by dsimp only; omega), bits, same]
    rfl
  · obtain ⟨low, high, starts, above, below⟩ :=
      lead_three (show 0x800 ≤ value by omega) (by omega) (by omega)
    have first := toNat_ofNat (show value / 4096 % 16 + 0xe0 < 256 by omega)
    have second := toNat_ofNat (show value / 64 % 64 + 0x80 < 256 by omega)
    have third := toNat_ofNat (show value % 64 + 0x80 < 256 by omega)
    have bits : (value / 4096 * 64 + (value / 64 % 64 + 0x80 - 0x80)) * 64 +
        (value % 64 + 0x80 - 0x80) = value := by omega
    rw [List.cons_append, List.cons_append, List.singleton_append, decodeFrom_cons, first,
      next_lead (by omega) starts, decodeFrom_cons, second,
      next_more above below (by dsimp only; omega), decodeFrom_cons, third,
      next_last (by dsimp only; omega) (by dsimp only; omega) (by dsimp only; omega), bits, same]
    rfl
  · obtain ⟨low, high, starts, above, below⟩ :=
      lead_four (show 0x10000 ≤ value by omega) (by omega)
    have first := toNat_ofNat (show value / 262144 % 8 + 0xf0 < 256 by omega)
    have second := toNat_ofNat (show value / 4096 % 64 + 0x80 < 256 by omega)
    have third := toNat_ofNat (show value / 64 % 64 + 0x80 < 256 by omega)
    have fourth := toNat_ofNat (show value % 64 + 0x80 < 256 by omega)
    have bits : ((value / 262144 * 64 + (value / 4096 % 64 + 0x80 - 0x80)) * 64 +
        (value / 64 % 64 + 0x80 - 0x80)) * 64 + (value % 64 + 0x80 - 0x80) = value := by omega
    rw [List.cons_append, List.cons_append, List.cons_append, List.singleton_append,
      decodeFrom_cons, first, next_lead (by omega) starts, decodeFrom_cons, second,
      next_more above below (by dsimp only; omega), decodeFrom_cons, third,
      next_more (by dsimp only; omega) (by dsimp only; omega) (by dsimp only; omega),
      decodeFrom_cons, fourth,
      next_last (by dsimp only; omega) (by dsimp only; omega) (by dsimp only; omega), bits, same]
    rfl

/-- Decoding takes encoded characters off the front. -/
theorem decode_encode_append (chars : List Char) (rest : Bytes) :
    decode (encode chars ++ rest) = chars ++ decode rest := by
  unfold decode
  induction chars with
  | nil => rfl
  | cons char chars ih =>
    rw [encode_cons, List.append_assoc, decodeFrom_encodeChar, ih, List.cons_append]

/-- Decoding inverts encoding. -/
theorem decode_encode (chars : List Char) : decode (encode chars) = chars := by
  have whole := decode_encode_append chars []
  rwa [List.append_nil, show decode [] = [] from rfl, List.append_nil] at whole

theorem nul_notMem_of_encode (free : (0 : UInt8) ∉ encode chars) : Char.ofNat 0 ∉ chars := by
  have absent := nul_notMem_decode free
  rwa [decode_encode] at absent

theorem encode_ascii_append {front : List Char} (ascii : ∀ char ∈ front, char.toNat < 0x80)
    (rest : List Char) : encode (front ++ rest) = front.map charByte ++ encode rest := by
  induction front with
  | nil => rfl
  | cons char front ih =>
    rw [List.cons_append, encode_cons, encodeChar_ascii (ascii char List.mem_cons_self),
      ih fun other member => ascii other (List.mem_cons_of_mem _ member)]
    rfl

theorem encode_injective {left right : List Char} (same : encode left = encode right) :
    left = right := by
  rw [← decode_encode left, same, decode_encode]

theorem decodeStrict_eq_some : decodeStrict bytes = some chars ↔ bytes = encode chars := by
  unfold decodeStrict
  constructor
  · intro found
    split at found
    · rename_i exact_
      rw [← Option.some_inj.mp found, exact_]
    · cases found
  · rintro rfl
    rw [decode_encode, if_pos rfl]

/-- No byte below `0x80` goes on with a character that has begun. -/
theorem low_next {pending : Option Pending} (byte : Nat)
    (high : ∀ begun ∈ pending, 0x80 ≤ begun.low) :
    ∀ begun ∈ (next pending byte).2, 0x80 ≤ begun.low := by
  have starts : ∀ begun ∈ (start byte).2, 0x80 ≤ begun.low := by
    unfold start
    split
    · exact nofun
    · split
      · rename_i found first
        rintro begun ⟨⟩
        exact (fits_lead first).1
      · exact nofun
  cases pending with
  | none => exact starts
  | some begun =>
    unfold next resume
    dsimp only
    split
    · split
      · exact nofun
      · intro other same
        obtain rfl := Option.some.inj same
        exact Nat.le_refl 0x80
    · exact starts

/-- An ASCII byte at the end is a character of its own. -/
theorem decodeFrom_concat {byte : UInt8} (ascii : byte.toNat < 0x80) (front : Bytes)
    {pending : Option Pending} (high : ∀ begun ∈ pending, 0x80 ≤ begun.low) :
    decodeFrom pending (front ++ [byte]) = decodeFrom pending front ++ [byteChar byte] := by
  induction front generalizing pending with
  | nil =>
    rw [List.nil_append, decodeFrom_cons]
    cases pending with
    | none =>
      rw [next_ascii ascii]
      rfl
    | some begun =>
      have above := high begun rfl
      have fresh : start byte.toNat = ([Char.ofNat byte.toNat], none) := next_ascii ascii
      unfold next resume
      dsimp only
      rw [if_neg (by omega), fresh]
      rfl
  | cons first front ih =>
    rw [List.cons_append, decodeFrom_cons, decodeFrom_cons, ih (low_next first.toNat high),
      List.append_assoc]

theorem decode_concat {byte : UInt8} (ascii : byte.toNat < 0x80) (front : Bytes) :
    decode (front ++ [byte]) = decode front ++ [byteChar byte] :=
  decodeFrom_concat ascii front fun _ none => absurd none (Option.not_mem_none _)

/-- A byte that yields nothing begins or continues a character. -/
theorem isSome_next {pending : Option Pending} (silent : (next pending byte).1 = []) :
    (next pending byte).2.isSome = true := by
  cases pending with
  | none =>
    unfold next start at silent ⊢
    dsimp only at silent ⊢
    split at silent
    · cases silent
    · rename_i above
      rw [if_neg above]
      split at silent
      · rfl
      · cases silent
  | some begun =>
    unfold next resume at silent ⊢
    dsimp only at silent ⊢
    split at silent
    · rename_i range
      rw [if_pos range]
      split at silent
      · cases silent
      · rename_i more
        rw [if_neg more]
        rfl
    · cases silent

/-- The bytes in front yield characters of their own, and if they yield none then one has
begun. -/
theorem decodeFrom_append (front : Bytes) :
    ∃ chars begun, (∀ rest, decodeFrom pending (front ++ rest) = chars ++ decodeFrom begun rest) ∧
      (chars = [] → front ≠ [] ∨ pending.isSome = true → begun.isSome = true) := by
  induction front generalizing pending with
  | nil =>
    refine ⟨[], pending, fun rest => rfl, ?_⟩
    rintro - (nonempty | already)
    · exact absurd rfl nonempty
    · exact already
  | cons byte front ih =>
    obtain ⟨chars, begun, splits, goes⟩ := ih (next pending byte.toNat).2
    refine ⟨(next pending byte.toNat).1 ++ chars, begun, ?_, ?_⟩
    · intro rest
      rw [List.cons_append, decodeFrom_cons, splits, List.append_assoc]
    · intro silent _
      obtain ⟨one, more⟩ := List.append_eq_nil_iff.mp silent
      exact goes more (.inr (isSome_next one))

theorem decodeFrom_ne_nil (something : bytes ≠ [] ∨ pending.isSome = true) :
    decodeFrom pending bytes ≠ [] := by
  obtain ⟨chars, begun, splits, goes⟩ := decodeFrom_append pending bytes
  have ends := splits []
  rw [List.append_nil] at ends
  intro silent
  rw [ends, List.append_eq_nil_iff] at silent
  have last := silent.2
  unfold decodeFrom at last
  rw [if_pos (goes silent.1 something)] at last
  cases last

/-- An encoded character that is cut short is replaced. -/
theorem decode_cut {char : Char} {back : Bytes} (whole : String.utf8EncodeChar char = front ++ back)
    (some_front : front ≠ []) (some_back : back ≠ []) : decode front = [replacement] := by
  obtain ⟨chars, begun, splits, goes⟩ := decodeFrom_append none front
  have one := decodeFrom_encodeChar char []
  rw [whole, List.append_nil, splits] at one
  have silent : chars = [] := by
    cases chars with
    | nil => rfl
    | cons first rest =>
      have behind := (List.append_eq_nil_iff.mp (List.cons.inj one).2).2
      exact absurd behind (decodeFrom_ne_nil begun (.inl some_back))
  have ends := splits []
  rw [List.append_nil, silent] at ends
  unfold decode
  rw [ends]
  unfold decodeFrom
  rw [if_pos (goes silent (.inl some_front)), List.nil_append]

/-- Encoded text that is cut anywhere is a part of the text, and a replacement where the cut
goes through a character. -/
theorem decode_take_encode (chars : List Char) (count : Nat) :
    ∃ kept lost broken, chars = kept ++ lost ∧ decode ((encode chars).take count) = kept ++ broken ∧
      (count < (encode chars).length → lost ≠ []) ∧ ∀ char ∈ broken, char = replacement := by
  induction chars generalizing count with
  | nil => exact ⟨[], [], [], rfl, by simp [decode, decodeFrom], by simp, by simp⟩
  | cons char chars ih =>
    rw [encode_cons]
    by_cases short : count < (String.utf8EncodeChar char).length
    · rw [List.take_append_of_le_length (Nat.le_of_lt short)]
      by_cases empty : count = 0
      · exact ⟨[], char :: chars, [], rfl, by simp [empty, decode, decodeFrom], by simp, by simp⟩
      · refine ⟨[], char :: chars, [replacement], rfl, ?_, by simp, by simp⟩
        apply decode_cut (List.take_append_drop count _).symm
        · simp [empty, String.utf8EncodeChar_ne_nil]
        · simpa using short
    · obtain ⟨kept, lost, broken, parts, reads, loses, replaced⟩ :=
        ih (count - (String.utf8EncodeChar char).length)
      refine ⟨char :: kept, lost, broken, by rw [parts, List.cons_append], ?_, ?_, replaced⟩
      · have first := decode_encode_append [char]
          ((encode chars).take (count - (String.utf8EncodeChar char).length))
        rw [encode_cons, encode_nil, List.append_nil, reads] at first
        rw [List.take_append, List.take_of_length_le (Nat.le_of_not_lt short), first,
          List.singleton_append, List.cons_append]
      · intro within
        rw [List.length_append] at within
        exact loses (by omega)

def Begins (bytes : Bytes) : Prop := ∃ char, String.utf8EncodeChar char <+: bytes

theorem begins_ascii {byte : UInt8} (ascii : byte.toNat < 0x80) (rest : Bytes) :
    Begins (byte :: rest) := by
  refine ⟨byteChar byte, rest, ?_⟩
  rw [encodeChar_ascii (by rwa [toNat_byteChar]), charByte_byteChar]
  rfl

/-- Only one character can stand at the front. -/
theorem encodeChar_append_inj {left right : Char} {back : Bytes}
    (same : String.utf8EncodeChar left ++ front = String.utf8EncodeChar right ++ back) :
    left = right ∧ front = back := by
  have first := decodeFrom_encodeChar left front
  rw [same, decodeFrom_encodeChar] at first
  obtain ⟨rfl, -⟩ := List.cons.inj first
  exact ⟨rfl, List.append_cancel_left same⟩

/-- What a decoder that replaces may answer: each character that is encoded, in order, and at
least one replacement for each run of bytes where none begins. Before such a byte the run may
have been replaced `already`. -/
inductive Lossy : Bool → Bytes → List Char → Prop where
  | nil {already : Bool} : Lossy already [] []
  | char {already : Bool} {rest : Bytes} {text : List Char} (char : Char)
      (later : Lossy false rest text) :
      Lossy already (String.utf8EncodeChar char ++ rest) (char :: text)
  | replaced {already : Bool} {byte : UInt8} {rest : Bytes} {text : List Char}
      (invalid : ¬Begins (byte :: rest)) (later : Lossy true rest text) :
      Lossy already (byte :: rest) (replacement :: text)
  | skipped {byte : UInt8} {rest : Bytes} {text : List Char}
      (invalid : ¬Begins (byte :: rest)) (later : Lossy true rest text) :
      Lossy true (byte :: rest) text

namespace Lossy

variable {already : Bool} {bytes : Bytes} {text : List Char}

/-- Nothing is lost of what is well formed. -/
theorem encode {chars : List Char} (lossy : Lossy already (encode chars) text) : text = chars := by
  induction chars generalizing already text with
  | nil =>
    generalize whole : Utf8.encode [] = bytes at lossy
    cases lossy with
    | nil => rfl
    | char char later =>
      exact absurd (List.append_eq_nil_iff.mp whole.symm).1 (encodeChar_ne char)
    | replaced => cases whole
    | skipped => cases whole
  | cons first chars ih =>
    have begins : Begins (Utf8.encode (first :: chars)) := ⟨first, Utf8.encode chars, rfl⟩
    generalize whole : Utf8.encode (first :: chars) = bytes at lossy begins
    cases lossy with
    | nil => exact absurd whole (by simp [encode_eq_nil])
    | char char later =>
      obtain ⟨rfl, rfl⟩ := encodeChar_append_inj ((encode_cons first chars).symm.trans whole)
      rw [ih later]
    | replaced invalid => exact absurd begins invalid
    | skipped invalid => exact absurd begins invalid

/-- Every ASCII byte is there, in order. -/
theorem ascii (lossy : Lossy already bytes text) :
    ((bytes.filter fun byte => byte ≤ 0x7f).map byteChar).Sublist text := by
  have outside {byte : UInt8} {rest : Bytes} (invalid : ¬Begins (byte :: rest)) :
      ¬byte ≤ 0x7f := by
    intro small
    exact invalid (begins_ascii (Nat.lt_succ_of_le (UInt8.le_iff_toNat_le.mp small)) rest)
  induction lossy with
  | nil => exact List.Sublist.slnil
  | @char _ rest text char later ih =>
    rw [List.filter_append]
    obtain ⟨small, own⟩ | ⟨-, high⟩ := encodeChar_cases char
    · have kept : (charByte char ≤ 0x7f) := by
        rw [UInt8.le_iff_toNat_le, toNat_charByte small]
        exact Nat.le_of_lt_succ small
      rw [own, List.filter_singleton, decide_eq_true kept]
      simpa [byteChar_charByte small] using ih
    · have none_kept : (String.utf8EncodeChar char).filter (fun byte => byte ≤ 0x7f) = [] := by
        rw [List.filter_eq_nil_iff]
        intro byte member
        rw [decide_eq_true_eq, UInt8.le_iff_toNat_le]
        exact Nat.not_le.mpr (Nat.lt_of_lt_of_le (by decide) (high byte member))
      rw [none_kept]
      exact ih.cons _
  | replaced invalid later ih =>
    rw [List.filter_cons_of_neg (by simpa using outside invalid)]
    exact ih.cons _
  | skipped invalid later ih =>
    rw [List.filter_cons_of_neg (by simpa using outside invalid)]
    exact ih

/-- What an answer says apart from replacements it says behind a byte that begins nothing. -/
theorem behind {byte : UInt8} {rest : Bytes} (lossy : Lossy already (byte :: rest) text)
    (invalid : ¬Begins (byte :: rest)) : ∃ later, Lossy true rest later ∧
      text.filter (· ≠ replacement) = later.filter (· ≠ replacement) := by
  generalize whole : byte :: rest = bytes at lossy
  cases lossy with
  | nil => cases whole
  | char char later => exact absurd ⟨char, _, whole.symm⟩ invalid
  | replaced _ later =>
    cases whole
    exact ⟨_, later, by simp⟩
  | skipped _ later =>
    cases whole
    exact ⟨_, later, rfl⟩

/-- What two answers say apart from replacements is the same. -/
theorem same {other : List Char} {early : Bool} (lossy : Lossy already bytes text)
    (also : Lossy early bytes other) :
    text.filter (· ≠ replacement) = other.filter (· ≠ replacement) := by
  induction lossy generalizing early other with
  | nil =>
    generalize whole : ([] : Bytes) = bytes at also
    cases also with
    | nil => rfl
    | char char _ => exact absurd (List.append_eq_nil_iff.mp whole.symm).1 (encodeChar_ne char)
    | replaced => cases whole
    | skipped => cases whole
  | @char _ rest text char later ih =>
    generalize whole : String.utf8EncodeChar char ++ rest = bytes at also
    cases also with
    | nil => exact absurd (List.append_eq_nil_iff.mp whole).1 (encodeChar_ne char)
    | char _ behind =>
      obtain ⟨rfl, rfl⟩ := encodeChar_append_inj whole
      rw [List.filter_cons, List.filter_cons, ih behind]
    | replaced invalid => exact absurd ⟨char, rest, whole⟩ invalid
    | skipped invalid => exact absurd ⟨char, rest, whole⟩ invalid
  | replaced invalid later ih =>
    obtain ⟨rest, behind, tells⟩ := also.behind invalid
    rw [tells, ← ih behind]
    simp
  | skipped invalid later ih =>
    obtain ⟨rest, behind, tells⟩ := also.behind invalid
    rw [tells, ih behind]

/-- There is an answer for any bytes. -/
theorem exists_text (already : Bool) (bytes : Bytes) : ∃ text, Lossy already bytes text := by
  induction count : bytes.length using Nat.strongRecOn generalizing already bytes with
  | ind count ih =>
    cases bytes with
    | nil => exact ⟨[], .nil⟩
    | cons byte rest =>
      by_cases begins : Begins (byte :: rest)
      · obtain ⟨char, rest, whole⟩ := begins
        have size := congrArg List.length whole
        have some_byte := List.length_pos_of_ne_nil (encodeChar_ne char)
        rw [List.length_append, count] at size
        obtain ⟨text, lossy⟩ := ih rest.length (by omega) false rest rfl
        rw [← whole]
        exact ⟨char :: text, .char char lossy⟩
      · obtain ⟨text, lossy⟩ := ih rest.length (by rw [← count, List.length_cons]; omega) true rest rfl
        exact ⟨replacement :: text, .replaced begins lossy⟩

/-- Behind a run that was replaced an answer may say nothing but the characters that begin. -/
theorem exists_skipping (bytes : Bytes) : ∃ text, Lossy true bytes text ∧
    ((∀ back, back <:+ bytes → ¬Begins back) → text = []) ∧
    (∀ back, back <:+ bytes → Begins back → ∃ char ∈ text,
      (String.utf8EncodeChar char).length ≤ bytes.length) := by
  induction bytes with
  | nil =>
    refine ⟨[], .nil, fun _ => rfl, ?_⟩
    rintro back ends ⟨char, begins⟩
    rw [List.suffix_nil] at ends
    rw [ends, List.prefix_nil] at begins
    exact absurd begins (encodeChar_ne char)
  | cons byte rest ih =>
    by_cases begins : Begins (byte :: rest)
    · obtain ⟨char, more, whole⟩ := begins
      obtain ⟨text, lossy⟩ := exists_text false more
      refine ⟨char :: text, whole ▸ .char char lossy, ?_, ?_⟩
      · intro none_begins
        exact absurd ⟨char, more, whole⟩ (none_begins _ (List.suffix_refl _))
      · intro back _ _
        refine ⟨char, by simp, ?_⟩
        rw [← whole, List.length_append]
        exact Nat.le_add_right _ _
    · obtain ⟨text, lossy, silent, tells⟩ := ih
      refine ⟨text, .skipped begins lossy, ?_, ?_⟩
      · intro none_begins
        exact silent fun back ends => none_begins back (ends.trans (List.suffix_cons byte rest))
      · intro back ends starts
        obtain rfl | within := List.suffix_cons_iff.mp ends
        · exact absurd starts begins
        · obtain ⟨char, member, short⟩ := tells back within starts
          exact ⟨char, member, Nat.le_succ_of_le short⟩

end Lossy

/-- How many bytes characters take at least, in a text that replaces nothing. -/
def least (chars : List Char) : Nat :=
  chars.length + chars.countP fun char => 0x80 ≤ char.toNat

theorem least_append (front back : List Char) : least (front ++ back) = least front + least back := by
  unfold least
  rw [List.length_append, List.countP_append]
  omega

/-- One byte, and one more where a character has begun. -/
theorem least_next (byte : Nat) (clean : replacement ∉ (next pending byte).1) :
    least (next pending byte).1 + (if (next pending byte).2.isSome then 1 else 0) ≤
      1 + if pending.isSome then 1 else 0 := by
  have fromStart (clean : replacement ∉ (start byte).1) :
      least (start byte).1 + (if (start byte).2.isSome then 1 else 0) ≤ 1 := by
    unfold start at clean ⊢
    split
    · rename_i ascii
      have small : (Char.ofNat byte).toNat = byte :=
        toNat_charOfNat (.inl (Nat.lt_trans ascii (by decide)))
      simp [least, small, ascii]
    · rename_i above
      rw [if_neg above] at clean
      split
      · simp [least]
      · rename_i invalid
        rw [invalid] at clean
        simp at clean
  cases pending with
  | none => exact fromStart clean
  | some begun =>
    unfold next resume at clean ⊢
    dsimp only at clean ⊢
    split
    · split
      · have one := List.countP_le_length (p := fun char : Char => 0x80 ≤ char.toNat)
          (l := [Char.ofNat (begun.value * 64 + (byte - 0x80))])
        simp only [least, List.length_singleton, Option.isSome_none, Bool.false_eq_true, if_false,
          Option.isSome_some, if_true] at one ⊢
        omega
      · simp [least]
    · rename_i outside
      rw [if_neg outside] at clean
      simp at clean

theorem least_decodeFrom (clean : replacement ∉ decodeFrom pending bytes) :
    least (decodeFrom pending bytes) ≤ bytes.length + if pending.isSome then 1 else 0 := by
  induction bytes generalizing pending with
  | nil =>
    unfold decodeFrom at clean ⊢
    split
    · rename_i begun
      rw [if_pos begun] at clean
      simp at clean
    · exact Nat.zero_le _
  | cons byte rest ih =>
    rw [decodeFrom_cons, List.mem_append, not_or] at clean
    have first := least_next pending byte.toNat clean.1
    have later := ih _ clean.2
    rw [decodeFrom_cons, least_append, List.length_cons]
    omega

/-- Only of ASCII is each byte a character of its own. -/
theorem decode_eq_map_iff : decode bytes = bytes.map byteChar ↔ ∀ byte ∈ bytes, byte ≤ 0x7f := by
  constructor
  · intro same
    have clean : replacement ∉ decodeFrom none bytes := by
      change replacement ∉ decode bytes
      rw [same]
      intro member
      obtain ⟨byte, -, wide⟩ := List.mem_map.mp member
      have value := congrArg Char.toNat wide
      rw [toNat_byteChar] at value
      have bound := byte.toNat_lt
      rw [value] at bound
      exact absurd bound (by decide)
    have bound := least_decodeFrom none clean
    change least (decode bytes) ≤ _ at bound
    rw [same] at bound
    unfold least at bound
    rw [List.length_map, List.countP_map] at bound
    have none_wide : bytes.countP
        ((fun char : Char => decide (0x80 ≤ char.toNat)) ∘ byteChar) = 0 := by
      simp only [Option.isSome_none, Bool.false_eq_true, if_false] at bound
      omega
    intro byte member
    have small := List.countP_eq_zero.mp none_wide byte member
    simp only [Function.comp_apply, decide_eq_true_eq, toNat_byteChar] at small
    exact UInt8.le_iff_toNat_le.mpr (Nat.le_of_lt_succ (Nat.lt_of_not_le small))
  · exact decode_ascii

end Utf8

end Refyard
