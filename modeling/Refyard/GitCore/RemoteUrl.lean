import Refyard.Core.Remotes
import Refyard.Foundation.Fallible
import Refyard.Foundation.Pattern
import Refyard.Foundation.Utf16

/-! The portable core's check of a URL that stands in the configuration, and where it differs
from the host's. The portable one counts and matches sixteen-bit units. -/
namespace Refyard.GitCore
open Utf16

def isLetterUnit (unit : Nat) : Bool :=
  (0x41 ≤ unit && unit ≤ 0x5a) || (0x61 ≤ unit && unit ≤ 0x7a)

def isAlphanumericUnit (unit : Nat) : Bool := isLetterUnit unit || (0x30 ≤ unit && unit ≤ 0x39)

/-- `[A-Za-z0-9._~%+-]`. -/
def isUserUnit (unit : Nat) : Bool :=
  isAlphanumericUnit unit || ("._~%+-".toList.map Char.toNat).contains unit

/-- `[A-Za-z0-9._-]`. -/
def isHostUnit (unit : Nat) : Bool :=
  isAlphanumericUnit unit || ("._-".toList.map Char.toNat).contains unit

def isSlashUnit (unit : Nat) : Bool := unit == 0x5c || unit == 0x2f

/-- `[^\\/\u0000-\u0020]`. -/
def isShareUnit (unit : Nat) : Bool := !isSlashUnit unit && decide (0x20 < unit)

/-- `[\u0000-\u0020\u007f]`. -/
def isControlUnit (unit : Nat) : Bool := decide (unit ≤ 0x20) || unit == 0x7f

def is (char : Char) : Pattern Nat := .one fun unit => unit == char.toNat

/-- `/^(?:[A-Za-z]:[\\/]|\\\\[^\\/\u0000-\u0020]+[\\/])/`. -/
def windowsAbsolute : Pattern Nat :=
  .either (.both (.one isLetterUnit) (.both (is ':') (.one isSlashUnit)))
    (.both (is '\\') (.both (is '\\') (.both (.many isShareUnit) (.one isSlashUnit))))

/-- `/^[A-Za-z0-9._~%+-]+@[A-Za-z0-9._-]+:[^\u0000-\u0020]+$/`. -/
def scpLike : Pattern Nat :=
  .both (.many isUserUnit) (.both (is '@')
    (.both (.many isHostUnit) (.both (is ':') (.many fun unit => decide (0x20 < unit)))))

def unsafeRemoteUrlReason (value : String) : Option String :=
  let chars := value.toList
  let units := encode chars
  if units.length = 0 then some "must not be empty"
  else if 2048 < units.length then some "must not exceed 2048 characters"
  else if chars.head? = some '-' then
    some "must not start with \"-\" (it would be read as an option)"
  else if "::".toList <:+: chars then
    some "transport helper syntax (for example ext::) is not accepted"
  else if units.any isControlUnit then some "must not contain control characters or spaces"
  else if chars.head? = some '/' || windowsAbsolute.begins units then none
  else if scpLike.whole units then none
  else if "https://".toList <+: chars || "ssh://".toList <+: chars then none
  else
    some "only https:// and ssh:// URLs, scp-like remotes, or absolute local paths are accepted"

/-! The patterns in terms of characters. -/

theorem high_isLetterUnit (unit : Nat) (high : 0x80 ≤ unit) : isLetterUnit unit = false := by
  simp only [isLetterUnit, Bool.or_eq_false_iff, Bool.and_eq_false_iff, decide_eq_false_iff_not]
  omega

theorem high_isAlphanumericUnit (unit : Nat) (high : 0x80 ≤ unit) :
    isAlphanumericUnit unit = false := by
  rw [isAlphanumericUnit, high_isLetterUnit unit high, Bool.false_or, Bool.and_eq_false_iff,
    decide_eq_false_iff_not, decide_eq_false_iff_not]
  omega

theorem high_isUserUnit (unit : Nat) (high : 0x80 ≤ unit) : isUserUnit unit = false := by
  rw [isUserUnit, high_isAlphanumericUnit unit high, Bool.false_or, List.contains_eq_mem,
    decide_eq_false_iff_not]
  simp
  omega

theorem high_isHostUnit (unit : Nat) (high : 0x80 ≤ unit) : isHostUnit unit = false := by
  rw [isHostUnit, high_isAlphanumericUnit unit high, Bool.false_or, List.contains_eq_mem,
    decide_eq_false_iff_not]
  simp
  omega

theorem all_encode_ascii {test : Nat → Bool} (high : ∀ unit, 0x80 ≤ unit → test unit = false)
    (chars : List Char) : (encode chars).all test = chars.all fun char => test char.toNat :=
  all_encode (fun unit above => by rw [high unit (by omega), high 0xd800 (by decide)]) chars

theorem takes_is {char : Char} {part : List Nat} : (is char).Takes part ↔ part = [char.toNat] := by
  constructor
  · rintro ⟨unit, rfl, same⟩
    rw [beq_iff_eq.mp same]
  · rintro rfl
    exact ⟨char.toNat, rfl, beq_self_eq_true _⟩

def ScpForm (chars : List Char) : Prop :=
  ∃ user host path, chars = user ++ '@' :: (host ++ ':' :: path) ∧
    (user ≠ [] ∧ user.all (fun char => isUserUnit char.toNat) = true) ∧
    (host ≠ [] ∧ host.all (fun char => isHostUnit char.toNat) = true) ∧
    path ≠ [] ∧ path.all (fun char => decide (0x20 < char.toNat)) = true

variable {chars : List Char} {unit : Nat} {value : String} (char : Char)

theorem scpLike_iff : scpLike.whole (encode chars) = true ↔ ScpForm chars := by
  have spread (path : List Char) : (encode path).all (fun unit => decide (0x20 < unit)) =
      path.all fun char => decide (0x20 < char.toNat) :=
    all_encode (fun unit above => by
      rw [decide_eq_true (Nat.lt_of_lt_of_le (by decide) above), decide_eq_true (by decide)]) path
  rw [Pattern.whole_iff]
  constructor
  · rintro ⟨user, -, whole, ⟨someUser, users⟩, at_, -, rfl, atSign, host, -, rfl,
      ⟨someHost, hosts⟩, colon, path, rfl, colonSign, somePath, paths⟩
    rw [takes_is.mp atSign, takes_is.mp colonSign] at whole
    obtain ⟨user, behind, rfl, rfl, cut⟩ := (encode_eq_append (by decide)).mp whole
    obtain ⟨host, path, rfl, rfl, rfl⟩ := (encode_eq_append (by decide)).mp cut
    rw [all_encode_ascii high_isUserUnit] at users
    rw [all_encode_ascii high_isHostUnit] at hosts
    rw [spread] at paths
    exact ⟨user, host, path, rfl, ⟨mt encode_eq_nil.mpr someUser, users⟩,
      ⟨mt encode_eq_nil.mpr someHost, hosts⟩, mt encode_eq_nil.mpr somePath, paths⟩
  · rintro ⟨user, host, path, rfl, ⟨someUser, users⟩, ⟨someHost, hosts⟩, somePath, paths⟩
    rw [← all_encode_ascii high_isUserUnit] at users
    rw [← all_encode_ascii high_isHostUnit] at hosts
    rw [← spread] at paths
    exact ⟨encode user, encode ('@' :: (host ++ ':' :: path)), encode_append _ _,
      ⟨mt encode_eq_nil.mp someUser, users⟩, ['@'.toNat], encode (host ++ ':' :: path),
      encode_cons _ _, takes_is.mpr rfl, encode host, encode (':' :: path), encode_append _ _,
      ⟨mt encode_eq_nil.mp someHost, hosts⟩, [':'.toNat], encode path, encode_cons _ _,
      takes_is.mpr rfl, mt encode_eq_nil.mp somePath, paths⟩

def DriveForm (chars : List Char) : Prop :=
  ∃ drive slash rest, chars = drive :: ':' :: slash :: rest ∧
    isLetterUnit drive.toNat = true ∧ isSlashUnit slash.toNat = true

def ShareForm (chars : List Char) : Prop :=
  ∃ host slash rest, chars = '\\' :: '\\' :: (host ++ slash :: rest) ∧
    (host ≠ [] ∧ host.all (fun char => isShareUnit char.toNat) = true) ∧
    isSlashUnit slash.toNat = true

theorem ascii_of_isLetterUnit (letter : isLetterUnit unit = true) : unit < 0x80 := by
  by_contra above
  rw [high_isLetterUnit unit (Nat.le_of_not_lt above)] at letter
  cases letter

theorem isSlashUnit_eq : isSlashUnit unit = true ↔ unit = '\\'.toNat ∨ unit = '/'.toNat := by
  rw [isSlashUnit, Bool.or_eq_true, beq_iff_eq, beq_iff_eq]
  rfl

theorem ascii_of_isSlashUnit (slash : isSlashUnit unit = true) : unit < 0x80 := by
  obtain rfl | rfl := isSlashUnit_eq.mp slash <;> decide

theorem encode_ascii_cons {char : Char} (ascii : char.toNat < 0x80) (rest : List Char) :
    encode (char :: rest) = char.toNat :: encode rest := by
  rw [encode_cons, units_ascii ascii]
  rfl

theorem all_isShareUnit (chars : List Char) :
    (encode chars).all isShareUnit = chars.all fun char => isShareUnit char.toNat := by
  refine all_encode (fun unit above => ?_) chars
  have large : 0x5c < unit := Nat.lt_of_lt_of_le (by decide) above
  have plain : isSlashUnit unit = false := by
    rw [isSlashUnit, beq_eq_false_iff_ne.mpr (Nat.ne_of_gt large),
      beq_eq_false_iff_ne.mpr (Nat.ne_of_gt (Nat.lt_trans (by decide) large))]
    rfl
  rw [isShareUnit, plain, decide_eq_true (Nat.lt_trans (by decide) large)]
  rfl

theorem begins_drive : (Pattern.both (.one isLetterUnit) (.both (is ':') (.one isSlashUnit))).begins
        (encode chars) = true ↔ DriveForm chars := by
  rw [Pattern.begins_iff]
  constructor
  · rintro ⟨taken, rest, whole, front, back, rfl, ⟨drive, rfl, letter⟩, middle, last, rfl, colon,
      slash, rfl, slashed⟩
    rw [takes_is.mp colon] at whole
    obtain ⟨drive, behind, rfl, rfl, cut⟩ :=
      (encode_eq_cons (ascii_of_isLetterUnit letter)).mp whole
    obtain ⟨colon, behind, rfl, same, cut⟩ := (encode_eq_cons (by decide)).mp cut
    obtain ⟨slash, behind, rfl, rfl, -⟩ := (encode_eq_cons (ascii_of_isSlashUnit slashed)).mp cut
    rw [Char.toNat_inj.mp same]
    exact ⟨drive, slash, behind, rfl, letter, slashed⟩
  · rintro ⟨drive, slash, rest, rfl, letter, slashed⟩
    refine ⟨[drive.toNat, ':'.toNat, slash.toNat], encode rest, ?_, [drive.toNat],
      [':'.toNat, slash.toNat], rfl, ⟨drive.toNat, rfl, letter⟩, [':'.toNat], [slash.toNat], rfl,
      takes_is.mpr rfl, slash.toNat, rfl, slashed⟩
    rw [encode_ascii_cons (ascii_of_isLetterUnit letter), encode_ascii_cons (by decide),
      encode_ascii_cons (ascii_of_isSlashUnit slashed)]
    rfl

theorem begins_share :
    (Pattern.both (is '\\') (.both (is '\\') (.both (.many isShareUnit) (.one isSlashUnit)))).begins
        (encode chars) = true ↔ ShareForm chars := by
  rw [Pattern.begins_iff]
  constructor
  · rintro ⟨taken, rest, whole, front, back, rfl, first, middle, last, rfl, second, host, ending,
      rfl, ⟨someHost, hosts⟩, slash, rfl, slashed⟩
    rw [takes_is.mp first, takes_is.mp second] at whole
    have spelled : encode chars =
        '\\'.toNat :: '\\'.toNat :: (host ++ slash :: rest) := by
      rw [whole]
      simp
    obtain ⟨mark, others, rfl, one, behindMark⟩ := (encode_eq_cons (by decide)).mp spelled
    obtain ⟨sign, behind, rfl, two, cut⟩ := (encode_eq_cons (by decide)).mp behindMark
    obtain rfl := Char.toNat_inj.mp one
    obtain rfl := Char.toNat_inj.mp two
    obtain ⟨slash, ended, rfl⟩ : ∃ char : Char, char.toNat < 0x80 ∧ char.toNat = slash := by
      obtain rfl | rfl := isSlashUnit_eq.mp slashed
      · exact ⟨'\\', by decide, rfl⟩
      · exact ⟨'/', by decide, rfl⟩
    obtain ⟨host, behind, rfl, rfl, -⟩ := (encode_eq_append ended).mp cut
    rw [all_isShareUnit] at hosts
    exact ⟨host, slash, behind, rfl, ⟨mt encode_eq_nil.mpr someHost, hosts⟩, slashed⟩
  · rintro ⟨host, slash, rest, rfl, ⟨someHost, hosts⟩, slashed⟩
    rw [← all_isShareUnit] at hosts
    refine ⟨'\\'.toNat :: '\\'.toNat :: (encode host ++ [slash.toNat]), encode rest, ?_,
      ['\\'.toNat], '\\'.toNat :: (encode host ++ [slash.toNat]), rfl, takes_is.mpr rfl,
      ['\\'.toNat], encode host ++ [slash.toNat], rfl, takes_is.mpr rfl, encode host,
      [slash.toNat], rfl, ⟨mt encode_eq_nil.mp someHost, hosts⟩, slash.toNat, rfl, slashed⟩
    rw [encode_ascii_cons (by decide), encode_ascii_cons (by decide), encode_append,
      encode_ascii_cons (ascii_of_isSlashUnit slashed)]
    simp

theorem windowsAbsolute_iff :
    windowsAbsolute.begins (encode chars) = true ↔ DriveForm chars ∨ ShareForm chars := by
  rw [windowsAbsolute, Pattern.begins_either, Bool.or_eq_true, begins_drive, begins_share]

/-! The host's forms, in terms of the same characters. -/

theorem isAsciiAlphabetic_eq (byte : UInt8) : isAsciiAlphabetic byte = isLetterUnit byte.toNat :=
  rfl

def AnyShare (chars : List Char) : Prop := ∃ rest, rest ≠ [] ∧ chars = '\\' :: '\\' :: rest

theorem isSlash_iff {byte : UInt8} :
    (byte == 0x5c || byte == 0x2f) = true ↔ isSlashUnit byte.toNat = true := by
  rw [isSlashUnit_eq, Bool.or_eq_true, beq_iff_eq, beq_iff_eq, ← UInt8.toNat_inj, ← UInt8.toNat_inj]
  rfl

theorem host_windowsAbsolute_iff :
    Refyard.windowsAbsolute value = true ↔ DriveForm value.toList ∨ AnyShare value.toList := by
  unfold Refyard.windowsAbsolute textBytes
  constructor
  · intro absolute
    split at absolute
    · rename_i rest bytes
      obtain ⟨others, first, behindFirst⟩ := (Utf8.encode_eq_cons (by decide)).mp bytes
      obtain ⟨behind, second, rfl⟩ := (Utf8.encode_eq_cons (by decide)).mp behindFirst
      refine .inr ⟨behind, ?_, by rw [first, second]; rfl⟩
      rintro rfl
      cases absolute
    · rename_i drive slash rest bytes
      rw [Bool.and_eq_true, isAsciiAlphabetic_eq, isSlash_iff] at absolute
      have slashed := ascii_of_isSlashUnit absolute.2
      obtain ⟨others, first, behindFirst⟩ :=
        (Utf8.encode_eq_cons (ascii_of_isLetterUnit absolute.1)).mp bytes
      obtain ⟨others, rfl, behindSecond⟩ := (Utf8.encode_eq_cons (by decide)).mp behindFirst
      obtain ⟨behind, rfl, -⟩ := (Utf8.encode_eq_cons slashed).mp behindSecond
      exact .inl ⟨byteChar drive, byteChar slash, behind, first,
        by rw [toNat_byteChar]; exact absolute.1, by rw [toNat_byteChar]; exact absolute.2⟩
    · cases absolute
  · rintro (⟨drive, slash, rest, spelled, letter, slashed⟩ | ⟨rest, someRest, spelled⟩)
    · have one := ascii_of_isLetterUnit letter
      have last := ascii_of_isSlashUnit slashed
      rw [spelled, Utf8.encode_cons, Utf8.encode_cons, Utf8.encode_cons,
        Utf8.encodeChar_ascii one, Utf8.encodeChar_ascii last]
      have drives : isAsciiAlphabetic (charByte drive) = true := by
        rw [isAsciiAlphabetic_eq, toNat_charByte one]
        exact letter
      have slashes : (charByte slash == 0x5c || charByte slash == 0x2f) = true := by
        rw [isSlash_iff, toNat_charByte last]
        exact slashed
      have colon : String.utf8EncodeChar ':' = [0x3a] := by decide
      rw [colon, List.singleton_append, List.singleton_append, List.singleton_append]
      split
      · rename_i same
        cases (List.cons.inj (List.cons.inj same).2).1
      · rename_i same
        obtain ⟨rfl, behindDrive⟩ := List.cons.inj same
        obtain ⟨rfl, -⟩ := List.cons.inj (List.cons.inj behindDrive).2
        rw [drives, slashes]
        rfl
      · rename_i other
        exact (other _ _ _ rfl).elim
    · rw [spelled]
      have bytes := mt Utf8.encode_eq_nil.mp someRest
      change (!(Utf8.encode rest).isEmpty) = true
      cases encoded : Utf8.encode rest with
      | nil => exact absurd encoded bytes
      | cons byte behind => rfl

theorem isAlphanum_eq : char.isAlphanum = isAlphanumericUnit char.toNat := by
  rw [Bool.eq_iff_iff]
  delta Char.isAlphanum Char.isAlpha Char.isUpper Char.isLower Char.isDigit
  simp only [isAlphanumericUnit, isLetterUnit, Bool.or_eq_true, Bool.and_eq_true, decide_eq_true_eq]
  exact Iff.rfl

theorem contains_toNat (listed : List Char) (char : Char) :
    listed.contains char = (listed.map Char.toNat).contains char.toNat := by
  induction listed with
  | nil => rfl
  | cons other listed ih =>
    rw [List.map_cons, List.contains_cons, List.contains_cons, ih]
    congr 1
    rw [Bool.eq_iff_iff, beq_iff_eq, beq_iff_eq, Char.toNat_inj]

theorem isUserChar_eq : isUserChar char = isUserUnit char.toNat := by
  rw [isUserChar, isUserUnit, isAlphanum_eq, contains_toNat]

theorem isHostChar_eq : isHostChar char = isHostUnit char.toNat := by
  rw [isHostChar, isHostUnit, isAlphanum_eq, contains_toNat]

theorem absent_of_all {mark : Char} {test : Char → Bool} (all : chars.all test = true)
    (fails : test mark = false) : mark ∉ chars := by
  intro member
  rw [List.all_eq_true.mp all mark member] at fails
  cases fails

theorem host_scpLike_iff (plain : value.toList.any isControlOrSpace = false) :
    Refyard.scpLike value = true ↔ ScpForm value.toList := by
  have users : isUserChar = fun char => isUserUnit char.toNat := funext isUserChar_eq
  have hosts : isHostChar = fun char => isHostUnit char.toNat := funext isHostChar_eq
  unfold Refyard.scpLike ScpForm
  rw [users, hosts]
  constructor
  · intro like
    cases cut : splitOnce ':' value.toList with
    | none =>
      rw [cut] at like
      cases like
    | some found =>
      obtain ⟨userHost, path⟩ := found
      obtain ⟨-, spelled⟩ := splitOnce_eq_some.mp cut
      simp only [cut] at like
      split at like
      · cases like
      · rename_i accepted
        rw [Bool.or_eq_true, not_or, List.isEmpty_iff, List.any_eq_true] at accepted
        cases cutUser : splitOnce '@' userHost with
        | none =>
          rw [cutUser] at like
          cases like
        | some both =>
          obtain ⟨user, host⟩ := both
          obtain ⟨-, rfl⟩ := splitOnce_eq_some.mp cutUser
          simp only [cutUser, Bool.and_eq_true, Bool.not_eq_true', List.isEmpty_eq_false_iff]
            at like
          refine ⟨user, host, path, by rw [spelled]; simp, like.1, like.2, accepted.1, ?_⟩
          rw [List.all_eq_true]
          intro char member
          by_contra low
          refine accepted.2 ⟨char, member, ?_⟩
          rw [isControlOrSpace, decide_eq_true (by simpa using low)]
          rfl
  · rintro ⟨user, host, path, spelled, ⟨someUser, users⟩, ⟨someHost, hosts⟩, somePath, paths⟩
    have free : ':' ∉ user ++ '@' :: host := by
      rw [List.mem_append, List.mem_cons, not_or, not_or]
      exact ⟨absent_of_all users (by decide), by decide, absent_of_all hosts (by decide)⟩
    have cut : splitOnce ':' value.toList = some (user ++ '@' :: host, path) :=
      splitOnce_eq_some.mpr ⟨free, by rw [spelled]; simp⟩
    have cutUser : splitOnce '@' (user ++ '@' :: host) = some (user, host) :=
      splitOnce_append (absent_of_all users (by decide)) host
    have paths : path.any isControlOrSpace = false := by
      rw [spelled, List.any_append, List.any_cons, List.any_append, List.any_cons] at plain
      simp only [Bool.or_eq_false_iff] at plain
      exact plain.2.2.2.2
    simp [cut, cutUser, users, hosts, someUser, someHost, somePath, paths]

theorem length_units_le (chars : List Char) :
    (encode chars).length ≤ (Utf8.encode chars).length := by
  induction chars with
  | nil => exact Nat.le_refl 0
  | cons char rest ih =>
    rw [encode_cons, Utf8.encode_cons, List.length_append, List.length_append]
    refine Nat.add_le_add ?_ ih
    obtain ⟨-, single⟩ | ⟨large, high, low, double, -, -⟩ := units_cases char
    · rw [single]
      exact List.length_pos_of_ne_nil (Utf8.encodeChar_ne char)
    · rw [double, String.length_utf8EncodeChar]
      unfold Char.utf8Size
      have value : char.val.toNat = char.toNat := rfl
      simp only [UInt32.le_iff_toNat_le]
      split_ifs
      all_goals
        simp at *
        try omega

/-! What the two checks accept. -/

structure Harmless (value : String) : Prop where
  notOption : value.toList.head? ≠ some '-'
  notHelper : ¬ "::".toList <:+: value.toList
  plain : value.toList.any isControlOrSpace = false

def SharedForm (chars : List Char) : Prop :=
  chars.head? = some '/' ∨ (DriveForm chars ∨ ShareForm chars) ∨ ScpForm chars ∨
    "https://".toList <+: chars ∨ "ssh://".toList <+: chars

theorem not_sharedForm_nil : ¬ SharedForm [] := by
  rintro (slash | (⟨_, _, _, spelled, -⟩ | ⟨_, _, _, spelled, -⟩) | ⟨user, _, _, spelled, -⟩ |
    web | ssh)
  · cases slash
  · cases spelled
  · cases spelled
  · cases user <;> cases spelled
  · exact absurd (List.prefix_nil.mp web) (by decide)
  · exact absurd (List.prefix_nil.mp ssh) (by decide)

theorem any_isControlUnit (chars : List Char) :
    (encode chars).any isControlUnit = chars.any isControlOrSpace := by
  rw [List.any_eq_not_all_not, List.any_eq_not_all_not, all_encode fun unit above => ?_]
  · rfl
  · have high : isControlUnit unit = false := by
      rw [isControlUnit, decide_eq_false (by omega), beq_eq_false_iff_ne.mpr (by omega)]
      rfl
    rw [high]
    rfl

theorem reason_eq_none : unsafeRemoteUrlReason value = none ↔
      (encode value.toList).length ≤ 2048 ∧ Harmless value ∧ SharedForm value.toList := by
  unfold unsafeRemoteUrlReason
  simp only [refuse_eq_none, accept_eq_none, any_isControlUnit, Bool.or_eq_true,
    decide_eq_true_eq, windowsAbsolute_iff, scpLike_iff, reduceCtorEq, or_false]
  constructor
  · rintro ⟨-, short, notOption, notHelper, plain, form⟩
    exact ⟨Nat.le_of_not_lt short, ⟨notOption, notHelper, Bool.eq_false_iff.mpr plain⟩,
      or_assoc.mp form⟩
  · rintro ⟨short, ⟨notOption, notHelper, plain⟩, form⟩
    refine ⟨fun empty => ?_, Nat.not_lt_of_le short, notOption, notHelper,
      Bool.eq_false_iff.mp plain, or_assoc.mpr form⟩
    rw [encode_eq_nil.mp (List.length_eq_zero_iff.mp empty)] at form
    exact not_sharedForm_nil form

theorem host_reason_eq_none :
    Refyard.unsafeRemoteUrlReason value = none ↔ (textBytes value).length ≤ 2048 ∧ Harmless value ∧
        (SharedForm value.toList ∨ AnyShare value.toList) := by
  unfold Refyard.unsafeRemoteUrlReason remoteUrlMaxLength
  simp only [refuse_eq_none, accept_eq_none, Bool.or_eq_true, decide_eq_true_eq,
    host_windowsAbsolute_iff, reduceCtorEq, or_false]
  constructor
  · rintro ⟨-, short, notOption, notHelper, plain, form⟩
    have plain := Bool.eq_false_iff.mpr plain
    rw [host_scpLike_iff plain] at form
    refine ⟨Nat.le_of_not_lt short, ⟨notOption, notHelper, plain⟩, ?_⟩
    obtain (slash | drive | share) | like | web := form
    · exact .inl (.inl slash)
    · exact .inl (.inr (.inl (.inl drive)))
    · exact .inr share
    · exact .inl (.inr (.inr (.inl like)))
    · exact .inl (.inr (.inr (.inr web)))
  · rintro ⟨short, ⟨notOption, notHelper, plain⟩, form⟩
    rw [host_scpLike_iff plain]
    refine ⟨fun empty => ?_, Nat.not_lt_of_le short, notOption, notHelper,
      Bool.eq_false_iff.mp plain, ?_⟩
    · rw [String.isEmpty_iff.mp empty] at form
      obtain shared | ⟨rest, -, spelled⟩ := form
      · exact not_sharedForm_nil shared
      · cases spelled
    · obtain (slash | (drive | ⟨host, slash, rest, spelled, -⟩) | like | web) | share := form
      · exact .inl (.inl slash)
      · exact .inl (.inr (.inl drive))
      · exact .inl (.inr (.inr ⟨host ++ slash :: rest, by simp, spelled⟩))
      · exact .inr (.inl like)
      · exact .inr (.inr web)
      · exact .inl (.inr (.inr share))

theorem validatedRemoteUrl_ok :
    validatedRemoteUrl value = .ok () ↔ Refyard.unsafeRemoteUrlReason value = none := by
  unfold validatedRemoteUrl
  cases Refyard.unsafeRemoteUrlReason value <;> simp

def NamelessShare (chars : List Char) : Prop := AnyShare chars ∧ ¬ ShareForm chars

theorem not_sharedForm (nameless : NamelessShare chars) : ¬ SharedForm chars := by
  obtain ⟨⟨rest, -, rfl⟩, unnamed⟩ := nameless
  rintro (slash | (⟨_, _, _, spelled, -⟩ | share) | ⟨user, _, _, spelled, ⟨someUser, users⟩, -⟩ |
    web | ssh)
  · cases slash
  · cases spelled
  · exact unnamed share
  · cases user with
    | nil => exact someUser rfl
    | cons first user =>
      obtain ⟨rfl, -⟩ := List.cons.inj spelled
      exact absurd (List.mem_cons_self) (absent_of_all users (by decide))
  · exact absurd (List.cons_prefix_cons.mp web).1 (by decide)
  · exact absurd (List.cons_prefix_cons.mp ssh).1 (by decide)

/-- The portable check and the host's say the same of a URL, and accept no harm. -/
def Agree (value : String) : Prop :=
  (unsafeRemoteUrlReason value = none ↔ validatedRemoteUrl value = .ok ()) ∧
    (unsafeRemoteUrlReason value = none ∨ validatedRemoteUrl value = .ok () → Harmless value)

/-- The checks part where the host counts bytes and finds too many, and where it takes any share. -/
theorem remoteUrlChecks_agree_iff (value : String) : Agree value ↔
      ¬ (Harmless value ∧ SharedForm value.toList ∧ (encode value.toList).length ≤ 2048 ∧
          2048 < (textBytes value).length) ∧
        ¬ (Harmless value ∧ NamelessShare value.toList ∧ (textBytes value).length ≤ 2048) := by
  have shorter : (encode value.toList).length ≤ (textBytes value).length :=
    length_units_le value.toList
  rw [Agree, validatedRemoteUrl_ok, reason_eq_none, host_reason_eq_none]
  constructor
  · rintro ⟨same, -⟩
    constructor
    · rintro ⟨harmless, form, short, long⟩
      exact Nat.not_lt_of_le (same.mp ⟨short, harmless, form⟩).1 long
    · rintro ⟨harmless, nameless, short⟩
      exact not_sharedForm nameless (same.mpr ⟨short, harmless, .inr nameless.1⟩).2.2
  · rintro ⟨notLong, notNameless⟩
    refine ⟨⟨?_, ?_⟩, ?_⟩
    · rintro ⟨short, harmless, form⟩
      have fits : (textBytes value).length ≤ 2048 := by
        by_contra long
        exact notLong ⟨harmless, form, short, Nat.lt_of_not_le long⟩
      exact ⟨fits, harmless, .inl form⟩
    · rintro ⟨short, harmless, form | share⟩
      · exact ⟨Nat.le_trans shorter short, harmless, form⟩
      · by_cases named : ShareForm value.toList
        · exact ⟨Nat.le_trans shorter short, harmless, .inr (.inl (.inr named))⟩
        · exact absurd ⟨harmless, ⟨share, named⟩, short⟩ notNameless
    · rintro (accepted | accepted)
      · exact accepted.2.1
      · exact accepted.2.1

theorem remoteUrlChecks_part_at_share : ¬ Agree "\\\\x" := by
  intro agrees
  have accepted : validatedRemoteUrl "\\\\x" = .ok () := by decide
  exact absurd (agrees.1.mpr accepted) (by decide)

end Refyard.GitCore
