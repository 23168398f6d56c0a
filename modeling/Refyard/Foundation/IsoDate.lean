import Refyard.Foundation.Ascii
import Mathlib.Algebra.BigOperators.Group.List.Basic
import Mathlib.Algebra.GroupWithZero.Nat

/-! Points in time as ECMAScript counts and writes them: milliseconds since 1970, on the
proleptic Gregorian calendar, as far as a date goes either way. -/
namespace Refyard

structure Timestamp where
  ms : Int
  low : -8640000000000000 ≤ ms
  high : ms ≤ 8640000000000000

namespace IsoDate

def dayFromYear (year : Int) : Int :=
  365 * (year - 1970) + (year - 1969) / 4 - (year - 1901) / 100 + (year - 1601) / 400

def yearFromDay (day : Int) : Int :=
  let guess := 1970 + day * 400 / 146097
  if dayFromYear (guess + 1) ≤ day then guess + 1
  else if dayFromYear guess ≤ day then guess
  else guess - 1

def isLeap (year : Int) : Bool := dayFromYear (year + 1) - dayFromYear year = 366

def monthLengths (leap : Bool) : List Nat :=
  [31, if leap then 29 else 28, 31, 30, 31, 30, 31, 31, 30, 31, 30, 31]

def splitMonth : List Nat → Nat → Nat × Nat
  | [], day => (0, day)
  | length :: rest, day =>
      if day < length then (0, day)
      else ((splitMonth rest (day - length)).1 + 1, (splitMonth rest (day - length)).2)

def fixed : Nat → Nat → List Char
  | 0, _ => []
  | width + 1, value => fixed width (value / 10) ++ [(value % 10).digitChar]

def yearText (year : Int) : List Char :=
  if 0 ≤ year ∧ year ≤ 9999 then fixed 4 year.natAbs
  else (if year < 0 then '-' else '+') :: fixed 6 year.natAbs

def toISOString (time : Timestamp) : List Char :=
  let day := time.ms / 86400000
  let inDay := (time.ms % 86400000).toNat
  let year := yearFromDay day
  let month := splitMonth (monthLengths (isLeap year)) (day - dayFromYear year).toNat
  yearText year ++ '-' :: (fixed 2 (month.1 + 1) ++ '-' :: (fixed 2 (month.2 + 1) ++ 'T' ::
    (fixed 2 (inDay / 3600000) ++ ':' :: (fixed 2 (inDay / 60000 % 60) ++ ':' ::
      (fixed 2 (inDay / 1000 % 60) ++ '.' :: (fixed 3 (inDay % 1000) ++ ['Z']))))))

def takeDigits (width : Nat) (text : List Char) : Option (Nat × List Char) :=
  if (text.take width).length = width ∧ (text.take width).all Char.isDigit then
    some (decimalValue (text.take width), text.drop width)
  else none

def expect (char : Char) : List Char → Option (List Char)
  | [] => none
  | first :: rest => if first = char then some rest else none

def parseYear : List Char → Option (Int × List Char)
  | '+' :: rest => (takeDigits 6 rest).map fun (year, rest) => ((year : Int), rest)
  | '-' :: rest =>
      (takeDigits 6 rest).bind fun (year, rest) =>
        if year = 0 then none else some (-(year : Int), rest)
  | text => (takeDigits 4 text).map fun (year, rest) => ((year : Int), rest)

def timeClip (ms : Int) : Option Timestamp :=
  if h : -8640000000000000 ≤ ms ∧ ms ≤ 8640000000000000 then some ⟨ms, h.1, h.2⟩ else none

/-- The time value of these elements, or nothing where one is out of its range. -/
def makeTime (year : Int) (month day hour minute second ms : Nat) : Option Timestamp :=
  let lengths := monthLengths (isLeap year)
  if 1 ≤ month ∧ month ≤ 12 ∧ 1 ≤ day ∧ day ≤ lengths.getD (month - 1) 0 ∧ hour < 24 ∧
      minute < 60 ∧ second < 60 then
    let days := dayFromYear year + (lengths.take (month - 1)).sum + (day - 1 : Nat)
    timeClip (days * 86400000 + (hour * 3600000 + minute * 60000 + second * 1000 + ms : Nat))
  else none

/-- The date that a text in the format of `toISOString` names. What an engine may make of
other texts is not said. -/
def parse (text : List Char) : Option Timestamp := do
  let (year, rest) ← parseYear text
  let (month, rest) ← takeDigits 2 (← expect '-' rest)
  let (day, rest) ← takeDigits 2 (← expect '-' rest)
  let (hour, rest) ← takeDigits 2 (← expect 'T' rest)
  let (minute, rest) ← takeDigits 2 (← expect ':' rest)
  let (second, rest) ← takeDigits 2 (← expect ':' rest)
  let (ms, rest) ← takeDigits 3 (← expect '.' rest)
  let rest ← expect 'Z' rest
  if rest = [] then makeTime year month day hour minute second ms else none

theorem yearFromDay_spec (day : Int) :
    dayFromYear (yearFromDay day) ≤ day ∧ day < dayFromYear (yearFromDay day + 1) := by
  unfold yearFromDay
  dsimp only
  split
  · rename_i late
    refine ⟨late, ?_⟩
    unfold dayFromYear at late ⊢
    omega
  · rename_i early
    split
    · rename_i late
      exact ⟨late, by omega⟩
    · rename_i later
      rw [Int.sub_add_cancel]
      refine ⟨?_, by omega⟩
      unfold dayFromYear at early later ⊢
      omega

/-- The months of a year make up the year. -/
theorem sum_monthLengths (year : Int) :
    ((monthLengths (isLeap year)).sum : Int) = dayFromYear (year + 1) - dayFromYear year := by
  have either : dayFromYear (year + 1) - dayFromYear year = 365 ∨
      dayFromYear (year + 1) - dayFromYear year = 366 := by
    unfold dayFromYear
    omega
  unfold isLeap
  cases either with
  | inl common => rw [common]; rfl
  | inr leap => rw [leap]; rfl

theorem getD_monthLengths (leap : Bool) (month : Nat) : (monthLengths leap).getD month 0 ≤ 31 := by
  have months : ∀ length ∈ monthLengths leap, length ≤ 31 := by
    cases leap <;> decide
  rw [List.getD_eq_getElem?_getD]
  cases found : (monthLengths leap)[month]? with
  | none => exact Nat.zero_le _
  | some length => exact months length (List.mem_of_getElem? found)

/-- Splitting a day off the months finds the month it is in. -/
theorem splitMonth_spec {lengths : List Nat} {day : Nat} (within : day < lengths.sum) :
    (splitMonth lengths day).1 < lengths.length ∧
      (splitMonth lengths day).2 < lengths.getD (splitMonth lengths day).1 0 ∧
      (lengths.take (splitMonth lengths day).1).sum + (splitMonth lengths day).2 = day := by
  induction lengths generalizing day with
  | nil => exact absurd within (Nat.not_lt_zero day)
  | cons length rest ih =>
    unfold splitMonth
    split
    · rename_i here
      exact ⟨Nat.zero_lt_succ _, here, Nat.zero_add day⟩
    · rename_i later
      rw [List.sum_cons] at within
      obtain ⟨inside, short, sum⟩ := ih (show day - length < rest.sum by omega)
      refine ⟨Nat.succ_lt_succ inside, short, ?_⟩
      rw [List.take_succ_cons, List.sum_cons]
      omega

@[simp] theorem length_fixed (width value : Nat) : (fixed width value).length = width := by
  induction width generalizing value with
  | zero => rfl
  | succ width ih => simp [fixed, ih]

theorem isDigit_digitChar {digit : Nat} (small : digit < 10) : digit.digitChar.isDigit = true := by
  revert digit
  decide

theorem isDigit_fixed (width value : Nat) : (fixed width value).all Char.isDigit = true := by
  induction width generalizing value with
  | zero => rfl
  | succ width ih =>
    rw [fixed, List.all_append, ih, Bool.true_and, List.all_cons, List.all_nil, Bool.and_true]
    exact isDigit_digitChar (Nat.mod_lt _ (by decide))

variable {width value : Nat}

theorem decimalValue_fixed (small : value < 10 ^ width) :
    decimalValue (fixed width value) = value := by
  induction width generalizing value with
  | zero =>
    have zero : value = 0 := by omega
    rw [zero]
    rfl
  | succ width ih =>
    have front := ih (show value / 10 < 10 ^ width by omega)
    unfold decimalValue at front ⊢
    rw [fixed, Nat.ofDigitChars_append, front,
      Nat.ofDigitChars_cons_digitChar_of_lt_ten (Nat.mod_lt _ (by decide)), Nat.ofDigitChars_nil]
    omega

/-- A number of fixed width is read back from the front of a text. -/
theorem takeDigits_fixed (small : value < 10 ^ width) (rest : List Char) :
    takeDigits width (fixed width value ++ rest) = some (value, rest) := by
  have front : (fixed width value ++ rest).take width = fixed width value := by
    rw [List.take_left' (length_fixed width value)]
  have back : (fixed width value ++ rest).drop width = rest := by
    rw [List.drop_left' (length_fixed width value)]
  rw [takeDigits, front, back, if_pos ⟨length_fixed width value, isDigit_fixed width value⟩,
    decimalValue_fixed small]

theorem expect_self (char : Char) (rest : List Char) : expect char (char :: rest) = some rest :=
  if_pos rfl

/-- A number of fixed width has no sign in front. -/
theorem fixed_ne_sign {rest other : List Char} {sign : Char} (notDigit : sign.isDigit = false) :
    fixed (width + 1) value ++ rest ≠ sign :: other := by
  have numerals := isDigit_fixed (width + 1) value
  cases text : fixed (width + 1) value with
  | nil =>
    have length := length_fixed (width + 1) value
    rw [text] at length
    cases length
  | cons first more =>
    rw [text, List.all_cons, Bool.and_eq_true] at numerals
    rw [List.cons_append]
    intro same
    rw [List.cons.injEq] at same
    rw [← same.1, numerals.1] at notDigit
    cases notDigit

theorem parseYear_yearText {year : Int} (low : -1000000 < year) (high : year < 1000000)
    (rest : List Char) : parseYear (yearText year ++ rest) = some (year, rest) := by
  unfold yearText
  split
  · rename_i plain
    have read := takeDigits_fixed (show year.natAbs < 10 ^ 4 by omega) rest
    have value : (year.natAbs : Int) = year := by omega
    unfold parseYear
    split
    · rename_i same
      exact absurd same (fixed_ne_sign rfl)
    · rename_i same
      exact absurd same (fixed_ne_sign rfl)
    · rw [read, Option.map_some]
      dsimp only
      rw [value]
  · rename_i signed
    have read := takeDigits_fixed (show year.natAbs < 10 ^ 6 by omega) rest
    split
    · rename_i negative
      have value : -(year.natAbs : Int) = year := by omega
      rw [List.cons_append, parseYear, read, Option.bind_some]
      dsimp only
      rw [if_neg (by omega), value]
    · rename_i positive
      have value : (year.natAbs : Int) = year := by omega
      rw [List.cons_append, parseYear, read, Option.map_some]
      dsimp only
      rw [value]

/-- What was written as a date is read back. -/
theorem parse_toISOString (time : Timestamp) : parse (toISOString time) = some time := by
  obtain ⟨ms, low, high⟩ := time
  have bounds := yearFromDay_spec (ms / 86400000)
  unfold toISOString
  dsimp only
  generalize yearFromDay (ms / 86400000) = year at bounds
  have months := sum_monthLengths year
  generalize days : (ms / 86400000 - dayFromYear year).toNat = inYear
  obtain ⟨inside, short, sum⟩ := splitMonth_spec (show inYear < (monthLengths (isLeap year)).sum by omega)
  have longest := getD_monthLengths (isLeap year) (splitMonth (monthLengths (isLeap year)) inYear).1
  rw [show (monthLengths (isLeap year)).length = 12 from rfl] at inside
  generalize splitMonth (monthLengths (isLeap year)) inYear = month at inside short sum longest
  have clocks : ((ms % 86400000).toNat : Int) = ms % 86400000 := by omega
  generalize (ms % 86400000).toNat = clock at clocks
  have near : -1000000 < year ∧ year < 1000000 := by
    unfold dayFromYear at bounds
    omega
  have time : (dayFromYear year + ((monthLengths (isLeap year)).take month.1).sum + (month.2 : Nat)) *
      86400000 + (clock / 3600000 * 3600000 + clock / 60000 % 60 * 60000 + clock / 1000 % 60 * 1000 +
        clock % 1000 : Nat) = ms := by
    omega
  unfold parse
  simp only [parseYear_yearText near.1 near.2, Option.bind_eq_bind, Option.bind_some, expect_self,
    takeDigits_fixed (show month.1 + 1 < 10 ^ 2 by omega),
    takeDigits_fixed (show month.2 + 1 < 10 ^ 2 by omega),
    takeDigits_fixed (show clock / 3600000 < 10 ^ 2 by omega),
    takeDigits_fixed (show clock / 60000 % 60 < 10 ^ 2 by omega),
    takeDigits_fixed (show clock / 1000 % 60 < 10 ^ 2 by omega),
    takeDigits_fixed (show clock % 1000 < 10 ^ 3 by omega), if_true]
  unfold makeTime
  dsimp only
  rw [Nat.add_sub_cancel, Nat.add_sub_cancel, if_pos (by omega), time]
  exact dif_pos ⟨low, high⟩

end IsoDate
end Refyard
