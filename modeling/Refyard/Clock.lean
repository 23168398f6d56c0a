import Refyard.Foundation.IsoDate
import Mathlib.Tactic.IntervalCases

/-! The wall clock, in the one format the contract publishes. -/
namespace Refyard

/-- Days since 1970-01-01 to a civil date. The source divides with truncation,
so the two branches of `era` are kept. -/
def civilFromDays (days : Int) : Int × Int × Int :=
  let shifted := days + 719468
  let era :=
    if shifted ≥ 0 then shifted.tdiv 146097
    else (shifted - 146096).tdiv 146097
  let dayOfEra := shifted - era * 146097
  let yearOfEra :=
    (dayOfEra - dayOfEra.tdiv 1460 + dayOfEra.tdiv 36524 - dayOfEra.tdiv 146096).tdiv 365
  let year := yearOfEra + era * 400
  let dayOfYear := dayOfEra - (365 * yearOfEra + yearOfEra.tdiv 4 - yearOfEra.tdiv 100)
  let shiftedMonth := (5 * dayOfYear + 2).tdiv 153
  let day := dayOfYear - (153 * shiftedMonth + 2).tdiv 5 + 1
  let month := if shiftedMonth < 10 then shiftedMonth + 3 else shiftedMonth - 9
  (if month ≤ 2 then year + 1 else year, month, day)

/-- `{value:0width}`: the sign counts towards the width and the zeros follow it. -/
def zeroPadded (width : Nat) (value : Int) : String :=
  let digits := toString value.natAbs
  let sign := if value < 0 then "-" else ""
  sign ++ String.ofList (List.replicate (width - sign.length - digits.length) '0') ++ digits

def formatIso8601Millis (millis : Int) : String :=
  let seconds := millis / 1000
  let remainder := millis % 1000
  let days := seconds / 86400
  let secondOfDay := seconds % 86400
  let (year, month, day) := civilFromDays days
  let hour := secondOfDay / 3600
  let minute := (secondOfDay % 3600) / 60
  let second := secondOfDay % 60
  zeroPadded 4 year ++ "-" ++ zeroPadded 2 month ++ "-" ++ zeroPadded 2 day ++ "T" ++
    zeroPadded 2 hour ++ ":" ++ zeroPadded 2 minute ++ ":" ++ zeroPadded 2 second ++ "." ++
    zeroPadded 3 remainder ++ "Z"

/-! What the format tells: the date and the time of day, by the calendar. -/

def gregorianLeap (year : Int) : Bool := year % 4 = 0 ∧ (year % 100 ≠ 0 ∨ year % 400 = 0)

@[ext]
structure CivilTime where
  year : Int
  month : Nat
  day : Nat
  hour : Nat
  minute : Nat
  second : Nat
  millisecond : Nat
  inYear : 1 ≤ month ∧ month ≤ 12
  inMonth : 1 ≤ day ∧ day ≤ (IsoDate.monthLengths (gregorianLeap year)).getD (month - 1) 0
  inDay : hour < 24 ∧ minute < 60 ∧ second < 60 ∧ millisecond < 1000

namespace CivilTime

def days (time : CivilTime) : Int :=
  IsoDate.dayFromYear time.year +
    ((IsoDate.monthLengths (gregorianLeap time.year)).take (time.month - 1)).sum + (time.day - 1 : Nat)

/-- Milliseconds since 1970. -/
def sinceEpoch (time : CivilTime) : Int :=
  time.days * 86400000 +
    (time.hour * 3600000 + time.minute * 60000 + time.second * 1000 + time.millisecond : Nat)

def fields (time : CivilTime) : List Int :=
  [time.year, time.month, time.day, time.hour, time.minute, time.second, time.millisecond]

def text (time : CivilTime) : String :=
  zeroPadded 4 time.year ++ "-" ++ zeroPadded 2 time.month ++ "-" ++ zeroPadded 2 time.day ++ "T" ++
    zeroPadded 2 time.hour ++ ":" ++ zeroPadded 2 time.minute ++ ":" ++ zeroPadded 2 time.second ++
    "." ++ zeroPadded 3 time.millisecond ++ "Z"

end CivilTime

open IsoDate

theorem dayFromYear_succ (year : Int) :
    dayFromYear (year + 1) = dayFromYear year + (if gregorianLeap year then 366 else 365) := by
  have four : (year + 1 - 1969) / 4 = (year - 1969) / 4 + if year % 4 = 0 then 1 else 0 := by
    split <;> omega
  have hundred : (year + 1 - 1901) / 100 = (year - 1901) / 100 + if year % 100 = 0 then 1 else 0 := by
    split <;> omega
  have long : (year + 1 - 1601) / 400 = (year - 1601) / 400 + if year % 400 = 0 then 1 else 0 := by
    split <;> omega
  unfold gregorianLeap dayFromYear
  rw [four, hundred, long]
  simp only [decide_eq_true_eq]
  clear four hundred long
  split_ifs <;> omega

theorem isLeap_eq (year : Int) : isLeap year = gregorianLeap year := by
  unfold isLeap
  rw [dayFromYear_succ]
  cases gregorianLeap year <;> simp

theorem century_of_era {dayOfEra yearOfEra : Int} (low : 0 ≤ dayOfEra) (high : dayOfEra < 146097)
    (year : yearOfEra = (dayOfEra - dayOfEra / 1460 + dayOfEra / 36524 - dayOfEra / 146096) / 365) :
    ∃ century : Int, (century = 0 ∨ century = 1 ∨ century = 2 ∨ century = 3) ∧
      yearOfEra = (dayOfEra - dayOfEra / 1460 + century) / 365 ∧ yearOfEra / 100 = century ∧
      36524 * century ≤ dayOfEra ∧ (century ≤ 2 → dayOfEra < 36524 * (century + 1)) := by
  refine ⟨dayOfEra / 36524 - dayOfEra / 146096, ?_⟩
  have centuries : dayOfEra / 36524 = 0 ∨ dayOfEra / 36524 = 1 ∨ dayOfEra / 36524 = 2 ∨
      dayOfEra / 36524 = 3 ∨ dayOfEra / 36524 = 4 := by omega
  have last : dayOfEra / 146096 = 0 ∨ dayOfEra / 146096 = 1 := by omega
  obtain last | last := last <;> obtain century | century | century | century | century := centuries
  all_goals
    rw [last, century] at year ⊢
    omega

/-- The year of an era begins on or before the day, and ends behind it. -/
theorem yearOfEra_spec {dayOfEra yearOfEra : Int} (low : 0 ≤ dayOfEra) (high : dayOfEra < 146097)
    (year : yearOfEra = (dayOfEra - dayOfEra / 1460 + dayOfEra / 36524 - dayOfEra / 146096) / 365) :
    0 ≤ yearOfEra ∧ yearOfEra < 400 ∧ 365 * yearOfEra + yearOfEra / 4 - yearOfEra / 100 ≤ dayOfEra ∧
      dayOfEra < 365 * (yearOfEra + 1) + (yearOfEra + 1) / 4 - (yearOfEra + 1) / 100 +
        (yearOfEra + 1) / 400 := by
  obtain ⟨century, which, same, hundred, first, last⟩ := century_of_era low high year
  clear year
  obtain rfl | rfl | rfl | rfl := which
  all_goals
    have leaps : yearOfEra / 4 ≤ dayOfEra / 1460 ∧ dayOfEra / 1460 ≤ (yearOfEra + 1) / 4 := by omega
    have turn : (yearOfEra + 1) / 100 = yearOfEra / 100 ∨ (yearOfEra + 1) % 100 = 0 := by omega
    refine ⟨by omega, by omega, by omega, ?_⟩
    obtain same | turn := turn <;> omega

/-- The first of March is where the source begins its years. -/
theorem march_first (era year : Int) : dayFromYear (year + era * 400 + 1) - 306 =
    365 * year + year / 4 - year / 100 + year / 400 + era * 146097 - 719468 := by
  have four : (year + era * 400 + 1 - 1969) / 4 = year / 4 + era * 100 - 492 := by omega
  have hundred : (year + era * 400 + 1 - 1901) / 100 = year / 100 + era * 4 - 19 := by omega
  have long : (year + era * 400 + 1 - 1601) / 400 = year / 400 + era - 4 := by omega
  rw [dayFromYear, four, hundred, long]
  omega

theorem civilFromDays_march (days : Int) : ∃ year dayOfYear month : Int, 0 ≤ dayOfYear ∧
    (5 * dayOfYear + 2) / 153 = month ∧ dayFromYear (year + 1) - 306 + dayOfYear = days ∧
      days < dayFromYear (year + 1 + 1) - 306 ∧ civilFromDays days =
        (if (if month < 10 then month + 3 else month - 9) ≤ 2 then year + 1 else year,
          if month < 10 then month + 3 else month - 9, dayOfYear - (153 * month + 2) / 5 + 1) := by
  -- nothing negative is divided, but for the era
  have quot (a b : Int) (pos : 0 ≤ a) : a.tdiv b = a / b := Int.tdiv_eq_ediv_of_nonneg pos
  have floor : (if days + 719468 ≥ 0 then (days + 719468).tdiv 146097
      else (days + 719468 - 146096).tdiv 146097) = (days + 719468) / 146097 := by
    split
    · exact quot _ _ ‹_›
    · rw [Int.tdiv_eq_ediv, show Int.sign 146097 = 1 from rfl]
      omega
  unfold civilFromDays
  simp only [floor]
  clear floor
  generalize inEra : (days + 719468) / 146097 = era
  generalize shifted : days + 719468 - era * 146097 = dayOfEra
  have low : 0 ≤ dayOfEra := by omega
  have high : dayOfEra < 146097 := by omega
  rw [quot dayOfEra _ low, quot dayOfEra _ low, quot dayOfEra _ low, quot _ 365 (by omega)]
  generalize year : (dayOfEra - dayOfEra / 1460 + dayOfEra / 36524 - dayOfEra / 146096) / 365 =
    yearOfEra
  obtain ⟨first, last, begun, ends⟩ := yearOfEra_spec low high year.symm
  rw [quot yearOfEra _ first, quot yearOfEra _ first]
  generalize inYear : dayOfEra - (365 * yearOfEra + yearOfEra / 4 - yearOfEra / 100) = dayOfYear
  have pos : 0 ≤ dayOfYear := by omega
  rw [quot _ 153 (by omega), quot _ 5 (by omega)]
  refine ⟨yearOfEra + era * 400, dayOfYear, _, pos, rfl, ?_, ?_, rfl⟩
  · rw [march_first, Int.ediv_eq_zero_of_lt first last]
    omega
  · rw [show yearOfEra + era * 400 + 1 + 1 = yearOfEra + 1 + era * 400 + 1 by omega, march_first]
    omega

/-- The months from March on, as their first days are counted in the source. -/
theorem march_lengths (leap : Bool) : ∀ month < 10,
    ((monthLengths leap).take (month + 2)).sum = 59 + leap.toNat + (153 * month + 2) / 5 ∧
      (monthLengths leap).getD (month + 2) 0 =
        (153 * (month + 1) + 2) / 5 - (153 * month + 2) / 5 := by
  cases leap <;> decide

theorem dayFromYear_next (year : Int) :
    dayFromYear (year + 1) = dayFromYear year + 365 + (gregorianLeap year).toNat := by
  rw [dayFromYear_succ]
  cases gregorianLeap year
  · exact (Int.add_zero _).symm
  · exact (Int.add_assoc _ 365 1).symm

theorem civilFromDays_spec (days : Int) : ∃ (year : Int) (month day : Nat),
    civilFromDays days = (year, ((month + 1 : Nat) : Int), ((day + 1 : Nat) : Int)) ∧ month < 12 ∧
      day < (monthLengths (gregorianLeap year)).getD month 0 ∧
      dayFromYear year + ((monthLengths (gregorianLeap year)).take month).sum + day = days := by
  obtain ⟨year, dayOfYear, month, pos, divided, start, next, date⟩ := civilFromDays_march days
  have leaps := dayFromYear_next year
  have leapsNext := dayFromYear_next (year + 1)
  have most := Bool.toNat_le (gregorianLeap (year + 1))
  have low : 0 ≤ month := by omega
  have high : month ≤ 11 := by omega
  obtain ⟨place, rfl⟩ := Int.eq_ofNat_of_zero_le low
  have begins : (153 * (place : Int) + 2) / 5 = ((153 * place + 2) / 5 : Nat) := by omega
  obtain ⟨day, inMonth⟩ := Int.eq_ofNat_of_zero_le
    (show 0 ≤ dayOfYear - ((153 * place + 2) / 5 : Nat) by omega)
  rw [date, begins, inMonth]
  clear date begins
  by_cases spring : place < 10
  · obtain ⟨before, length⟩ := march_lengths (gregorianLeap year) place spring
    refine ⟨year, place + 2, day, ?_, by omega, ?_, ?_⟩
    · rw [if_pos (by omega : (place : Int) < 10), if_neg (by omega)]
      rfl
    · rw [length]
      omega
    · rw [before]
      omega
  · have last : place = 10 ∨ place = 11 := by omega
    obtain rfl | rfl := last
    · refine ⟨year + 1, 0, day, rfl, by omega, ?_, ?_⟩
      · change day < 31
        omega
      · change dayFromYear (year + 1) + (0 : Nat) + day = days
        omega
    · refine ⟨year + 1, 1, day, rfl, by omega, ?_, ?_⟩
      · change day < if gregorianLeap (year + 1) = true then 29 else 28
        cases leap : gregorianLeap (year + 1) with
        | false =>
          change day < 28
          rw [leap, Bool.toNat_false] at leapsNext
          omega
        | true =>
          change day < 29
          rw [leap, Bool.toNat_true] at leapsNext
          omega
      · change dayFromYear (year + 1) + (31 : Nat) + day = days
        omega

/-- The day and the time of day of a second. -/
theorem timeOfDay (second : Int) : ∃ h m s : Nat, second % 86400 / 3600 = h ∧
    second % 86400 % 3600 / 60 = m ∧ second % 86400 % 60 = s ∧ (h < 24 ∧ m < 60 ∧ s < 60) ∧
      second = second / 86400 * 86400 + (h * 3600 + m * 60 + s : Nat) := by
  have split := Int.mul_ediv_add_emod second 86400
  have low : 0 ≤ second % 86400 := Int.emod_nonneg second (by decide)
  have high : second % 86400 < 86400 := Int.emod_lt_of_pos second (by decide)
  generalize second % 86400 = inDay at *
  generalize second / 86400 = days at *
  obtain ⟨time, rfl⟩ := Int.eq_ofNat_of_zero_le low
  refine ⟨time / 3600, time % 3600 / 60, time % 60, rfl, rfl, rfl, ?_, ?_⟩
  · omega
  · have again : time / 3600 * 3600 + time % 3600 / 60 * 60 + time % 60 = time := by omega
    rw [again]
    omega

theorem formatIso8601Millis_civil (millis : Int) : ∃ time : CivilTime,
    formatIso8601Millis millis = time.text ∧ time.sinceEpoch = millis := by
  obtain ⟨year, month, day, date, inYear, inMonth, days⟩ := civilFromDays_spec (millis / 1000 / 86400)
  obtain ⟨h, m, s, hour, minute, second, inDay, instant⟩ := timeOfDay (millis / 1000)
  have short : day + 1 ≤ (monthLengths (gregorianLeap year)).getD (month + 1 - 1) 0 := inMonth
  obtain ⟨r, rest⟩ := Int.eq_ofNat_of_zero_le (Int.emod_nonneg millis (by decide : (1000 : Int) ≠ 0))
  have below : r < 1000 := by
    have lt := Int.emod_lt_of_pos millis (by decide : (0 : Int) < 1000)
    omega
  refine ⟨⟨year, month + 1, day + 1, h, m, s, r, ⟨Nat.le_add_left 1 month, inYear⟩,
    ⟨Nat.le_add_left 1 day, short⟩, ⟨inDay.1, inDay.2.1, inDay.2.2, below⟩⟩, ?_, ?_⟩
  · unfold formatIso8601Millis CivilTime.text
    simp only [date, hour, minute, second, rest]
  · have whole := Int.mul_ediv_add_emod millis 1000
    simp only [CivilTime.sinceEpoch, CivilTime.days, Nat.add_sub_cancel, days]
    clear date inYear inMonth days short hour minute second inDay below
    generalize millis / 1000 / 86400 = days at *
    generalize millis / 1000 = seconds at *
    omega

theorem toList_zeroPadded (width : Nat) (value : Int) :
    (zeroPadded width value).toList = (if value < 0 then ['-'] else []) ++
      (List.replicate (width - (if value < 0 then 1 else 0) - (Nat.toDigits 10 value.natAbs).length)
        '0' ++ Nat.toDigits 10 value.natAbs) := by
  unfold zeroPadded
  split
  · simp [Nat.repr_eq_ofList_toDigits]
    rfl
  · simp [Nat.repr_eq_ofList_toDigits]

theorem zeroPadded_injective {width : Nat} {first second : Int}
    (same : (zeroPadded width first).toList = (zeroPadded width second).toList) :
    first = second := by
  rw [toList_zeroPadded, toList_zeroPadded] at same
  have unsigned (count value : Nat) (rest : List Char) :
      List.replicate count '0' ++ Nat.toDigits 10 value ≠ '-' :: rest := by
    intro signed
    have member : '-' ∈ List.replicate count '0' ++ Nat.toDigits 10 value := by simp [signed]
    cases List.mem_append.mp member with
    | inl zero => exact absurd (List.eq_of_mem_replicate zero) (by decide)
    | inr digit => exact absurd (Nat.isDigit_of_mem_toDigits (by decide) (by decide) digit) (by decide)
  have read {count others value number : Nat}
      (same : List.replicate count '0' ++ Nat.toDigits 10 value =
        List.replicate others '0' ++ Nat.toDigits 10 number) : value = number := by
    have values := congrArg (fun text => Nat.ofDigitChars 10 text 0) same
    simpa [Nat.ofDigitChars_append] using values
  by_cases negative : first < 0 <;> by_cases other : second < 0
  · simp only [if_pos negative, if_pos other, List.cons_append, List.nil_append] at same
    have absolute := read (List.cons.inj same).2
    omega
  · simp only [if_pos negative, if_neg other] at same
    exact absurd same.symm (unsigned _ _ _)
  · simp only [if_neg negative, if_pos other] at same
    exact absurd same (unsigned _ _ _)
  · simp only [if_neg negative, if_neg other, List.nil_append] at same
    have absolute := read same
    omega

theorem length_zeroPadded {width value : Nat} (pos : 0 < width) (small : value < 10 ^ width) :
    (zeroPadded width value).toList.length = width := by
  have digits := (Nat.length_toDigits_le_iff (by decide) pos).mpr small
  rw [toList_zeroPadded, if_neg (by omega), if_neg (by omega)]
  simp
  omega

/-- A field of the text is told from what stands behind it. -/
theorem zeroPadded_append {width value other : Nat} {rest behind : List Char} (pos : 0 < width)
    (small : value < 10 ^ width) (smaller : other < 10 ^ width)
    (same : (zeroPadded width value).toList ++ rest = (zeroPadded width other).toList ++ behind) :
    value = other ∧ rest = behind := by
  obtain ⟨field, rest⟩ := List.append_inj same
    ((length_zeroPadded pos small).trans (length_zeroPadded pos smaller).symm)
  exact ⟨Int.ofNat_inj.mp (zeroPadded_injective field), rest⟩

namespace CivilTime

theorem day_le (time : CivilTime) : time.day ≤ 31 :=
  time.inMonth.2.trans (getD_monthLengths _ _)

def clock (time : CivilTime) : List Char :=
  '-' :: ((zeroPadded 2 time.month).toList ++ '-' :: ((zeroPadded 2 time.day).toList ++ 'T' ::
    ((zeroPadded 2 time.hour).toList ++ ':' :: ((zeroPadded 2 time.minute).toList ++ ':' ::
      ((zeroPadded 2 time.second).toList ++ '.' ::
        ((zeroPadded 3 time.millisecond).toList ++ ['Z']))))))

theorem toList_text (time : CivilTime) :
    time.text.toList = (zeroPadded 4 time.year).toList ++ time.clock := by
  simp [text, clock]

theorem length_clock (time : CivilTime) : time.clock.length = 20 := by
  have inYear := time.inYear
  have day := time.day_le
  have inDay := time.inDay
  simp only [clock, List.length_cons, List.length_append, List.length_nil]
  rw [length_zeroPadded (by decide) (by omega), length_zeroPadded (by decide) (by omega),
    length_zeroPadded (by decide) (by omega), length_zeroPadded (by decide) (by omega),
    length_zeroPadded (by decide) (by omega), length_zeroPadded (by decide) (by omega)]

theorem text_injective {first second : CivilTime} (same : first.text = second.text) :
    first = second := by
  have texts := congrArg String.toList same
  rw [toList_text, toList_text] at texts
  obtain ⟨year, clock⟩ := List.append_inj' texts (by rw [length_clock, length_clock])
  have inYear := first.inYear
  have inYear' := second.inYear
  have day := first.day_le
  have day' := second.day_le
  have inDay := first.inDay
  have inDay' := second.inDay
  obtain ⟨months, rest⟩ :=
    zeroPadded_append (by decide) (by omega) (by omega) (List.cons.inj clock).2
  obtain ⟨days, rest⟩ := zeroPadded_append (by decide) (by omega) (by omega) (List.cons.inj rest).2
  obtain ⟨hours, rest⟩ := zeroPadded_append (by decide) (by omega) (by omega) (List.cons.inj rest).2
  obtain ⟨minutes, rest⟩ :=
    zeroPadded_append (by decide) (by omega) (by omega) (List.cons.inj rest).2
  obtain ⟨seconds, rest⟩ :=
    zeroPadded_append (by decide) (by omega) (by omega) (List.cons.inj rest).2
  obtain ⟨millis, -⟩ := zeroPadded_append (by decide) (by omega) (by omega) (List.cons.inj rest).2
  exact CivilTime.ext (zeroPadded_injective year) months days hours minutes seconds millis

theorem sum_take_le (lengths : List Nat) {first second : Nat} (lt : first < second) :
    (lengths.take first).sum + lengths.getD first 0 ≤ (lengths.take second).sum := by
  induction lengths generalizing first second with
  | nil => simp
  | cons length rest ih =>
    obtain ⟨second, rfl⟩ := Nat.exists_eq_add_one_of_ne_zero (Nat.ne_zero_of_lt lt)
    cases first with
    | zero => simp
    | succ first =>
      have tail := ih (Nat.succ_lt_succ_iff.mp lt)
      simp only [List.take_succ_cons, List.sum_cons, List.getD_cons_succ]
      omega

theorem dayFromYear_mono {first second : Int} (le : first ≤ second) :
    dayFromYear first ≤ dayFromYear second := by
  unfold dayFromYear
  omega

/-- A later year, month or day is a later day. -/
theorem days_lt {first second : CivilTime} (lt : first.year < second.year ∨
    first.year = second.year ∧ (first.month < second.month ∨
      first.month = second.month ∧ first.day < second.day)) : first.days < second.days := by
  have inYear := first.inYear
  have inMonth := first.inMonth
  have begun := second.inMonth
  have low := second.inYear
  unfold days
  obtain year | ⟨year, month | ⟨month, day⟩⟩ := lt
  · have whole := sum_monthLengths first.year
    have inside := sum_take_le (monthLengths (gregorianLeap first.year)) (show first.month - 1 < 12 by omega)
    rw [List.take_of_length_le (show (monthLengths (gregorianLeap first.year)).length ≤ 12 from
      Nat.le_refl 12), ← isLeap_eq] at inside
    have mono := dayFromYear_mono (show first.year + 1 ≤ second.year by omega)
    rw [isLeap_eq] at whole inside
    omega
  · have inside := sum_take_le (monthLengths (gregorianLeap first.year))
      (show first.month - 1 < second.month - 1 by omega)
    rw [← year]
    omega
  · rw [← year, ← month]
    omega

theorem fields_lt {first second : CivilTime} (lt : first.sinceEpoch < second.sinceEpoch) :
    first.fields < second.fields := by
  have inDay := first.inDay
  have inDay' := second.inDay
  have later := @days_lt second first
  unfold sinceEpoch at lt
  simp only [fields, List.cons_lt_cons_iff, Nat.cast_lt, Nat.cast_inj, List.not_lt_nil, and_false, or_false]
  by_cases same : first.year = second.year ∧ first.month = second.month ∧ first.day = second.day
  · obtain ⟨year, month, day⟩ := same
    have level : first.days = second.days := by rw [days, days, year, month, day]
    rw [level, Int.add_lt_add_iff_left, Nat.cast_lt] at lt
    refine .inr ⟨year, .inr ⟨month, .inr ⟨day, ?_⟩⟩⟩
    clear later year month day level
    omega
  · have notLater : ¬second.days < first.days := by
      clear later same
      omega
    have dates := mt later notLater
    clear lt later notLater inDay inDay'
    omega

end CivilTime

/-- What is printed is the date and the time of day of the instant, and of no other instant; a
later instant has a later one. -/
theorem formatIso8601Millis_exact :
    (∀ millis, ∃ time : CivilTime, formatIso8601Millis millis = time.text ∧
      time.sinceEpoch = millis ∧ ∀ other : CivilTime, other.text = time.text → other = time) ∧
    Function.Injective formatIso8601Millis ∧
    ∀ first second : CivilTime, first.sinceEpoch < second.sinceEpoch → first.fields < second.fields := by
  refine ⟨fun millis => ?_, fun millis others same => ?_, fun first second => CivilTime.fields_lt⟩
  · obtain ⟨time, text, instant⟩ := formatIso8601Millis_civil millis
    exact ⟨time, text, instant, fun other same => CivilTime.text_injective same⟩
  · obtain ⟨time, text, instant⟩ := formatIso8601Millis_civil millis
    obtain ⟨other, otherText, otherInstant⟩ := formatIso8601Millis_civil others
    rw [text, otherText] at same
    rw [← instant, CivilTime.text_injective same, otherInstant]

end Refyard
