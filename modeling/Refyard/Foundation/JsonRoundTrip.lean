import Refyard.Foundation.Json
import Refyard.Foundation.Utf8

/-! What was written as JSON is read back, and no text that was cut off within an object is
JSON. -/
namespace Refyard.Json

variable (char : Char) {rest : List Char}

theorem fromUtf16_utf16 (rest : List Nat) :
    fromUtf16 (utf16 char ++ rest) = char :: fromUtf16 rest := by
  have valid := Utf8.scalar char
  have same : Char.ofNat char.toNat = char := Char.ofNat_toNat char
  have whole : unitChar char.toNat = char := (if_pos char.valid).trans same
  unfold utf16
  generalize char.toNat = number at valid same whole
  split
  · cases rest with
    | nil => simp [fromUtf16, whole]
    | cons low rest =>
      rw [List.singleton_append, fromUtf16, if_neg (by omega), whole]
  · have joined : 0x10000 + (0xd800 + (number - 0x10000) / 0x400 - 0xd800) * 0x400 +
        (0xdc00 + (number - 0x10000) % 0x400 - 0xdc00) = number := by omega
    rw [List.cons_append, List.singleton_append, fromUtf16, if_pos (by omega), joined, same]

theorem fromUtf16_flatMap (chars : List Char) : fromUtf16 (chars.flatMap utf16) = chars := by
  induction chars with
  | nil => rfl
  | cons char rest ih => rw [List.flatMap_cons, fromUtf16_utf16, ih]

theorem digitChar_ne_zero {digit : Nat} (small : digit < 10) (positive : 0 < digit) :
    digit.digitChar ≠ '0' := by
  revert digit
  decide

/-- A number begins with no zero, unless it is zero. -/
theorem head?_toDigits {value : Nat} (positive : 0 < value) :
    ∃ first rest, Nat.toDigits 10 value = first :: rest ∧ first ≠ '0' := by
  induction value using Nat.strongRecOn with
  | ind value ih =>
    by_cases small : value < 10
    · exact ⟨value.digitChar, [], Nat.toDigits_of_lt_base small, digitChar_ne_zero small positive⟩
    · obtain ⟨first, rest, begins, nonzero⟩ := ih (value / 10) (by omega) (by omega)
      refine ⟨first, rest ++ [(value % 10).digitChar], ?_, nonzero⟩
      rw [Nat.toDigits_of_base_le (by decide) (by omega), begins, List.cons_append]

theorem hexValue_digitChar {digit : Nat} (small : digit < 16) :
    hexValue (Nat.digitChar digit) = some digit := by
  revert digit
  decide

/-- What a character is escaped to: its letter or its number behind a backslash, or itself. -/
theorem escapeChar_shape {P : List Char → Prop} (char : Char)
    (named : ∀ letter, escaped letter = some char.toNat → letter ≠ 'u' → 0x20 ≤ letter.toNat →
      char.toNat < 0x80 → P ['\\', letter])
    (control : char.toNat < 0x20 → P
      ['\\', 'u', '0', '0', Nat.digitChar (char.toNat / 16), Nat.digitChar (char.toNat % 16)])
    (plain : char ≠ '"' → char ≠ '\\' → 0x20 ≤ char.toNat → P [char]) : P (escapeChar char) := by
  have letters : ∀ own letter : Char, char = own → escaped letter = some own.toNat → letter ≠ 'u' →
      0x20 ≤ letter.toNat → own.toNat < 0x80 → P ['\\', letter] := by
    intro own letter same meaning
    rw [← same] at meaning ⊢
    exact named letter meaning
  unfold escapeChar
  refine iteInduction (fun same => letters _ _ same rfl (by decide) (by decide) (by decide))
    fun quote => ?_
  refine iteInduction (fun same => letters _ _ same rfl (by decide) (by decide) (by decide))
    fun backslash => ?_
  iterate 5
    refine iteInduction (fun same => letters _ _ same rfl (by decide) (by decide) (by decide))
      fun _ => ?_
  exact iteInduction control fun visible => plain quote backslash (Nat.le_of_not_lt visible)

namespace Reading

variable (reading : Reading)

theorem run_nil : reading.run [] = some reading := rfl

theorem run_cons (char : Char) (rest : List Char) :
    reading.run (char :: rest) = (reading.step char).bind fun next => next.run rest := rfl

theorem run_append (first second : List Char) :
    reading.run (first ++ second) = (reading.run first).bind fun next => next.run second :=
  List.foldlM_append

def Quotes (stack : List Frame) (within : List Nat → Quoted → Mode) (closes : String → Reading) :
    Prop :=
  ∀ units quoted char, step ⟨stack, within units quoted⟩ char =
    (stepQuoted units quoted char).map fun
      | .going units quoted => ⟨stack, within units quoted⟩
      | .closed text => closes text

section
variable {stack : List Frame} {within : List Nat → Quoted → Mode} {closes : String → Reading}

theorem quotes_text (stack : List Frame) :
    Quotes stack .text fun text => ⟨stack, .after (.string text)⟩ := fun _ _ _ => rfl

theorem quotes_keyText (stack : List Frame) (before : List (String × Json)) :
    Quotes stack (.keyText before) fun key => ⟨stack, .colon before key⟩ := fun _ _ _ => rfl

theorem run_escape (quotes : Quotes stack within closes) (units : List Nat) {letter : Char}
    {unit : Nat} (meaning : escaped letter = some unit) (notHex : letter ≠ 'u') :
    run ⟨stack, within units .plain⟩ ['\\', letter] =
      some ⟨stack, within (units ++ [unit]) .plain⟩ := by
  have begun : stepQuoted units .plain '\\' = some (.going units .escape) := rfl
  have ended : stepQuoted units .escape letter = some (.going (units ++ [unit]) .plain) := by
    rw [stepQuoted, if_neg notHex, meaning]
    rfl
  rw [run_cons, quotes, begun, Option.map_some, Option.bind_some, run_cons, quotes, ended]
  rfl

theorem run_hex (quotes : Quotes stack within closes) (units : List Nat) {unit : Nat}
    (small : unit < 256) : run ⟨stack, within units .plain⟩
        ['\\', 'u', '0', '0', Nat.digitChar (unit / 16), Nat.digitChar (unit % 16)] =
      some ⟨stack, within (units ++ [unit]) .plain⟩ := by
  have high := hexValue_digitChar (show unit / 16 < 16 by omega)
  have low := hexValue_digitChar (show unit % 16 < 16 by omega)
  have first : stepQuoted units .plain '\\' = some (.going units .escape) := rfl
  have second : stepQuoted units .escape 'u' = some (.going units (.hex [])) := rfl
  have third : stepQuoted units (.hex []) '0' = some (.going units (.hex [0])) := rfl
  have fourth : stepQuoted units (.hex [0]) '0' = some (.going units (.hex [0, 0])) := rfl
  have fifth : stepQuoted units (.hex [0, 0]) (Nat.digitChar (unit / 16)) =
      some (.going units (.hex [0, 0, unit / 16])) := by
    rw [stepQuoted, high]
    rfl
  have length : [0, 0, unit / 16].length = 3 := rfl
  have whole : (((0 * 16 + 0) * 16 + 0) * 16 + unit / 16) * 16 + unit % 16 = unit := by omega
  have value : ([0, 0, unit / 16] ++ [unit % 16]).foldl (fun unit digit => unit * 16 + digit) 0 =
      unit := whole
  have sixth : stepQuoted units (.hex [0, 0, unit / 16]) (Nat.digitChar (unit % 16)) =
      some (.going (units ++ [unit]) .plain) := by
    rw [stepQuoted, low, Option.map_some, if_pos length, value]
  simp only [run_cons, run_nil, quotes _ _ _, first, second, third, fourth, fifth, sixth,
    Option.map_some, Option.bind_some]

theorem run_escapeChar (quotes : Quotes stack within closes) (units : List Nat) (char : Char) :
    run ⟨stack, within units .plain⟩ (escapeChar char) =
      some ⟨stack, within (units ++ utf16 char) .plain⟩ := by
  have short : char.toNat < 0x80 → utf16 char = [char.toNat] := fun small => if_pos (by omega)
  apply escapeChar_shape char (P := fun text =>
    run ⟨stack, within units .plain⟩ text = some ⟨stack, within (units ++ utf16 char) .plain⟩)
  · intro letter meaning notHex _ small
    rw [short small]
    exact run_escape quotes units meaning notHex
  · intro control
    rw [short (by omega)]
    exact run_hex quotes units (by omega)
  · intro quote backslash visible
    have kept : stepQuoted units .plain char = some (.going (units ++ utf16 char) .plain) := by
      rw [stepQuoted, if_neg quote, if_neg backslash, if_neg (Nat.not_lt.mpr visible)]
    rw [run_cons, quotes, kept]
    rfl

theorem run_escapeChars (quotes : Quotes stack within closes) (units : List Nat)
    (chars : List Char) : run ⟨stack, within units .plain⟩ (chars.flatMap escapeChar) =
      some ⟨stack, within (units ++ chars.flatMap utf16) .plain⟩ := by
  induction chars generalizing units with
  | nil => rw [List.flatMap_nil, List.flatMap_nil, List.append_nil, run_nil]
  | cons char rest ih =>
    rw [List.flatMap_cons, run_append, run_escapeChar quotes, Option.bind_some, ih,
      List.flatMap_cons, List.append_assoc]

/-- A quoted text is read to its closing quote. -/
theorem run_quoted (quotes : Quotes stack within closes) (text : String) :
    run ⟨stack, within [] .plain⟩ (text.toList.flatMap escapeChar ++ ['"']) =
      some (closes text) := by
  have closing : stepQuoted (text.toList.flatMap utf16) .plain '"' = some (.closed text) := by
    rw [stepQuoted, if_pos rfl, fromUtf16_flatMap, String.ofList_toList]
  rw [run_append, run_escapeChars quotes, Option.bind_some, List.nil_append, run_cons, quotes,
    closing]
  rfl

def Extensible (digits : List Char) : Prop :=
  digits ≠ [] ∧ digits ≠ ['-'] ∧ digits ≠ ['0'] ∧ digits ≠ ['-', '0']

variable {digits : List Char} {char : Char} {reading next : Reading} {value : Json}

theorem Extensible.append (h : Extensible digits) (char : Char) :
    Extensible (digits ++ [char]) := by
  have shorter {other : List Char} (same : digits ++ [char] = other) : digits = other.dropLast := by
    rw [← same, List.dropLast_concat]
  exact ⟨fun same => h.1 (shorter same), fun same => h.1 (shorter same),
    fun same => h.1 (shorter same), fun same => h.2.1 (shorter same)⟩

theorem step_digit (digit : char.isDigit = true) (single : digits ≠ ['0'])
    (negative : digits ≠ ['-', '0']) :
    step ⟨stack, .number digits⟩ char = some ⟨stack, .number (digits ++ [char])⟩ := by
  simp [step, extendsNumber, digit, single, negative]

theorem run_digits {more : List Char} (numerals : ∀ char ∈ more, char.isDigit = true)
    (open_ : Extensible digits) :
    run ⟨stack, .number digits⟩ more = some ⟨stack, .number (digits ++ more)⟩ := by
  induction more generalizing digits with
  | nil => rw [List.append_nil, run_nil]
  | cons char rest ih =>
    rw [List.forall_mem_cons] at numerals
    rw [run_cons, step_digit numerals.1 open_.2.2.1 open_.2.2.2, Option.bind_some,
      ih numerals.2 (open_.append char), List.append_assoc, List.singleton_append]

theorem ne_of_isDigit (digit : char.isDigit = true) (other : Char) (differs : other.isDigit = false) :
    char ≠ other := by
  rintro rfl
  rw [digit] at differs
  cases differs

theorem isSpace_digit (digit : char.isDigit = true) : isSpace char = false := by
  simp [isSpace, ne_of_isDigit digit ' ' rfl, ne_of_isDigit digit '\t' rfl,
    ne_of_isDigit digit '\n' rfl, ne_of_isDigit digit '\r' rfl]

theorem step_value_digit (digit : char.isDigit = true) :
    step ⟨stack, .value⟩ char = some ⟨stack, .number [char]⟩ := by
  simp [step, isSpace_digit digit, beginValue, ne_of_isDigit digit '\x7b' rfl,
    ne_of_isDigit digit '[' rfl, ne_of_isDigit digit '"' rfl, digit]

/-- The number is under way until something else follows. -/
theorem run_intText (value : Int) :
    ∃ digits, run ⟨stack, .value⟩ (intText value) = some ⟨stack, .number digits⟩ ∧
      numberValue digits = some value := by
  have read := decimalValue_decimalText value.natAbs
  have numerals := isDigit_decimalText value.natAbs
  by_cases zero : value.natAbs = 0
  · have none : value = 0 := Int.natAbs_eq_zero.mp zero
    rw [none]
    exact ⟨['0'], rfl, rfl⟩
  · obtain ⟨first, rest, begins, nonzero⟩ := head?_toDigits (Nat.pos_of_ne_zero zero)
    rw [← toList_decimalText] at begins
    rw [begins] at read numerals
    rw [List.forall_mem_cons] at numerals
    have minus : first ≠ '-' := ne_of_isDigit numerals.1 '-' rfl
    unfold intText
    rw [begins]
    split
    · rename_i negative
      have begun : step ⟨stack, .value⟩ '-' = some ⟨stack, .number ['-']⟩ := rfl
      have next : step ⟨stack, .number ['-']⟩ first = some ⟨stack, .number ['-', first]⟩ :=
        step_digit numerals.1 (by decide) (by decide)
      have extensible : Extensible ['-', first] := by simp [Extensible, nonzero]
      refine ⟨'-' :: first :: rest, ?_, ?_⟩
      · rw [run_cons, begun, Option.bind_some, run_cons, next, Option.bind_some]
        exact run_digits numerals.2 extensible
      · rw [numberValue, read]
        · congr 1
          omega
        · simp
    · rename_i positive
      have extensible : Extensible [first] := by simp [Extensible, nonzero, minus]
      refine ⟨first :: rest, ?_, ?_⟩
      · rw [run_cons, step_value_digit numerals.1, Option.bind_some]
        exact run_digits numerals.2 extensible
      · rw [numberValue, read]
        · congr 1
          omega
        · simp [minus]
        · simp [minus]

/-- A complete value is followed by what may follow it. -/
theorem step_complete (complete : reading.complete = some (stack, value))
    (notDigit : char.isDigit = false) : reading.step char = stepAfter stack value char := by
  obtain ⟨opened, mode⟩ := reading
  cases mode with
  | after found =>
    cases complete
    rfl
  | number digits =>
    simp only [Reading.complete, Option.map_eq_some_iff, Prod.mk.injEq] at complete
    obtain ⟨number, read, rfl, rfl⟩ := complete
    simp [step, extendsNumber, notDigit, read]
  | _ => cases complete

theorem head_intText (value : Int) :
    ∃ first rest, intText value = first :: rest ∧ isSpace first = false ∧ first ≠ ']' := by
  unfold intText
  split
  · exact ⟨_, _, rfl, rfl, by decide⟩
  · cases text : (decimalText value.natAbs).toList with
    | nil => exact absurd text (decimalText_ne value.natAbs)
    | cons first rest =>
      have digit := isDigit_decimalText value.natAbs first (text ▸ List.mem_cons_self)
      exact ⟨first, rest, rfl, isSpace_digit digit, ne_of_isDigit digit ']' rfl⟩

/-- The text of a value begins with neither space nor a closing bracket. -/
theorem head_stringify (value : Json) :
    ∃ first rest, stringify value = first :: rest ∧ isSpace first = false ∧ first ≠ ']' := by
  match value with
  | .null => exact ⟨_, _, rfl, rfl, by decide⟩
  | .bool true => exact ⟨_, _, rfl, rfl, by decide⟩
  | .bool false => exact ⟨_, _, rfl, rfl, by decide⟩
  | .number whole => exact head_intText whole
  | .string text => exact ⟨_, _, rfl, rfl, by decide⟩
  | .array [] => exact ⟨_, _, rfl, rfl, by decide⟩
  | .array (first :: rest) => exact ⟨_, _, rfl, rfl, by decide⟩
  | .object [] => exact ⟨_, _, rfl, rfl, by decide⟩
  | .object ((key, first) :: rest) => exact ⟨_, _, rfl, rfl, by decide⟩

theorem run_firstItem (value : Json) :
    run ⟨stack, .firstItem⟩ (stringify value) = run ⟨.item [] :: stack, .value⟩ (stringify value) := by
  obtain ⟨first, rest, begins, space, bracket⟩ := head_stringify value
  rw [begins, run_cons, run_cons]
  simp [step, space, bracket]

/-- A key and its colon lead to the value of the member. -/
theorem run_member {reading : Reading} {before : List (String × Json)}
    (opens : reading.step '"' = some ⟨stack, .keyText before [] .plain⟩) (key : String)
    (rest : List Char) :
    run reading (quote key ++ ':' :: rest) = run ⟨.member before key :: stack, .value⟩ rest := by
  have colon : step ⟨stack, .colon before key⟩ ':' = some ⟨.member before key :: stack, .value⟩ :=
    rfl
  rw [quote, List.cons_append, List.cons_append, run_cons, opens, Option.bind_some, run_append,
    run_quoted (quotes_keyText stack before), Option.bind_some, run_cons, colon, Option.bind_some]

mutual

/-- What was written is read back where a value is expected. -/
theorem run_stringify (stack : List Frame) (value : Json) :
    ∃ reading, run ⟨stack, .value⟩ (stringify value) = some reading ∧
      reading.complete = some (stack, value) := by
  match value with
  | .null =>
    rw [stringify, String.toList_ofList]
    exact ⟨_, rfl, rfl⟩
  | .bool true =>
    rw [stringify, String.toList_ofList]
    exact ⟨_, rfl, rfl⟩
  | .bool false =>
    rw [stringify, String.toList_ofList]
    exact ⟨_, rfl, rfl⟩
  | .number whole =>
    obtain ⟨digits, ran, read⟩ := @run_intText stack whole
    exact ⟨_, ran, congrArg (Option.map fun value => (stack, Json.number value)) read⟩
  | .string text =>
    refine ⟨_, run_quoted (quotes_text stack) text, rfl⟩
  | .array [] => exact ⟨_, rfl, rfl⟩
  | .array (first :: rest) =>
    obtain ⟨reading, ran, read⟩ := run_stringify (.item [] :: stack) first
    have items := run_stringifyItems stack [] first rest reading read
    refine ⟨⟨stack, .after (.array (first :: rest))⟩, ?_, rfl⟩
    have opened : step ⟨stack, .value⟩ '[' = some ⟨stack, .firstItem⟩ := rfl
    rw [stringify, List.cons_append, List.cons_append, run_cons, opened, Option.bind_some,
      List.append_assoc, run_append, run_firstItem, ran]
    exact items
  | .object [] => exact ⟨_, rfl, rfl⟩
  | .object ((key, first) :: rest) =>
    obtain ⟨reading, ran, read⟩ := run_stringify (.member [] key :: stack) first
    have members := run_stringifyMembers stack [] key first rest reading read
    refine ⟨⟨stack, .after (.object ((key, first) :: rest))⟩, ?_, rfl⟩
    have opened : step ⟨stack, .value⟩ '\x7b' = some ⟨stack, .firstKey⟩ := rfl
    have named := @run_member stack ⟨stack, .firstKey⟩ [] rfl key
    rw [stringify, List.cons_append, List.cons_append, List.cons_append, run_cons, opened,
      Option.bind_some, List.append_assoc, List.append_assoc, List.cons_append, named,
      run_append, ran]
    exact members

theorem run_stringifyItems (stack : List Frame) (before : List Json) (last : Json)
    (items : List Json) (reading : Reading)
    (complete : reading.complete = some (.item before :: stack, last)) :
    run reading (stringifyItems items ++ [']']) =
      some ⟨stack, .after (.array (before ++ last :: items))⟩ := by
  match items with
  | [] =>
    rw [stringifyItems, List.nil_append, run_cons, step_complete complete rfl]
    rfl
  | item :: rest =>
    obtain ⟨next, ran, read⟩ := run_stringify (.item (before ++ [last]) :: stack) item
    have behind := run_stringifyItems stack (before ++ [last]) item rest next read
    have comma : reading.step ',' = some ⟨.item (before ++ [last]) :: stack, .value⟩ :=
      step_complete complete rfl
    rw [stringifyItems, List.cons_append, List.cons_append, run_cons, comma, Option.bind_some,
      List.append_assoc, run_append, ran, Option.bind_some, behind, List.append_assoc,
      List.singleton_append]

theorem run_stringifyMembers (stack : List Frame) (before : List (String × Json)) (key : String)
    (last : Json) (members : List (String × Json)) (reading : Reading)
    (complete : reading.complete = some (.member before key :: stack, last)) :
    run reading (stringifyMembers members ++ ['\x7d']) =
      some ⟨stack, .after (.object (before ++ (key, last) :: members))⟩ := by
  match members with
  | [] =>
    rw [stringifyMembers, List.nil_append, run_cons, step_complete complete rfl]
    rfl
  | (nextKey, value) :: rest =>
    obtain ⟨next, ran, read⟩ :=
      run_stringify (.member (before ++ [(key, last)]) nextKey :: stack) value
    have behind := run_stringifyMembers stack (before ++ [(key, last)]) nextKey value rest next read
    have comma : reading.step ',' = some ⟨stack, .key (before ++ [(key, last)])⟩ :=
      step_complete complete rfl
    have named := @run_member stack ⟨stack, .key (before ++ [(key, last)])⟩ _ rfl nextKey
    rw [stringifyMembers, List.cons_append, List.cons_append, List.cons_append, run_cons, comma,
      Option.bind_some, List.append_assoc, List.append_assoc, List.cons_append, named,
      run_append, ran, Option.bind_some, behind, List.append_assoc, List.singleton_append]

end

/-- Nothing is open, and what has been read is whole or a number. -/
def Closed (reading : Reading) : Prop :=
  reading.stack = [] ∧ ((∃ value, reading.mode = .after value) ∨ ∃ digits, reading.mode = .number digits)

theorem closed_of_complete (complete : reading.complete = some ([], value)) : reading.Closed := by
  obtain ⟨opened, mode⟩ := reading
  cases mode with
  | after found =>
    cases complete
    exact ⟨rfl, .inl ⟨value, rfl⟩⟩
  | number digits =>
    simp only [Reading.complete, Option.map_eq_some_iff, Prod.mk.injEq] at complete
    obtain ⟨whole, read, rfl, rfl⟩ := complete
    exact ⟨rfl, .inr ⟨digits, rfl⟩⟩
  | _ => cases complete

theorem stepAfter_nil (stepped : stepAfter [] value char = some next) :
    next.Closed ∧ isSpace char = true := by
  unfold stepAfter at stepped
  split at stepped
  · rename_i space
    cases stepped
    exact ⟨⟨rfl, .inl ⟨value, rfl⟩⟩, space⟩
  · cases stepped

theorem Closed.step (closed : reading.Closed) (stepped : reading.step char = some next) :
    next.Closed ∧ (isSpace char = true ∨ char.isDigit = true) := by
  obtain ⟨stack, mode⟩ := reading
  obtain ⟨rfl, ⟨value, rfl⟩ | ⟨digits, rfl⟩⟩ := closed
  · obtain ⟨after, space⟩ := stepAfter_nil stepped
    exact ⟨after, .inl space⟩
  · simp only [Reading.step] at stepped
    split at stepped
    · rename_i extends_
      cases stepped
      simp only [extendsNumber, Bool.and_eq_true] at extends_
      exact ⟨⟨rfl, .inr ⟨_, rfl⟩⟩, .inr extends_.1.1⟩
    · obtain ⟨value, -, stepped⟩ := Option.bind_eq_some_iff.mp stepped
      obtain ⟨after, space⟩ := stepAfter_nil stepped
      exact ⟨after, .inl space⟩

/-- Behind a value in nothing, only space and more digits are read. -/
theorem Closed.run {last : Reading} (closed : reading.Closed) {rest : List Char}
    (ran : reading.run rest = some last) :
    ∀ char ∈ rest, isSpace char = true ∨ char.isDigit = true := by
  induction rest generalizing reading with
  | nil => simp
  | cons char rest ih =>
    obtain ⟨next, stepped, ran⟩ := Option.bind_eq_some_iff.mp ran
    obtain ⟨after, read⟩ := closed.step stepped
    rw [List.forall_mem_cons]
    exact ⟨read, ih after ran⟩

theorem ne_of_not_ascii (large : 0x80 ≤ char.toNat) (other : Char) (ascii : other.toNat < 0x80) :
    char ≠ other := by
  rintro rfl
  omega

theorem isSpace_of_not_ascii (large : 0x80 ≤ char.toNat) : isSpace char = false := by
  have differs := ne_of_not_ascii large
  simp [isSpace, differs ' ' (by decide), differs '\t' (by decide), differs '\n' (by decide),
    differs '\r' (by decide)]

theorem isDigit_of_not_ascii (large : 0x80 ≤ char.toNat) : char.isDigit = false := by
  cases digit : char.isDigit with
  | false => rfl
  | true =>
    have small := (toNat_of_isDigit digit).2
    omega

theorem beginValue_of_not_ascii (large : 0x80 ≤ char.toNat) : beginValue stack char = none := by
  have differs := ne_of_not_ascii large
  simp [beginValue, differs '\x7b' (by decide), differs '[' (by decide), differs '"' (by decide),
    differs '-' (by decide), differs 'n' (by decide), differs 't' (by decide),
    differs 'f' (by decide), isDigit_of_not_ascii large]

theorem stepAfter_of_not_ascii (large : 0x80 ≤ char.toNat) : stepAfter stack value char = none := by
  have differs := ne_of_not_ascii large
  unfold stepAfter
  rw [isSpace_of_not_ascii large]
  cases stack with
  | nil => rfl
  | cons frame rest =>
    cases frame <;>
      simp [differs ',' (by decide), differs ']' (by decide), differs '\x7d' (by decide)]

theorem stepQuoted_of_not_ascii {units : List Nat} {quoted : Quoted} (large : 0x80 ≤ char.toNat)
    {text : String} : stepQuoted units quoted char ≠ some (.closed text) := by
  cases quoted with
  | plain =>
    rw [stepQuoted, if_neg (ne_of_not_ascii large '"' (by decide))]
    split
    · simp
    · split <;> simp
  | escape =>
    rw [stepQuoted]
    split <;> simp
  | hex digits =>
    intro same
    obtain ⟨digit, -, closed⟩ := Option.map_eq_some_iff.mp same
    split at closed <;> cases closed

theorem word_ascii (word : Word) : ∀ char ∈ word.letters, char.toNat < 0x80 := by
  have all : word.letters.all (fun char => char.toNat < 0x80) = true := by cases word <;> decide
  simpa using all

/-- A character beyond ASCII completes nothing. -/
theorem complete_of_not_ascii (large : 0x80 ≤ char.toNat) (stepped : reading.step char = some next) :
    next.complete = none := by
  have differs := ne_of_not_ascii large
  have space := isSpace_of_not_ascii large
  obtain ⟨stack, mode⟩ := reading
  cases mode with
  | value => simp [Reading.step, space, beginValue_of_not_ascii large] at stepped
  | firstItem =>
    simp [Reading.step, space, differs ']' (by decide), beginValue_of_not_ascii large] at stepped
  | firstKey =>
    simp [Reading.step, space, differs '\x7d' (by decide), differs '"' (by decide)] at stepped
  | key before => simp [Reading.step, space, differs '"' (by decide)] at stepped
  | keyText before units quoted =>
    simp only [Reading.step, Option.map_eq_some_iff] at stepped
    obtain ⟨result, -, rfl⟩ := stepped
    cases result <;> rfl
  | colon before key => simp [Reading.step, space, differs ':' (by decide)] at stepped
  | text units quoted =>
    simp only [Reading.step, Option.map_eq_some_iff] at stepped
    obtain ⟨result, read, rfl⟩ := stepped
    cases result with
    | going => rfl
    | closed text => exact absurd read (stepQuoted_of_not_ascii large)
  | number digits =>
    simp [Reading.step, extendsNumber, isDigit_of_not_ascii large,
      stepAfter_of_not_ascii large] at stepped
  | word word read =>
    simp only [Reading.step] at stepped
    split at stepped
    · cases stepped
    · rename_i spelled
      have ascii := word_ascii word char (List.mem_of_getElem? (not_not.mp spelled))
      omega
  | after value =>
    simp only [Reading.step, stepAfter_of_not_ascii large] at stepped
    cases stepped

end
end Reading

/-- What was written is read back. -/
theorem parse_stringify (value : Json) : parse (stringify value) = some value := by
  obtain ⟨reading, ran, complete⟩ := Reading.run_stringify [] value
  rw [parse, ran, Option.bind_some, complete]

theorem stringify_object_ends (members : List (String × Json)) :
    ∃ front, stringify (.object members) = front ++ ['\x7d'] := by
  cases members with
  | nil => exact ⟨['\x7b'], rfl⟩
  | cons member rest => exact ⟨_, rfl⟩

/-- The text of an object, cut off anywhere before its end, is not JSON, whatever it may end
in beyond ASCII. -/
theorem parse_cut {members : List (String × Json)} {kept lost broken : List Char}
    (cut : stringify (.object members) = kept ++ lost) (short : lost ≠ [])
    (garbled : ∀ char ∈ broken, 0x80 ≤ char.toNat) : parse (kept ++ broken) = none := by
  have unread : ∀ value,
      (Reading.run {} (kept ++ broken)).bind Reading.complete ≠ some ([], value) := by
    intro value whole
    obtain ⟨reading, ran, complete⟩ := Option.bind_eq_some_iff.mp whole
    rcases List.eq_nil_or_concat broken with rfl | ⟨front, last, rfl⟩
    · -- the whole text would have to go on with space, and ends in a bracket
      obtain ⟨final, whole, -⟩ := Reading.run_stringify [] (.object members)
      obtain ⟨front, ends⟩ := stringify_object_ends members
      have bracket : '\x7d' ∈ lost := by
        have last : lost.getLast short = '\x7d' := by
          have both := cut.symm.trans ends
          rw [← List.getLast_append_of_ne_nil (l := kept) (by simp [short]) short]
          simp [both]
        exact last ▸ List.getLast_mem short
      rw [List.append_nil] at ran
      rw [cut, Reading.run_append, ran, Option.bind_some] at whole
      have read := (Reading.closed_of_complete complete).run whole _ bracket
      exact absurd read (by decide)
    · rw [List.concat_eq_append, ← List.append_assoc, Reading.run_append] at ran
      obtain ⟨before, -, stepped⟩ := Option.bind_eq_some_iff.mp ran
      obtain ⟨next, stepped, same⟩ := Option.bind_eq_some_iff.mp stepped
      cases same
      have large := garbled last (by simp)
      rw [Reading.complete_of_not_ascii large stepped] at complete
      cases complete
  unfold parse
  split
  · rename_i value read
    exact absurd read (unread value)
  · rfl

/-! No two texts are written alike. -/

/-- The first character of a quoted text, and what stands behind it. -/
def readEscaped : List Char → Option (Char × List Char)
  | '\\' :: 'u' :: _ :: _ :: high :: low :: rest =>
      (hexValue high).bind fun high => (hexValue low).map fun low =>
        (Char.ofNat (high * 16 + low), rest)
  | '\\' :: letter :: rest => (escaped letter).map fun unit => (Char.ofNat unit, rest)
  | char :: rest => some (char, rest)
  | [] => none

theorem readEscaped_escapeChar (rest : List Char) :
    readEscaped (escapeChar char ++ rest) = some (char, rest) := by
  apply escapeChar_shape char (P := fun text => readEscaped (text ++ rest) = some (char, rest))
  · intro letter meaning notHex _ _
    change readEscaped ('\\' :: letter :: rest) = _
    unfold readEscaped
    split
    · next h => exact absurd (List.cons.inj (List.cons.inj h).2).1 notHex
    · next h =>
      cases h
      rw [meaning, Option.map_some, Char.ofNat_toNat]
    · next plain h =>
      exact (plain letter rest (List.cons.inj h).1.symm (List.cons.inj h).2.symm).elim
    · next h => cases h
  · intro control
    have high := hexValue_digitChar (show char.toNat / 16 < 16 by omega)
    have low := hexValue_digitChar (show char.toNat % 16 < 16 by omega)
    have whole : char.toNat / 16 * 16 + char.toNat % 16 = char.toNat := by omega
    change (hexValue _).bind _ = _
    rw [high, Option.bind_some, low, Option.map_some, whole, Char.ofNat_toNat]
    rfl
  · intro _ backslash _
    rw [List.singleton_append]
    unfold readEscaped
    split
    · next h => exact absurd (List.cons.inj h).1 backslash
    · next h => exact absurd (List.cons.inj h).1 backslash
    · next h =>
      cases h
      rfl
    · next h => cases h

theorem head_escapeChar : ∃ first rest, escapeChar char = first :: rest ∧ first ≠ '"' := by
  apply escapeChar_shape char (P := fun text => ∃ first rest, text = first :: rest ∧ first ≠ '"')
  · intro letter _ _ _ _
    exact ⟨_, _, rfl, by decide⟩
  · intro _
    exact ⟨_, _, rfl, by decide⟩
  · intro quote _ _
    exact ⟨_, _, rfl, quote⟩

/-- A quoted text tells where it ends. -/
theorem quoted_append_inj {first second behind : List Char}
    (same : first.flatMap escapeChar ++ '"' :: behind = second.flatMap escapeChar ++ '"' :: rest) :
    first = second ∧ behind = rest := by
  induction first generalizing second with
  | nil =>
    cases second with
    | nil => exact ⟨rfl, (List.cons.inj same).2⟩
    | cons char more =>
      obtain ⟨letter, letters, begins, other⟩ := head_escapeChar char
      rw [List.flatMap_cons, begins] at same
      exact absurd (List.cons.inj same).1.symm other
  | cons char more ih =>
    cases second with
    | nil =>
      obtain ⟨letter, letters, begins, other⟩ := head_escapeChar char
      rw [List.flatMap_cons, begins] at same
      exact absurd (List.cons.inj same).1 other
    | cons own others =>
      rw [List.flatMap_cons, List.flatMap_cons, List.append_assoc, List.append_assoc] at same
      have read := congrArg readEscaped same
      rw [readEscaped_escapeChar, readEscaped_escapeChar, Option.some_inj, Prod.mk.injEq] at read
      obtain ⟨rfl, later⟩ := read
      obtain ⟨rfl, tails⟩ := ih later
      exact ⟨rfl, tails⟩

/-- So does a quoted text within its quotes. -/
theorem quote_append_inj {first second : String} {behind : List Char}
    (same : quote first ++ behind = quote second ++ rest) : first = second ∧ behind = rest := by
  unfold quote at same
  rw [List.append_assoc, List.append_assoc] at same
  obtain ⟨chars, tails⟩ := quoted_append_inj (List.cons.inj same).2
  exact ⟨String.toList_injective chars, tails⟩

theorem intText_injective : Function.Injective intText := by
  intro first second same
  have texts : stringify (.number first) = stringify (.number second) := same
  have read := congrArg parse texts
  rw [parse_stringify, parse_stringify, Option.some_inj] at read
  exact Json.number.inj read

/-! What may stand in a line. -/

def Printable (text : List Char) : Prop := ∀ char ∈ text, 0x20 ≤ char.toNat

theorem printable_append {front back : List Char} (first : Printable front)
    (second : Printable back) : Printable (front ++ back) := by
  intro char member
  rw [List.mem_append] at member
  exact member.elim (first char) (second char)

theorem printable_cons {char : Char} (first : 0x20 ≤ char.toNat) (second : Printable rest) :
    Printable (char :: rest) :=
  printable_append (by simpa [Printable] using first : Printable [char]) second

theorem printable_escapeChar : Printable (escapeChar char) := by
  have digits : ∀ digit < 16, 0x20 ≤ (Nat.digitChar digit).toNat := by decide
  have slash : 0x20 ≤ '\\'.toNat := by decide
  have none : Printable [] := nofun
  apply escapeChar_shape char
  · intro letter _ _ visible _
    exact printable_cons slash (printable_cons visible none)
  · intro control
    have high := digits (char.toNat / 16) (by omega)
    have low := digits (char.toNat % 16) (by omega)
    exact printable_cons slash (printable_cons (by decide) (printable_cons (by decide)
      (printable_cons (by decide) (printable_cons high (printable_cons low none)))))
  · intro _ _ visible
    exact printable_cons visible none

theorem printable_quote (text : String) : Printable (quote text) := by
  apply printable_cons (by decide)
  apply printable_append _ (by simp [Printable])
  intro char member
  obtain ⟨source, -, inside⟩ := List.mem_flatMap.mp member
  exact printable_escapeChar source char inside

theorem printable_intText (value : Int) : Printable (intText value) := by
  have digits : Printable (decimalText value.natAbs).toList := by
    intro char member
    have digit := toNat_of_isDigit (isDigit_decimalText _ char member)
    omega
  unfold intText
  split
  · exact printable_cons (by decide) digits
  · exact digits

mutual

theorem printable_stringify (value : Json) : Printable (stringify value) := by
  match value with
  | .null => simp [Printable, stringify]
  | .bool true => simp [Printable, stringify]
  | .bool false => simp [Printable, stringify]
  | .number whole => exact printable_intText whole
  | .string text => exact printable_quote text
  | .array [] => simp [Printable, stringify]
  | .array (first :: rest) =>
    apply printable_append
    · exact printable_cons (by decide)
        (printable_append (printable_stringify first) (printable_stringifyItems rest))
    · simp [Printable]
  | .object [] => simp [Printable, stringify]
  | .object ((key, first) :: rest) =>
    apply printable_append
    · apply printable_append
      · apply printable_append (printable_cons (by decide) (printable_quote key))
        exact printable_cons (by decide) (printable_stringify first)
      · exact printable_stringifyMembers rest
    · simp [Printable]

theorem printable_stringifyItems (items : List Json) : Printable (stringifyItems items) := by
  match items with
  | [] => simp [Printable, stringifyItems]
  | item :: rest =>
    exact printable_append (printable_cons (by decide) (printable_stringify item))
      (printable_stringifyItems rest)

theorem printable_stringifyMembers (members : List (String × Json)) :
    Printable (stringifyMembers members) := by
  match members with
  | [] => simp [Printable, stringifyMembers]
  | (key, value) :: rest =>
    apply printable_append
    · apply printable_append (printable_cons (by decide) (printable_quote key))
      exact printable_cons (by decide) (printable_stringify value)
    · exact printable_stringifyMembers rest

end

end Refyard.Json
