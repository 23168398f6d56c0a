import Refyard.Foundation.Ascii

/-! JSON text, written the way `JSON.stringify` writes it and read one character at a time.
Numbers are whole and exact, and a text with a fraction or an exponent is not read: what the
journals and events of a host hold are counts, times and sequences below 2^53. -/
namespace Refyard

inductive Json where
  | null
  | bool (value : Bool)
  | number (value : Int)
  | string (value : String)
  | array (items : List Json)
  | object (members : List (String × Json))

namespace Json

def escapeChar (char : Char) : List Char :=
  if char = '"' then ['\\', '"']
  else if char = '\\' then ['\\', '\\']
  else if char = '\x08' then ['\\', 'b']
  else if char = '\x0c' then ['\\', 'f']
  else if char = '\n' then ['\\', 'n']
  else if char = '\r' then ['\\', 'r']
  else if char = '\t' then ['\\', 't']
  else if char.toNat < 0x20 then
    ['\\', 'u', '0', '0', Nat.digitChar (char.toNat / 16), Nat.digitChar (char.toNat % 16)]
  else [char]

def quote (text : String) : List Char := '"' :: text.toList.flatMap escapeChar ++ ['"']

def intText (value : Int) : List Char :=
  if value < 0 then '-' :: (decimalText value.natAbs).toList else (decimalText value.natAbs).toList

mutual

def stringify : Json → List Char
  | .null => "null".toList
  | .bool true => "true".toList
  | .bool false => "false".toList
  | .number value => intText value
  | .string value => quote value
  | .array [] => ['[', ']']
  | .array (first :: rest) => '[' :: stringify first ++ stringifyItems rest ++ [']']
  | .object [] => ['\x7b', '\x7d']
  | .object ((key, first) :: rest) =>
      '\x7b' :: quote key ++ ':' :: stringify first ++ stringifyMembers rest ++ ['\x7d']

def stringifyItems : List Json → List Char
  | [] => []
  | item :: rest => ',' :: stringify item ++ stringifyItems rest

def stringifyMembers : List (String × Json) → List Char
  | [] => []
  | (key, value) :: rest => ',' :: quote key ++ ':' :: stringify value ++ stringifyMembers rest

end

/-- A character in sixteen-bit units, which is what an escape in JSON text names. -/
def utf16 (char : Char) : List Nat :=
  if char.toNat < 0x10000 then [char.toNat]
  else [0xd800 + (char.toNat - 0x10000) / 0x400, 0xdc00 + (char.toNat - 0x10000) % 0x400]

def unitChar (unit : Nat) : Char :=
  if unit.isValidChar then Char.ofNat unit else Char.ofNat 0xfffd

def fromUtf16 : List Nat → List Char
  | [] => []
  | [unit] => [unitChar unit]
  | high :: low :: rest =>
      if 0xd800 ≤ high ∧ high < 0xdc00 ∧ 0xdc00 ≤ low ∧ low < 0xe000 then
        Char.ofNat (0x10000 + (high - 0xd800) * 0x400 + (low - 0xdc00)) :: fromUtf16 rest
      else unitChar high :: fromUtf16 (low :: rest)

def isSpace (char : Char) : Bool := char = ' ' || char = '\t' || char = '\n' || char = '\r'

def hexValue (char : Char) : Option Nat :=
  if char.isDigit then some (char.toNat - 0x30)
  else if 'a' ≤ char ∧ char ≤ 'f' then some (char.toNat - 0x61 + 10)
  else if 'A' ≤ char ∧ char ≤ 'F' then some (char.toNat - 0x41 + 10)
  else none

/-- How far a quoted text has been read: its last character may have begun with a backslash,
or be under way in hexadecimal digits. -/
inductive Quoted where
  | plain
  | escape
  | hex (digits : List Nat)

inductive QuotedStep where
  | going (units : List Nat) (quoted : Quoted)
  | closed (text : String)

def escaped (char : Char) : Option Nat :=
  if char = '"' ∨ char = '\\' ∨ char = '/' then some char.toNat
  else if char = 'b' then some 0x08
  else if char = 'f' then some 0x0c
  else if char = 'n' then some 0x0a
  else if char = 'r' then some 0x0d
  else if char = 't' then some 0x09
  else none

def stepQuoted (units : List Nat) : Quoted → Char → Option QuotedStep
  | .plain, char =>
      if char = '"' then some (.closed (String.ofList (fromUtf16 units)))
      else if char = '\\' then some (.going units .escape)
      else if char.toNat < 0x20 then none
      else some (.going (units ++ utf16 char) .plain)
  | .escape, char =>
      if char = 'u' then some (.going units (.hex []))
      else (escaped char).map fun unit => .going (units ++ [unit]) .plain
  | .hex digits, char =>
      (hexValue char).map fun digit =>
        if digits.length = 3 then
          .going (units ++ [(digits ++ [digit]).foldl (fun unit digit => unit * 16 + digit) 0]) .plain
        else .going units (.hex (digits ++ [digit]))

inductive Word where
  | null
  | true
  | false

def Word.letters : Word → List Char
  | .null => "null".toList
  | .true => "true".toList
  | .false => "false".toList

def Word.value : Word → Json
  | .null => .null
  | .true => .bool Bool.true
  | .false => .bool Bool.false

/-- What is open around the value that is being read, innermost first. -/
inductive Frame where
  | item (before : List Json)
  | member (before : List (String × Json)) (key : String)

inductive Mode where
  | value
  | firstItem
  | firstKey
  | key (before : List (String × Json))
  | keyText (before : List (String × Json)) (units : List Nat) (quoted : Quoted)
  | colon (before : List (String × Json)) (key : String)
  | text (units : List Nat) (quoted : Quoted)
  | number (digits : List Char)
  | word (word : Word) (read : Nat)
  | after (value : Json)

structure Reading where
  stack : List Frame := []
  mode : Mode := .value

def numberValue : List Char → Option Int
  | ['-'] => none
  | '-' :: digits => some (-(decimalValue digits : Int))
  | digits => some (decimalValue digits)

def extendsNumber (digits : List Char) (char : Char) : Bool :=
  char.isDigit && digits ≠ ['0'] && digits ≠ ['-', '0']

namespace Reading

def beginValue (stack : List Frame) (char : Char) : Option Reading :=
  if char = '\x7b' then some ⟨stack, .firstKey⟩
  else if char = '[' then some ⟨stack, .firstItem⟩
  else if char = '"' then some ⟨stack, .text [] .plain⟩
  else if char = '-' ∨ char.isDigit then some ⟨stack, .number [char]⟩
  else if char = 'n' then some ⟨stack, .word .null 1⟩
  else if char = 't' then some ⟨stack, .word .true 1⟩
  else if char = 'f' then some ⟨stack, .word .false 1⟩
  else none

def stepAfter (stack : List Frame) (value : Json) (char : Char) : Option Reading :=
  if isSpace char then some ⟨stack, .after value⟩
  else
    match stack with
    | [] => none
    | .item before :: stack =>
        if char = ',' then some ⟨.item (before ++ [value]) :: stack, .value⟩
        else if char = ']' then some ⟨stack, .after (.array (before ++ [value]))⟩
        else none
    | .member before key :: stack =>
        if char = ',' then some ⟨stack, .key (before ++ [(key, value)])⟩
        else if char = '\x7d' then some ⟨stack, .after (.object (before ++ [(key, value)]))⟩
        else none

def step (reading : Reading) (char : Char) : Option Reading :=
  let stack := reading.stack
  match reading.mode with
  | .value => if isSpace char then some reading else beginValue stack char
  | .firstItem =>
      if isSpace char then some reading
      else if char = ']' then some ⟨stack, .after (.array [])⟩
      else beginValue (.item [] :: stack) char
  | .firstKey =>
      if isSpace char then some reading
      else if char = '\x7d' then some ⟨stack, .after (.object [])⟩
      else if char = '"' then some ⟨stack, .keyText [] [] .plain⟩
      else none
  | .key before =>
      if isSpace char then some reading
      else if char = '"' then some ⟨stack, .keyText before [] .plain⟩
      else none
  | .keyText before units quoted =>
      (stepQuoted units quoted char).map fun
        | .going units quoted => ⟨stack, .keyText before units quoted⟩
        | .closed key => ⟨stack, .colon before key⟩
  | .colon before key =>
      if isSpace char then some reading
      else if char = ':' then some ⟨.member before key :: stack, .value⟩
      else none
  | .text units quoted =>
      (stepQuoted units quoted char).map fun
        | .going units quoted => ⟨stack, .text units quoted⟩
        | .closed text => ⟨stack, .after (.string text)⟩
  | .number digits =>
      if extendsNumber digits char then some ⟨stack, .number (digits ++ [char])⟩
      else (numberValue digits).bind fun value => stepAfter stack (.number value) char
  | .word word read =>
      if word.letters[read]? ≠ some char then none
      else if read + 1 = word.letters.length then some ⟨stack, .after word.value⟩
      else some ⟨stack, .word word (read + 1)⟩
  | .after value => stepAfter stack value char

def run (reading : Reading) (text : List Char) : Option Reading := text.foldlM step reading

def complete (reading : Reading) : Option (List Frame × Json) :=
  match reading.mode with
  | .after value => some (reading.stack, value)
  | .number digits => (numberValue digits).map fun value => (reading.stack, .number value)
  | _ => none

end Reading

def parse (text : List Char) : Option Json :=
  match (Reading.run {} text).bind Reading.complete with
  | some ([], value) => some value
  | _ => none

end Json
end Refyard
