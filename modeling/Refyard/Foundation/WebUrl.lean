import Refyard.Foundation.Scan
import Refyard.Foundation.Utf8
import Mathlib.Data.List.DropRight

/-! Which host a web address names, as browsers read one: the scheme, what is thrown away, where
the authority ends, and what counts as a name or a number. The mapping of names that are not
plain ASCII is left open. -/
namespace Refyard.WebUrl

inductive Host where
  | domain (name : List Char)
  | ipv4 (address : Nat)
  | ipv6 (pieces : List Nat)
  deriving DecidableEq

structure Url where
  scheme : List Char
  host : Host
  deriving DecidableEq

/-! Numbers -/

def digit? (radix : Nat) (char : Char) : Option Nat :=
  let value : Option Nat :=
    if char.isDigit then some (char.toNat - '0'.toNat)
    else if 'a' ≤ char ∧ char ≤ 'f' then some (char.toNat - 'a'.toNat + 10)
    else if 'A' ≤ char ∧ char ≤ 'F' then some (char.toNat - 'A'.toNat + 10)
    else none
  value.filter (· < radix)

def number? (radix : Nat) (digits : List Char) : Option Nat :=
  digits.foldlM (fun value char => (digit? radix char).map (value * radix + ·)) 0

def ipv4Number : List Char → Option Nat
  | [] => none
  | '0' :: 'x' :: digits | '0' :: 'X' :: digits => number? 16 digits
  | '0' :: first :: digits => number? 8 (first :: digits)
  | digits => number? 10 digits

def dottedParts (text : List Char) : List (List Char) :=
  let parts := text.splitOn '.'
  if parts.getLast? = some [] then parts.dropLast else parts

def endsInNumber (domain : List Char) : Bool :=
  match (dottedParts domain).getLast? with
  | none => false
  | some last => !last.isEmpty && last.all Char.isDigit || (ipv4Number last).isSome

def parseIpv4 (domain : List Char) : Option Nat := do
  let parts := dottedParts domain
  if 4 < parts.length then none
  else
    let numbers ← parts.mapM ipv4Number
    let last ← numbers.getLast?
    let front := numbers.dropLast
    if front.any (255 < ·) ∨ 256 ^ (5 - numbers.length) ≤ last then none
    else some (front.zipIdx.foldl (fun sum (number, place) => sum + number * 256 ^ (3 - place)) last)

def embeddedIpv4 (text : List Char) : Option (List Nat) := do
  let numbers ← (text.splitOn '.').mapM fun part =>
    if part.isEmpty ∨ part.head? = some '0' ∧ part ≠ ['0'] then none
    else (number? 10 part).filter (· ≤ 255)
  match numbers with
  | [first, second, third, fourth] => some [first * 256 + second, third * 256 + fourth]
  | _ => none

/-- The pieces that are written, and how many of them stand in front of the gap. -/
def ipv6Pieces : Nat → List Nat → Option Nat → List Char → Option (List Nat × Option Nat)
  | 0, _, _, _ => none
  | _ + 1, pieces, gap, [] => some (pieces, gap)
  | fuel + 1, pieces, gap, first :: rest =>
      if pieces.length = 8 then none
      else if first = ':' then
        if gap.isSome then none
        else ipv6Pieces fuel (pieces ++ [0]) (some (pieces.length + 1)) rest
      else
        let text := first :: rest
        let digits := (text.take 4).takeWhile fun char => (digit? 16 char).isSome
        let value := (number? 16 digits).getD 0
        match text.drop digits.length with
        | [] => some (pieces ++ [value], gap)
        | mark :: behind =>
            if mark = '.' then
              if digits.isEmpty ∨ 6 < pieces.length then none
              else (embeddedIpv4 text).map fun last => (pieces ++ last, gap)
            else if mark = ':' ∧ behind ≠ [] then ipv6Pieces fuel (pieces ++ [value]) gap behind
            else none

def parseIpv6 (text : List Char) : Option (List Nat) := do
  let (pieces, gap) ← match text with
    | ':' :: ':' :: rest => ipv6Pieces (text.length + 1) [0] (some 1) rest
    | ':' :: _ => none
    | _ => ipv6Pieces (text.length + 1) [] none text
  match gap with
  | some front => some (pieces.take front ++ List.replicate (8 - pieces.length) 0 ++ pieces.drop front)
  | none => if pieces.length = 8 then some pieces else none

/-! Names -/

def escapedByte (mark high low : UInt8) : Option UInt8 := do
  let high ← digit? 16 (byteChar high)
  let low ← digit? 16 (byteChar low)
  if mark = 0x25 then some (UInt8.ofNat (high * 16 + low)) else none

def percentDecode : Bytes → Bytes
  | mark :: high :: low :: rest =>
      match escapedByte mark high low with
      | some byte => byte :: percentDecode rest
      | none => mark :: percentDecode (high :: low :: rest)
  | short => short

def forbiddenInDomain (char : Char) : Bool :=
  char.toNat ≤ 0x20 || char.toNat = 0x7f ||
    char ∈ ['#', '/', ':', '<', '>', '?', '@', '[', '\\', ']', '^', '|', '%']

/-- A name in plain ASCII without an encoded label is only put in lower case. -/
def isPlain (domain : List Char) : Bool :=
  domain.all (fun char => char.toNat < 0x80) &&
    (domain.splitOn '.').all fun label => (label.take 4).map Char.toLower ≠ "xn--".toList

def domainToAscii (uts46 : List Char → Option (List Char)) (domain : List Char) :
    Option (List Char) :=
  let result := if isPlain domain then some (domain.map Char.toLower) else uts46 domain
  result.filter fun name => !name.isEmpty && !name.any forbiddenInDomain

def parseHost (uts46 : List Char → Option (List Char)) (text : List Char) : Option Host :=
  if text.head? = some '[' then
    if text.getLast? = some ']' then (parseIpv6 (text.drop 1).dropLast).map .ipv6 else none
  else do
    let name ← domainToAscii uts46 (Utf8.decode (percentDecode (Utf8.encode text)))
    if endsInNumber name then (parseIpv4 name).map .ipv4 else some (.domain name)

/-! Addresses -/

def splitPort (inside : Bool) : List Char → List Char × Option (List Char)
  | [] => ([], none)
  | char :: rest =>
      if char = ':' ∧ inside = false then ([], some rest)
      else
        let (host, port) :=
          splitPort (if char = '[' then true else if char = ']' then false else inside) rest
        (char :: host, port)

def isPort (text : List Char) : Bool := text.all Char.isDigit && decimalValue text ≤ 65535

def hostAndPort (uts46 : List Char → Option (List Char)) (text : List Char) : Option Host :=
  let (host, port) := splitPort false text
  if host.isEmpty ∨ port.any (fun port => !isPort port) then none else parseHost uts46 host

/-- Whatever stands in front of the last at sign says who is calling, not where. -/
def authorityHost (uts46 : List Char → Option (List Char)) (authority : List Char) : Option Host :=
  match rsplitOnce '@' authority with
  | some (_, behind) => hostAndPort uts46 behind
  | none => hostAndPort uts46 authority

def isControlOrSpace (char : Char) : Bool := char.toNat ≤ 0x20

def isTabOrNewline (char : Char) : Bool := char = '\t' || char = '\n' || char = '\r'

def cleanTail (text : List Char) : List Char :=
  (text.rdropWhile isControlOrSpace).filter fun char => !isTabOrNewline char

def clean (text : List Char) : List Char := cleanTail (text.dropWhile isControlOrSpace)

def endsAuthority (char : Char) : Bool := char = '/' || char = '?' || char = '#' || char = '\\'

def authority (text : List Char) : List Char := text.takeWhile fun char => !endsAuthority char

def splitScheme (text : List Char) : Option (List Char × List Char) :=
  match splitOnce ':' text with
  | some (first :: more, rest) =>
      if first.isAlpha ∧
          more.all fun char => char.isAlphanum || char = '+' || char = '-' || char = '.' then
        some ((first :: more).map Char.toLower, rest)
      else none
  | _ => none

/-- The address of a web page, read without a base. Any other address is none. -/
def parse (uts46 : List Char → Option (List Char)) (input : List Char) : Option Url := do
  let (scheme, rest) ← splitScheme (clean input)
  if scheme = "http".toList ∨ scheme = "https".toList then
    let host ← authorityHost uts46
      (authority (rest.dropWhile fun char => char = '/' ∨ char = '\\'))
    some { scheme, host }
  else none

section
variable {uts46 : List Char → Option (List Char)} {front text : List Char}

theorem rdropWhile_append {test : Char → Bool}
    (solid : ∃ char, front.getLast? = some char ∧ test char = false) (text : List Char) :
    (front ++ text).rdropWhile test = front ++ text.rdropWhile test := by
  obtain ⟨last, ends, kept⟩ := solid
  have stays : front.reverse.dropWhile test = front.reverse := by
    cases reversed : front.reverse with
    | nil => rfl
    | cons char rest =>
      have same : some char = some last := by
        rw [← ends, ← List.head?_reverse, reversed]
        rfl
      cases same
      rw [List.dropWhile_cons_of_neg (by simp [kept])]
  unfold List.rdropWhile
  rw [List.reverse_append, List.dropWhile_append, stays]
  split
  · rename_i empty
    rw [List.isEmpty_iff.mp empty]
    simp
  · rw [List.reverse_append, List.reverse_reverse]

theorem not_isTabOrNewline {char : Char} (visible : 0x20 < char.toNat) :
    isTabOrNewline char = false := by
  unfold isTabOrNewline
  simp only [Bool.or_eq_false_iff, decide_eq_false_iff_not]
  refine ⟨⟨?_, ?_⟩, ?_⟩
  all_goals
    rintro rfl
    exact absurd visible (by decide)

/-- Visible text stays in front of what is cleaned. -/
theorem cleanTail_append (someChar : front ≠ []) (visible : ∀ char ∈ front, 0x20 < char.toNat)
    (text : List Char) : cleanTail (front ++ text) = front ++ cleanTail text := by
  have solid : ∃ char, front.getLast? = some char ∧ isControlOrSpace char = false := by
    refine ⟨front.getLast someChar, List.getLast?_eq_some_getLast someChar, ?_⟩
    have last := visible _ (List.getLast_mem someChar)
    exact decide_eq_false (Nat.not_le.mpr last)
  have kept : front.filter (fun char => !isTabOrNewline char) = front := by
    rw [List.filter_eq_self]
    intro char member
    rw [not_isTabOrNewline (visible char member)]
    rfl
  unfold cleanTail
  rw [rdropWhile_append solid text, List.filter_append, kept]

/-- Visible text that does not end the authority begins it. -/
theorem parse_http (someChar : front ≠ [])
    (plain : ∀ char ∈ front, 0x20 < char.toNat ∧ endsAuthority char = false) :
    parse uts46 ("http://".toList ++ (front ++ text)) =
      (authorityHost uts46 (front ++ authority (cleanTail text))).map (Url.mk "http".toList) := by
  have own : ∀ char ∈ "http://".toList, 0x20 < char.toNat := by simp
  have cleaned : clean ("http://".toList ++ (front ++ text)) =
      "http".toList ++ ':' :: '/' :: '/' :: (front ++ cleanTail text) := by
    have visible : ∀ char ∈ "http://".toList ++ front, 0x20 < char.toNat := by
      intro char member
      obtain first | rest := List.mem_append.mp member
      · exact own char first
      · exact (plain char rest).1
    have kept := cleanTail_append (by simp) visible text
    rw [List.append_assoc, List.append_assoc] at kept
    exact kept
  have begun : (front ++ cleanTail text).dropWhile (fun char => decide (char = '/' ∨ char = '\\')) =
      front ++ cleanTail text := by
    cases chars : front with
    | nil => exact absurd chars someChar
    | cons char rest =>
      have other := (plain char (chars ▸ List.mem_cons_self)).2
      unfold endsAuthority at other
      simp only [Bool.or_eq_false_iff, decide_eq_false_iff_not] at other
      rw [List.cons_append, List.dropWhile_cons_of_neg]
      simp [other.1.1.1, other.2]
  have ends : authority (front ++ cleanTail text) = front ++ authority (cleanTail text) := by
    refine List.takeWhile_append_of_pos fun char member => ?_
    rw [(plain char member).2]
    rfl
  have scheme : splitScheme ("http".toList ++ ':' :: '/' :: '/' :: (front ++ cleanTail text)) =
      some ("http".toList, '/' :: '/' :: (front ++ cleanTail text)) := by
    unfold splitScheme
    rw [splitOnce_append (by decide)]
    rfl
  unfold parse
  rw [cleaned, scheme]
  dsimp only [Option.bind_eq_bind, Option.bind_some]
  rw [if_pos (by decide), List.dropWhile_cons_of_pos (by decide),
    List.dropWhile_cons_of_pos (by decide), begun, ends, Option.map_eq_bind]
  rfl

theorem authorityHost_of_notMem (absent : '@' ∉ text) :
    authorityHost uts46 text = hostAndPort uts46 text := by
  have reversed : '@' ∉ text.reverse := by rwa [List.mem_reverse]
  unfold authorityHost rsplitOnce
  rw [splitOnce_of_notMem reversed]
  rfl

/-- The last at sign of what follows is the last of the whole. -/
theorem authorityHost_append (present : '@' ∈ text) :
    authorityHost uts46 (front ++ text) = authorityHost uts46 text := by
  obtain ⟨caller, behind, rfl, absent⟩ : ∃ caller behind, text = caller ++ '@' :: behind ∧
      '@' ∉ behind := by
    obtain ⟨back, caller, reversed, absent⟩ :=
      List.eq_append_cons_of_mem (List.mem_reverse.mpr present)
    refine ⟨caller.reverse, back.reverse, ?_, by rwa [List.mem_reverse]⟩
    rw [← List.reverse_reverse text, reversed]
    simp
  unfold authorityHost
  rw [← List.append_assoc, rsplitOnce_append absent, rsplitOnce_append absent]

theorem hostAndPort_of_split {host port : List Char}
    (split : splitPort false text = (host, some port)) (someChar : host ≠ []) :
    hostAndPort uts46 text = if isPort port then parseHost uts46 host else none := by
  unfold hostAndPort
  rw [split]
  cases valid : isPort port <;> simp [valid, someChar]

end
end Refyard.WebUrl
