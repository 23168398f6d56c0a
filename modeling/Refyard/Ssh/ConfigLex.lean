import Refyard.Foundation.Scan
import Refyard.Foundation.Utf8

/-! SSH client configuration text as lines, without evaluating it. -/
namespace Refyard.Ssh

structure ConfigLine where
  /-- As written, before case folding. -/
  keyword : List Char
  arguments : List (List Char)
  /-- The line sits in a `Match` block rather than a `Host` block. -/
  inMatchBlock : Bool
  deriving DecidableEq

def eqIgnoreAsciiCase (text : List Char) (keyword : String) : Bool :=
  text.map Char.toLower = keyword.toList.map Char.toLower

/-- The unquoted arguments of a line, or nothing where a quote is not closed. `skip` passes over
a character that a backslash has brought in already. -/
def tokenizeFrom (current : List Char) (quote : Option Char) (skip : Bool) :
    List Char → Option (List (List Char))
  | [] =>
      if quote.isSome then none
      else some (if current = [] then [] else [current])
  | char :: rest =>
      if skip then tokenizeFrom current quote false rest
      else
        match quote with
        | some opened =>
            if char = '\\' ∧ (rest.head? = some opened ∨ rest.head? = some '\\') then
              tokenizeFrom (current ++ rest.head?.toList) quote true rest
            else if char = opened then tokenizeFrom current none false rest
            else tokenizeFrom (current ++ [char]) quote false rest
        | none =>
            -- a comment begins only where a token does
            if char = '#' ∧ current = [] then some []
            else if char = '"' ∨ char = '\x27' then tokenizeFrom current (some char) false rest
            else if isWhitespace char then
              (tokenizeFrom [] none false rest).map ((if current = [] then [] else [current]) ++ ·)
            else tokenizeFrom (current ++ [char]) none false rest

def tokenize (line : List Char) : Option (List (List Char)) := tokenizeFrom [] none false line

def splitKeyword (token : List Char) : List Char × Option (List Char) :=
  match splitOnce '=' token with
  | some (keyword, value) => (keyword, some value)
  | none => (token, none)

/-- Only a `=` before the first argument is a separator. -/
def dropSeparatorEquals : List (List Char) → List (List Char)
  | ['='] :: rest => rest
  | ('=' :: first) :: rest => first :: rest
  | arguments => arguments

def stripCarriageReturn (line : List Char) : List Char :=
  if line.getLast? = some '\r' then line.dropLast else line

def linesFrom (index : Nat) (inMatchBlock : Bool) : List (List Char) → Except Nat (List ConfigLine)
  | [] => .ok []
  | raw :: rest =>
      match tokenize (stripCarriageReturn raw) with
      | none => .error (index + 1)
      | some [] => linesFrom (index + 1) inMatchBlock rest
      | some (first :: others) =>
          let (keyword, attached) := splitKeyword first
          if keyword = [] then linesFrom (index + 1) inMatchBlock rest
          else
            let arguments := dropSeparatorEquals (attached.toList ++ others)
            let inMatchBlock :=
              if eqIgnoreAsciiCase keyword "host" then false
              else if eqIgnoreAsciiCase keyword "match" then true
              else inMatchBlock
            (linesFrom (index + 1) inMatchBlock rest).map ({ keyword, arguments, inMatchBlock } :: ·)

def lines (text : List Char) : Except Nat (List ConfigLine) := linesFrom 0 false (text.splitOn '\n')

/-- The pattern as a candidate name: no wildcard, no negation, no token to expand. -/
def concretePattern (pattern : List Char) : Option (List Char) :=
  if pattern = [] ∨ pattern.head? = some '!' then none
  else if '*' ∈ pattern ∨ '?' ∈ pattern ∨ '%' ∈ pattern then none
  else some pattern

structure IsKeyword (keyword : List Char) : Prop where
  someChar : keyword ≠ []
  notComment : keyword.head? ≠ some '#'
  plain : ∀ char ∈ keyword, isWhitespace char = false ∧ char ≠ '=' ∧ char ≠ '"' ∧ char ≠ '\x27'

instance (keyword : List Char) : Decidable (IsKeyword keyword) :=
  decidable_of_iff (keyword ≠ [] ∧ keyword.head? ≠ some '#' ∧ keyword.all fun char =>
      !isWhitespace char && char != '=' && char != '"' && char != '\x27') (by
    constructor
    · rintro ⟨someChar, notComment, plain⟩
      refine ⟨someChar, notComment, fun char member => ?_⟩
      simpa [and_assoc] using List.all_eq_true.mp plain char member
    · intro keyword
      refine ⟨keyword.someChar, keyword.notComment, List.all_eq_true.mpr fun char member => ?_⟩
      simpa [and_assoc] using keyword.plain char member)

/-- The ways to write an argument between quotes: the quote and the backslash may be escaped, and
a backslash need not be where nothing behind it would be. -/
inductive Quoted (quote : Char) : List Char → List Char → Prop
  | nil : Quoted quote [] []
  | escaped {char : Char} {argument inner : List Char} (escapes : char = quote ∨ char = '\\')
      (rest : Quoted quote argument inner) :
      Quoted quote (char :: argument) ('\\' :: char :: inner)
  | plain {char : Char} {argument inner : List Char} (other : char ≠ quote) (solid : char ≠ '\\')
      (rest : Quoted quote argument inner) : Quoted quote (char :: argument) (char :: inner)
  | backslash {char : Char} {argument inner : List Char} (other : char ≠ quote)
      (solid : char ≠ '\\') (rest : Quoted quote argument (char :: inner)) :
      Quoted quote ('\\' :: argument) ('\\' :: char :: inner)

structure QuotedArgument where
  argument : List Char
  quote : Char
  inner : List Char
  someChar : argument ≠ []
  oneLine : '\n' ∉ argument
  isQuote : quote = '"' ∨ quote = '\x27'
  quoted : Quoted quote argument inner

def QuotedArgument.text (written : QuotedArgument) : List Char :=
  written.quote :: (written.inner ++ [written.quote])

abbrev Blank := { text : List Char // ∀ char ∈ text, isWhitespace char = true ∧ char ≠ '\n' }

structure Gap where
  blank : Blank
  someChar : blank.val ≠ []

inductive Separator where
  | space (gap : Gap)
  | equals (before behind : Blank)

def Separator.text : Separator → List Char
  | .space gap => gap.blank.val
  | .equals before behind => before.val ++ '=' :: behind.val

structure WrittenLine where
  keyword : List Char
  isKeyword : IsKeyword keyword
  separator : Separator
  first : QuotedArgument
  others : List (Gap × QuotedArgument)

namespace WrittenLine

def arguments (line : WrittenLine) : List (List Char) :=
  line.first.argument :: line.others.map fun other => other.2.argument

def othersText (others : List (Gap × QuotedArgument)) : List Char :=
  others.flatMap fun other => other.1.blank.val ++ other.2.text

def text (line : WrittenLine) : List Char :=
  line.keyword ++ line.separator.text ++ line.first.text ++ othersText line.others

def Misread (line : WrittenLine) : Prop :=
  match line.separator with
  | .space _ => line.first.argument.head? = some '='
  | .equals before behind =>
      before.val = [] ∧ (behind.val ≠ [] ∨ line.first.argument.head? = some '=')

end WrittenLine

section Tokens

variable {current rest : List Char}
variable {char : Char}

theorem tokenizeFrom_plain (solid : isWhitespace char = false) (double : char ≠ '"')
    (single : char ≠ '\x27') (inside : char ≠ '#' ∨ current ≠ []) :
    tokenizeFrom current none false (char :: rest) =
      tokenizeFrom (current ++ [char]) none false rest := by
  rw [tokenizeFrom]
  simp only [Bool.false_eq_true, if_false]
  rw [if_neg (by tauto), if_neg (by tauto), if_neg (by simp [solid])]

theorem tokenizeFrom_word {word : List Char}
    (plain : ∀ char ∈ word, isWhitespace char = false ∧ char ≠ '"' ∧ char ≠ '\x27')
    (inside : word.head? ≠ some '#' ∨ current ≠ []) :
    tokenizeFrom current none false (word ++ rest) =
      tokenizeFrom (current ++ word) none false rest := by
  induction word generalizing current with
  | nil => rw [List.append_nil, List.nil_append]
  | cons char word ih =>
    obtain ⟨solid, double, single⟩ := plain char List.mem_cons_self
    rw [List.cons_append, tokenizeFrom_plain solid double single, ih, List.append_assoc]
    · rfl
    · exact fun other member => plain other (List.mem_cons_of_mem _ member)
    · exact .inr (by simp)
    · simpa using inside

theorem tokenizeFrom_skip {quote : Option Char} :
    tokenizeFrom current quote true (char :: rest) = tokenizeFrom current quote false rest := by
  cases quote <;> rw [tokenizeFrom, if_pos rfl]

theorem tokenizeFrom_inner {quote : Char} {argument inner : List Char} (solid : quote ≠ '\\')
    (quoted : Quoted quote argument inner) :
    tokenizeFrom current (some quote) false (inner ++ quote :: rest) =
      tokenizeFrom (current ++ argument) none false rest := by
  induction quoted generalizing current with
  | nil =>
    rw [List.nil_append, List.append_nil, tokenizeFrom]
    simp [solid]
  | @escaped char argument inner escapes _ ih =>
    rw [List.cons_append, List.cons_append, tokenizeFrom]
    simp only [Bool.false_eq_true, if_false]
    rw [if_pos (by simpa using escapes), tokenizeFrom_skip, ih]
    simp
  | @plain char argument inner other solidChar _ ih =>
    rw [List.cons_append, tokenizeFrom]
    simp only [Bool.false_eq_true, if_false]
    rw [if_neg (by tauto), if_neg other, ih, List.append_assoc]
    rfl
  | @backslash char argument inner other solidChar _ ih =>
    rw [List.cons_append, tokenizeFrom]
    simp only [Bool.false_eq_true, if_false]
    rw [if_neg (by simp [other, solidChar]), if_neg solid.symm, ih, List.append_assoc]
    rfl

theorem tokenizeFrom_quoted (written : QuotedArgument) :
    tokenizeFrom current none false (written.text ++ rest) =
      tokenizeFrom (current ++ written.argument) none false rest := by
  have solid : written.quote ≠ '\\' := by
    obtain same | same := written.isQuote <;> rw [same] <;> decide
  have literal : ¬(written.quote = '#' ∧ current = []) := by
    obtain same | same := written.isQuote <;> rw [same] <;> exact fun comment => by cases comment.1
  unfold QuotedArgument.text
  rw [List.cons_append, List.append_assoc, tokenizeFrom]
  simp only [Bool.false_eq_true, if_false]
  rw [if_neg literal, if_pos written.isQuote]
  exact tokenizeFrom_inner solid written.quoted

def closed (current : List Char) : List (List Char) := if current = [] then [] else [current]

theorem tokenizeFrom_space (space : isWhitespace char = true) :
    tokenizeFrom current none false (char :: rest) =
      (tokenizeFrom [] none false rest).map (closed current ++ ·) := by
  have other (symbol : Char) (solid : isWhitespace symbol = false) : char ≠ symbol := by
    rintro rfl
    rw [space] at solid
    cases solid
  rw [tokenizeFrom]
  simp only [Bool.false_eq_true, if_false]
  rw [if_neg fun comment => other '#' (by decide) comment.1,
    if_neg (by simp [other '"' (by decide), other '\x27' (by decide)]), if_pos space]
  rfl

theorem tokenizeFrom_blank {blank : List Char} (space : ∀ char ∈ blank, isWhitespace char = true) :
    tokenizeFrom [] none false (blank ++ rest) = tokenizeFrom [] none false rest := by
  induction blank with
  | nil => rfl
  | cons char blank ih =>
    rw [List.cons_append, tokenizeFrom_space (space char List.mem_cons_self),
      ih fun other member => space other (List.mem_cons_of_mem _ member)]
    simp [closed]

theorem tokenizeFrom_gap {blank : List Char} (space : ∀ char ∈ blank, isWhitespace char = true)
    (someChar : blank ≠ []) : tokenizeFrom current none false (blank ++ rest) =
      (tokenizeFrom [] none false rest).map (closed current ++ ·) := by
  cases blank with
  | nil => exact absurd rfl someChar
  | cons char blank =>
    rw [List.cons_append, tokenizeFrom_space (space char List.mem_cons_self),
      tokenizeFrom_blank fun other member => space other (List.mem_cons_of_mem _ member)]

theorem closed_of_ne (someChar : current ≠ []) : closed current = [current] :=
  if_neg someChar

theorem tokenizeFrom_others (others : List (Gap × QuotedArgument)) (someChar : current ≠ []) :
    tokenizeFrom current none false (WrittenLine.othersText others) =
      some (current :: others.map fun other => other.2.argument) := by
  induction others generalizing current with
  | nil =>
    rw [WrittenLine.othersText, List.flatMap_nil, tokenizeFrom]
    simp [someChar]
  | cons other others ih =>
    rw [WrittenLine.othersText, List.flatMap_cons, List.append_assoc,
      tokenizeFrom_gap (fun char member => (other.1.blank.2 char member).1) other.1.someChar,
      tokenizeFrom_quoted, List.nil_append]
    change (tokenizeFrom _ none false (WrittenLine.othersText others)).map _ = _
    rw [ih other.2.someChar, closed_of_ne someChar]
    rfl

end Tokens

namespace WrittenLine

def tokens (line : WrittenLine) : List (List Char) :=
  match line.separator with
  | .space _ => line.keyword :: line.arguments
  | .equals before behind =>
      if before.val = [] then
        if behind.val = [] then
          (line.keyword ++ '=' :: line.first.argument) ::
            line.others.map fun other => other.2.argument
        else (line.keyword ++ ['=']) :: line.arguments
      else if behind.val = [] then
        line.keyword :: ('=' :: line.first.argument) :: line.others.map fun other => other.2.argument
      else line.keyword :: ['='] :: line.arguments

variable (line : WrittenLine)

theorem tokenizeFrom_arguments {current : List Char} :
    tokenizeFrom current none false (line.first.text ++ othersText line.others) =
      some ((current ++ line.first.argument) :: line.others.map fun other => other.2.argument) := by
  rw [tokenizeFrom_quoted, tokenizeFrom_others]
  simp [line.first.someChar]

theorem tokenizeFrom_equals {current rest : List Char} :
    tokenizeFrom current none false ('=' :: rest) =
      tokenizeFrom (current ++ ['=']) none false rest :=
  tokenizeFrom_plain (by decide) (by decide) (by decide) (.inl (by decide))

theorem tokenize_text : tokenize line.text = some line.tokens := by
  have word : ∀ char ∈ line.keyword,
      isWhitespace char = false ∧ char ≠ '"' ∧ char ≠ '\x27' := by
    intro char member
    have plain := line.isKeyword.plain char member
    exact ⟨plain.1, plain.2.2⟩
  have someWord := line.isKeyword.someChar
  unfold tokenize text tokens arguments
  rw [List.append_assoc, List.append_assoc, tokenizeFrom_word word (.inl line.isKeyword.notComment),
    List.nil_append]
  cases line.separator with
  | space gap =>
    rw [Separator.text, tokenizeFrom_gap (fun char member => (gap.blank.2 char member).1)
      gap.someChar, tokenizeFrom_arguments, closed_of_ne someWord]
    rfl
  | equals before behind =>
    have space (blank : Blank) : ∀ char ∈ blank.val, isWhitespace char = true :=
      fun char member => (blank.2 char member).1
    rw [Separator.text, List.append_assoc, List.cons_append]
    dsimp only
    by_cases attached : before.val = []
    · rw [if_pos attached, attached, List.nil_append, tokenizeFrom_equals]
      by_cases close : behind.val = []
      · rw [if_pos close, close, List.nil_append, tokenizeFrom_arguments, List.append_assoc]
        rfl
      · rw [if_neg close, tokenizeFrom_gap (space behind) close, tokenizeFrom_arguments,
          closed_of_ne (by simp)]
        rfl
    · rw [if_neg attached, tokenizeFrom_gap (space before) attached, closed_of_ne someWord,
        tokenizeFrom_equals]
      by_cases close : behind.val = []
      · rw [if_pos close, close, List.nil_append, List.nil_append, tokenizeFrom_arguments]
        rfl
      · rw [if_neg close, tokenizeFrom_gap (space behind) close, tokenizeFrom_arguments,
          closed_of_ne (by simp)]
        rfl

theorem newline_notMem_quoted {quote : Char} {argument inner : List Char}
    (quoted : Quoted quote argument inner) (oneLine : '\n' ∉ argument) : '\n' ∉ inner := by
  induction quoted with
  | nil => exact oneLine
  | escaped escapes _ ih =>
    rw [List.mem_cons, not_or] at oneLine
    simp only [List.mem_cons, not_or]
    exact ⟨by decide, oneLine.1, ih oneLine.2⟩
  | plain _ _ _ ih =>
    rw [List.mem_cons, not_or] at oneLine
    simp only [List.mem_cons, not_or]
    exact ⟨oneLine.1, ih oneLine.2⟩
  | backslash _ _ _ ih =>
    rw [List.mem_cons, not_or] at oneLine
    rw [List.mem_cons, not_or]
    exact ⟨by decide, ih oneLine.2⟩

theorem newline_notMem_argument (written : QuotedArgument) : '\n' ∉ written.text := by
  have other : written.quote ≠ '\n' := by
    obtain same | same := written.isQuote <;> rw [same] <;> decide
  have inner := newline_notMem_quoted written.quoted written.oneLine
  simp [QuotedArgument.text, inner, other.symm]

theorem newline_notMem_blank (blank : Blank) : '\n' ∉ blank.val :=
  fun member => (blank.2 _ member).2 rfl

theorem newline_notMem_text : '\n' ∉ line.text := by
  have keyword : '\n' ∉ line.keyword := by
    intro member
    have solid := (line.isKeyword.plain _ member).1
    rw [show isWhitespace '\n' = true by decide] at solid
    cases solid
  have separator : '\n' ∉ line.separator.text := by
    cases line.separator with
    | space gap => exact newline_notMem_blank gap.blank
    | equals before behind =>
      simp [Separator.text, newline_notMem_blank before, newline_notMem_blank behind]
  have others : '\n' ∉ othersText line.others := by
    intro member
    obtain ⟨other, -, inside⟩ := List.mem_flatMap.mp member
    obtain blank | argument := List.mem_append.mp inside
    · exact newline_notMem_blank other.1.blank blank
    · exact newline_notMem_argument other.2 argument
  simp [text, keyword, separator, others, newline_notMem_argument line.first]

theorem text_ends :
    ∃ front quote, (quote = '"' ∨ quote = '\x27') ∧ line.text = front ++ [quote] := by
  unfold text othersText
  obtain alone | ⟨others, last, same⟩ := List.eq_nil_or_concat line.others
  · refine ⟨line.keyword ++ line.separator.text ++ line.first.quote :: line.first.inner,
      line.first.quote, line.first.isQuote, ?_⟩
    simp [alone, QuotedArgument.text]
  · refine ⟨line.keyword ++ line.separator.text ++ line.first.text ++ othersText others ++
      (last.1.blank.val ++ last.2.quote :: last.2.inner), last.2.quote, last.2.isQuote, ?_⟩
    simp [same, othersText, QuotedArgument.text]

theorem stripCarriageReturn_text : stripCarriageReturn line.text = line.text := by
  obtain ⟨front, quote, isQuote, ends⟩ := line.text_ends
  unfold stripCarriageReturn
  rw [ends, List.getLast?_concat]
  obtain rfl | rfl := isQuote <;> rfl

theorem splitOn_text : line.text.splitOn '\n' = [line.text] :=
  List.splitOn_eq_singleton line.newline_notMem_text

theorem splitKeyword_keyword : splitKeyword line.keyword = (line.keyword, none) := by
  have absent : '=' ∉ line.keyword := fun member => (line.isKeyword.plain _ member).2.1 rfl
  unfold splitKeyword
  rw [splitOnce_of_notMem absent]

theorem splitKeyword_attached (value : List Char) :
    splitKeyword (line.keyword ++ '=' :: value) = (line.keyword, some value) := by
  have absent : '=' ∉ line.keyword := fun member => (line.isKeyword.plain _ member).2.1 rfl
  unfold splitKeyword
  rw [splitOnce_append absent]

def readArguments (line : WrittenLine) : List (List Char) :=
  match line.separator with
  | .space _ => dropSeparatorEquals line.arguments
  | .equals before behind =>
      if before.val = [] then
        if behind.val = [] then dropSeparatorEquals line.arguments
        else [] :: line.arguments
      else line.arguments

theorem dropSeparatorEquals_attached {first : List Char} (someChar : first ≠ [])
    (others : List (List Char)) :
    dropSeparatorEquals (('=' :: first) :: others) = first :: others := by
  cases first with
  | nil => contradiction
  | cons char first => rfl

theorem read_tokens : ∃ first others attached, line.tokens = first :: others ∧
      splitKeyword first = (line.keyword, attached) ∧
      dropSeparatorEquals (attached.toList ++ others) = line.readArguments := by
  unfold tokens readArguments arguments
  cases line.separator with
  | space gap => exact ⟨_, _, none, rfl, line.splitKeyword_keyword, rfl⟩
  | equals before behind =>
    dsimp only
    by_cases attached : before.val = [] <;> by_cases close : behind.val = []
    · rw [if_pos attached, if_pos close, if_pos attached, if_pos close]
      exact ⟨_, _, some _, rfl, line.splitKeyword_attached _, rfl⟩
    · rw [if_pos attached, if_neg close, if_pos attached, if_neg close]
      exact ⟨_, _, some [], rfl, line.splitKeyword_attached [], rfl⟩
    · rw [if_neg attached, if_pos close, if_neg attached]
      exact ⟨_, _, none, rfl, line.splitKeyword_keyword,
        dropSeparatorEquals_attached line.first.someChar _⟩
    · rw [if_neg attached, if_neg close, if_neg attached]
      exact ⟨_, _, none, rfl, line.splitKeyword_keyword, rfl⟩

theorem not_match_of_host {keyword : List Char} (host : eqIgnoreAsciiCase keyword "host" = true) :
    eqIgnoreAsciiCase keyword "match" = false := by
  unfold eqIgnoreAsciiCase at host ⊢
  rw [decide_eq_true_iff] at host
  rw [host]
  decide

theorem lines_text :
    lines line.text = .ok [{ keyword := line.keyword
                             arguments := line.readArguments
                             inMatchBlock := eqIgnoreAsciiCase line.keyword "match" }] := by
  obtain ⟨first, others, attached, tokens, split, dropped⟩ := line.read_tokens
  have block : (if eqIgnoreAsciiCase line.keyword "host" = true then false
      else if eqIgnoreAsciiCase line.keyword "match" = true then true else false) =
        eqIgnoreAsciiCase line.keyword "match" := by
    split_ifs with host other
    · exact (not_match_of_host host).symm
    · exact other.symm
    · exact (Bool.not_eq_true _ ▸ other).symm
  unfold lines
  rw [splitOn_text, linesFrom, stripCarriageReturn_text, tokenize_text, tokens]
  dsimp only
  rw [split]
  rw [if_neg line.isKeyword.someChar, dropped, block]
  rfl

theorem dropSeparatorEquals_eq_self {first : List Char} {others : List (List Char)} :
    dropSeparatorEquals (first :: others) = first :: others ↔ first.head? ≠ some '=' := by
  cases first with
  | nil => simp [dropSeparatorEquals]
  | cons char first =>
    by_cases equals : char = '='
    · subst equals
      refine iff_of_false (fun same => ?_) (by simp)
      cases first with
      | nil =>
        have shorter := congrArg List.length same
        simp [dropSeparatorEquals] at shorter
      | cons other first =>
        have shorter := congrArg List.length (List.cons.inj same).1
        simp at shorter
    · refine iff_of_true ?_ (by simpa using equals)
      unfold dropSeparatorEquals
      split
      · rename_i same
        cases same
        contradiction
      · rename_i same
        cases same
        contradiction
      · rfl

theorem readArguments_eq_iff : line.readArguments = line.arguments ↔ ¬line.Misread := by
  unfold readArguments Misread
  cases line.separator with
  | space gap => exact dropSeparatorEquals_eq_self
  | equals before behind =>
    dsimp only
    by_cases attached : before.val = []
    · rw [if_pos attached]
      by_cases close : behind.val = []
      · rw [if_pos close]
        simpa [attached, close, arguments] using dropSeparatorEquals_eq_self
      · rw [if_neg close]
        refine iff_of_false (fun same => ?_) (fun sound => sound ⟨attached, .inl close⟩)
        have longer := congrArg List.length same
        simp at longer
    · rw [if_neg attached]
      exact iff_of_true rfl fun misread => attached misread.1

end WrittenLine

/-- A line is lexed back to what was written, unless its separator is mistaken. -/
theorem lines_round_trip_iff (line : WrittenLine) :
    lines line.text = .ok [{ keyword := line.keyword
                             arguments := line.arguments
                             inMatchBlock := eqIgnoreAsciiCase line.keyword "match" }] ↔
      ¬line.Misread := by
  rw [line.lines_text, ← line.readArguments_eq_iff]
  simp

theorem isKeyword_host : IsKeyword "Host".toList := by
  decide

theorem quoted_equalsA : Quoted '"' "=a".toList "=a".toList :=
  .plain (by decide) (by decide) (.plain (by decide) (by decide) .nil)

def equalsA : QuotedArgument where
  argument := "=a".toList
  quote := '"'
  inner := "=a".toList
  someChar := by decide
  oneLine := by decide
  isQuote := .inl rfl
  quoted := quoted_equalsA

theorem isBlank_space : ∀ char ∈ [' '], isWhitespace char = true ∧ char ≠ '\n' := by
  intro char member
  obtain rfl := List.mem_singleton.mp member
  decide

def oneSpace : Blank := ⟨[' '], isBlank_space⟩

theorem isBlank_nil : ∀ char ∈ ([] : List Char), isWhitespace char = true ∧ char ≠ '\n' := by
  simp

def noBlank : Blank := ⟨[], isBlank_nil⟩

def spaceGap : Gap where
  blank := oneSpace
  someChar := by decide

def hostLine (separator : Separator) : WrittenLine where
  keyword := "Host".toList
  isKeyword := isKeyword_host
  separator := separator
  first := equalsA
  others := []

/-- A quoted `=` behind a space and behind an attached `=`, and a space behind an attached `=`. -/
theorem not_lines_round_trip : (hostLine (.space spaceGap)).text = "Host \"=a\"".toList ∧
      (hostLine (.space spaceGap)).arguments = ["=a".toList] ∧
      (lines "Host \"=a\"".toList).toOption = some [⟨"Host".toList, ["a".toList], false⟩] ∧
    (hostLine (.equals noBlank noBlank)).text = "Host=\"=a\"".toList ∧
      (lines "Host=\"=a\"".toList).toOption = some [⟨"Host".toList, ["a".toList], false⟩] ∧
    (hostLine (.equals noBlank oneSpace)).text = "Host= \"=a\"".toList ∧
      (lines "Host= \"=a\"".toList).toOption =
        some [⟨"Host".toList, [[], "=a".toList], false⟩] := by
  decide

end Refyard.Ssh
