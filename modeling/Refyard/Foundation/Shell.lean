import Mathlib.Data.List.Basic

/-! How a POSIX shell cuts one simple command into words and removes the quoting. Where the
shell would do more than that (an operator, a comment, an expansion) the command has no
words here. -/
namespace Refyard.Shell

inductive Quoting where
  | bare
  | escaped
  | single
  | double
  | doubleEscaped
  deriving DecidableEq

structure Lexing where
  words : List (List Char) := []
  current : Option (List Char) := none
  quoting : Quoting := .bare

/-- What only quoting takes the meaning from: operators, the newline that ends a command,
and whatever starts a comment, an expansion or a pattern. No command string holds NUL. -/
def special : List Char :=
  ['|', '&', ';', '<', '>', '(', ')', '$', '\x60', '\n', '*', '?', '[', ']', '#', '~', '=', '%',
    '\x7b', '\x7d', '!', '^', '\x00']

namespace Lexing

/-- More text for the current word, which begins here if there is none. -/
def push (lexing : Lexing) (text : List Char) : Lexing :=
  { lexing with current := some (lexing.current.getD [] ++ text) }

def quoted (lexing : Lexing) (quoting : Quoting) : Lexing := { lexing with quoting }

def endWord (lexing : Lexing) : Lexing :=
  match lexing.current with
  | none => lexing
  | some word => { lexing with words := lexing.words ++ [word], current := none }

def stepBare (lexing : Lexing) (character : Char) : Option Lexing :=
  if character = '\x27' then some ((lexing.push []).quoted .single)
  else if character = '"' then some ((lexing.push []).quoted .double)
  else if character = '\\' then some (lexing.quoted .escaped)
  else if character = ' ' ∨ character = '\t' then some lexing.endWord
  else if character ∈ special then none
  else some (lexing.push [character])

def stepDouble (lexing : Lexing) (character : Char) : Option Lexing :=
  if character = '"' then some (lexing.quoted .bare)
  else if character = '\\' then some (lexing.quoted .doubleEscaped)
  else if character = '$' ∨ character = '\x60' ∨ character = '\x00' then none
  else some (lexing.push [character])

/-- An escaped newline continues the line. Between double quotes a backslash stands for
itself unless something special follows. -/
def step (lexing : Lexing) (character : Char) : Option Lexing :=
  match lexing.quoting with
  | .bare => lexing.stepBare character
  | .escaped =>
      if character = '\n' then some (lexing.quoted .bare)
      else if character = '\x00' then none
      else some ((lexing.push [character]).quoted .bare)
  | .single =>
      if character = '\x27' then some (lexing.quoted .bare)
      else if character = '\x00' then none
      else some (lexing.push [character])
  | .double => lexing.stepDouble character
  | .doubleEscaped =>
      if character = '\n' then some (lexing.quoted .double)
      else if character = '\x00' then none
      else if character ∈ ['$', '\x60', '"', '\\'] then
        some ((lexing.push [character]).quoted .double)
      else some ((lexing.push ['\\', character]).quoted .double)

def run (lexing : Lexing) (source : List Char) : Option Lexing := source.foldlM step lexing

def finish (lexing : Lexing) : Option (List (List Char)) :=
  if lexing.quoting = .bare then some lexing.endWord.words else none

variable (lexing : Lexing)

@[simp] theorem run_nil : lexing.run [] = some lexing := rfl

theorem run_cons (character : Char) (rest : List Char) :
    lexing.run (character :: rest) = (lexing.step character).bind fun next => next.run rest := rfl

theorem run_append (first second : List Char) :
    lexing.run (first ++ second) = (lexing.run first).bind fun next => next.run second :=
  List.foldlM_append

@[simp] theorem push_push (first second : List Char) :
    (lexing.push first).push second = lexing.push (first ++ second) := by
  simp [push]

end Lexing

/-- The words of a command, or nothing where it is not one command of literal words. -/
def words (source : List Char) : Option (List (List Char)) :=
  (Lexing.run {} source).bind Lexing.finish

/-- This piece of a command adds this text to the word it stands in. -/
def Spells (source text : List Char) : Prop :=
  ∀ lexing : Lexing, lexing.quoting = .bare → lexing.run source = some (lexing.push text)

variable {text : List Char}

theorem spells_append {source more rest : List Char} (first : Spells source text)
    (second : Spells more rest) : Spells (source ++ more) (text ++ rest) := by
  intro lexing bare
  have opened : (lexing.push text).quoting = .bare := bare
  rw [Lexing.run_append, first lexing bare, Option.bind_some, second _ opened, Lexing.push_push]

theorem spells_bare {character : Char}
    (plain : character ∉ '\x27' :: '"' :: '\\' :: ' ' :: '\t' :: special) :
    Spells [character] [character] := by
  intro lexing bare
  simp only [List.mem_cons, not_or] at plain
  obtain ⟨apostrophe, quote, backslash, space, tab, ordinary⟩ := plain
  simp only [Lexing.run_cons, Lexing.step, bare, Lexing.stepBare, if_neg apostrophe, if_neg quote,
    if_neg backslash, if_neg (not_or.mpr ⟨space, tab⟩)]
  rw [if_neg (by simpa [special] using ordinary)]
  rfl

/-- Text that is plain throughout spells itself. -/
theorem spells_plain (begun : text ≠ [])
    (plain : ∀ character ∈ text, character ∉ '\x27' :: '"' :: '\\' :: ' ' :: '\t' :: special) :
    Spells text text := by
  induction text with
  | nil => exact absurd rfl begun
  | cons character rest ih =>
    have first := spells_bare (plain character List.mem_cons_self)
    cases rest with
    | nil => exact first
    | cons next rest =>
      apply spells_append first
      apply ih (List.cons_ne_nil next rest)
      intro other member
      exact plain other (List.mem_cons_of_mem _ member)

/-- Within a quoted span, this piece of a command adds this text to the word. -/
def SpellsIn (quoting : Quoting) (source text : List Char) : Prop :=
  ∀ (lexing : Lexing) (before : List Char),
    Lexing.run ((lexing.push before).quoted quoting) source =
      some ((lexing.push (before ++ text)).quoted quoting)

section
variable {quoting : Quoting} {source text more rest : List Char}

theorem spellsIn_nil : SpellsIn quoting [] [] := by
  intro lexing before
  rw [List.append_nil, Lexing.run_nil]

theorem spellsIn_append (first : SpellsIn quoting source text)
    (second : SpellsIn quoting more rest) : SpellsIn quoting (source ++ more) (text ++ rest) := by
  intro lexing before
  rw [Lexing.run_append, first, Option.bind_some, second, List.append_assoc]

/-- Between single quotes everything but the quote itself stands for itself. -/
theorem spellsIn_single {character : Char} (unquoted : character ≠ '\x27')
    (clean : character ≠ '\x00') : SpellsIn .single [character] [character] := by
  intro lexing before
  simp [Lexing.run_cons, Lexing.step, Lexing.quoted, unquoted, clean, Lexing.push]

theorem spellsIn_double {character : Char} (plain : character ∉ ['"', '\\', '$', '\x60', '\x00']) :
    SpellsIn .double [character] [character] := by
  intro lexing before
  simp only [List.mem_cons, not_or] at plain
  obtain ⟨quote, backslash, dollar, backquote, nul, -⟩ := plain
  simp [Lexing.run_cons, Lexing.step, Lexing.stepDouble, Lexing.quoted, quote, backslash, dollar,
    backquote, nul, Lexing.push]

theorem spells_single (inside : SpellsIn .single source text) :
    Spells ('\x27' :: source ++ ['\x27']) text := by
  intro lexing bare
  have opened : lexing.step '\x27' = some ((lexing.push []).quoted .single) := by
    rw [Lexing.step, bare]
    rfl
  have closed : Lexing.step ((lexing.push text).quoted .single) '\x27' = some (lexing.push text) := by
    simp [Lexing.step, Lexing.quoted, Lexing.push, ← bare]
  rw [List.cons_append, Lexing.run_cons, opened, Option.bind_some, Lexing.run_append, inside,
    Option.bind_some, List.nil_append, Lexing.run_cons, closed]
  rfl

theorem spells_double (inside : SpellsIn .double source text) :
    Spells ('"' :: source ++ ['"']) text := by
  intro lexing bare
  have opened : lexing.step '"' = some ((lexing.push []).quoted .double) := by
    rw [Lexing.step, bare]
    rfl
  have closed : Lexing.step ((lexing.push text).quoted .double) '"' = some (lexing.push text) := by
    simp [Lexing.step, Lexing.stepDouble, Lexing.quoted, Lexing.push, ← bare]
  rw [List.cons_append, Lexing.run_cons, opened, Option.bind_some, Lexing.run_append, inside,
    Option.bind_some, List.nil_append, Lexing.run_cons, closed]
  rfl

/-- A single-quoted span may be closed and opened again within one word. -/
theorem spellsIn_leave (between : Spells source text) :
    SpellsIn .single ('\x27' :: source ++ ['\x27']) text := by
  intro lexing before
  have opened : Lexing.step ((lexing.push before).quoted .single) '\x27' =
      some ((lexing.push before).quoted .bare) := rfl
  have closed : Lexing.step (((lexing.push before).quoted .bare).push text) '\x27' =
      some ((lexing.push (before ++ text)).quoted .single) := by
    simp [Lexing.step, Lexing.stepBare, Lexing.quoted, Lexing.push]
  rw [List.cons_append, Lexing.run_cons, opened, Option.bind_some, Lexing.run_append,
    between _ rfl, Option.bind_some, Lexing.run_cons, closed]
  rfl

end

theorem run_spaced {sources texts : List (List Char)} (rest : List.Forall₂ Spells sources texts)
    {lexing : Lexing} (bare : lexing.quoting = .bare) {word : List Char}
    (current : lexing.current = some word) :
    (lexing.run (sources.flatMap (' ' :: ·))).bind Lexing.finish =
      some (lexing.words ++ word :: texts) := by
  induction rest generalizing lexing word with
  | nil => simp [Lexing.finish, bare, Lexing.endWord, current]
  | @cons source text sources texts spells rest ih =>
    have blank : lexing.step ' ' = some lexing.endWord := by
      rw [Lexing.step, bare]
      rfl
    let next : Lexing := { lexing with words := lexing.words ++ [word], current := none }
    have ended : lexing.endWord = next := by
      rw [Lexing.endWord, current]
    have behind := @ih (next.push text) bare _ rfl
    rw [List.flatMap_cons, List.cons_append, Lexing.run_cons, blank, Option.bind_some, ended,
      Lexing.run_append, spells next bare, Option.bind_some, behind]
    simp [next, Lexing.push]

/-- Pieces with a space between them are as many words. -/
theorem words_spaced {source : List Char} {sources texts : List (List Char)}
    (first : Spells source text) (rest : List.Forall₂ Spells sources texts) :
    words (source ++ sources.flatMap (' ' :: ·)) = some (text :: texts) := by
  have begun : Lexing.run {} source = some (Lexing.push {} text) := first {} rfl
  rw [words, Lexing.run_append, begun, Option.bind_some]
  exact run_spaced rest rfl rfl

end Refyard.Shell
