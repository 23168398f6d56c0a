import Refyard.Contract.Problem
import Refyard.Foundation.Shell

/-! POSIX single-quote encoding for the one string SSH exec gives us. The remote login
shell parses that string again. -/
namespace Refyard.Ssh

def escapeQuote (character : Char) : List Char :=
  if character = '\x27' then ['\x27', '"', '\x27', '"', '\x27'] else [character]

def quotePosix (value : String) : Except Problem String :=
  if '\x00' ∈ value.toList then
    .error (.new .unsupportedPathEncoding
      "a value containing NUL cannot be sent as an SSH command string")
  else
    .ok (String.ofList ('\x27' :: value.toList.flatMap escapeQuote ++ ['\x27']))

def pushArgument (command argument : String) : Except Problem String := do
  return command ++ " " ++ (← quotePosix argument)

/-- The fixed remote template: git -C, the quoted path, the quoted arguments. -/
def remoteGitCommand (repoPath : String) (argv : List String) : Except Problem String := do
  if repoPath = "" then
    throw (.new .invalidRequest "a remote git command needs a non-empty repository path")
  if argv = [] then
    throw (.new .invalidRequest "a remote git command needs at least one argument")
  argv.foldlM pushArgument ("git -C " ++ (← quotePosix repoPath))

theorem spellsIn_escapeQuote {character : Char} (clean : character ≠ '\x00') :
    Shell.SpellsIn .single (escapeQuote character) [character] := by
  unfold escapeQuote
  split
  · rename_i apostrophe
    rw [apostrophe]
    exact Shell.spellsIn_leave (Shell.spells_double (Shell.spellsIn_double (by decide)))
  · rename_i unquoted
    exact Shell.spellsIn_single unquoted clean

theorem spellsIn_escapeQuotes {text : List Char} (clean : '\x00' ∉ text) :
    Shell.SpellsIn .single (text.flatMap escapeQuote) text := by
  induction text with
  | nil => exact Shell.spellsIn_nil
  | cons character rest ih =>
    rw [List.mem_cons, not_or] at clean
    have first := spellsIn_escapeQuote fun nul => clean.1 nul.symm
    exact Shell.spellsIn_append first (ih clean.2)

theorem quotePosix_cases (value : String) :
    ('\x00' ∈ value.toList ∧ ∃ problem, quotePosix value = .error problem) ∨
      '\x00' ∉ value.toList ∧ ∃ quoted, quotePosix value = .ok quoted ∧
        Shell.Spells quoted.toList value.toList := by
  unfold quotePosix
  by_cases nul : '\x00' ∈ value.toList
  · rw [if_pos nul]
    exact .inl ⟨nul, _, rfl⟩
  · rw [if_neg nul]
    refine .inr ⟨nul, _, rfl, ?_⟩
    rw [String.toList_ofList]
    exact Shell.spells_single (spellsIn_escapeQuotes nul)

theorem foldlM_pushArgument (argv : List String) (command : String) :
    ((∃ argument ∈ argv, '\x00' ∈ argument.toList) ∧
        ∃ problem, argv.foldlM pushArgument command = .error problem) ∨
      (¬∃ argument ∈ argv, '\x00' ∈ argument.toList) ∧
        ∃ sources, List.Forall₂ Shell.Spells sources (argv.map String.toList) ∧
          argv.foldlM pushArgument command =
            .ok (command ++ String.ofList (sources.flatMap (' ' :: ·))) := by
  induction argv generalizing command with
  | nil => exact .inr ⟨by simp, [], List.Forall₂.nil, by simp [pure, Except.pure]⟩
  | cons argument rest ih =>
    rw [List.foldlM_cons, pushArgument]
    obtain ⟨nul, problem, refused⟩ | ⟨clean, quoted, ok, spells⟩ := quotePosix_cases argument
    · rw [refused]
      exact .inl ⟨⟨argument, List.mem_cons_self, nul⟩, problem, rfl⟩
    · rw [ok]
      obtain ⟨found, problem, refused⟩ | ⟨none, sources, all, added⟩ :=
        ih (command ++ " " ++ quoted)
      · obtain ⟨other, member, nul⟩ := found
        exact .inl ⟨⟨other, List.mem_cons_of_mem _ member, nul⟩, problem, refused⟩
      · refine .inr ⟨?_, quoted.toList :: sources, List.Forall₂.cons spells all, ?_⟩
        · rintro ⟨other, member, nul⟩
          cases List.mem_cons.mp member with
          | inl same => exact clean (same ▸ nul)
          | inr behind => exact none ⟨other, behind, nul⟩
        · refine added.trans (congrArg Except.ok ?_)
          rw [← String.toList_inj]
          simp

/-- The command is refused exactly for want of a path or arguments or because of NUL, and
otherwise the remote shell reads git, -C, the path and the arguments from it, whatever
characters they hold. -/
theorem remoteGitCommand_words (repoPath : String) (argv : List String) :
    let refused := repoPath = "" ∨ argv = [] ∨ ∃ text ∈ repoPath :: argv, '\x00' ∈ text.toList
    (refused ∧ ∃ problem, remoteGitCommand repoPath argv = .error problem) ∨
      ¬refused ∧ ∃ command, remoteGitCommand repoPath argv = .ok command ∧
        Shell.words command.toList =
          some (("git" :: "-C" :: repoPath :: argv).map String.toList) := by
  intro refused
  unfold remoteGitCommand
  by_cases path : repoPath = ""
  · rw [if_pos path]
    exact .inl ⟨.inl path, _, rfl⟩
  by_cases none : argv = []
  · rw [if_neg path, if_pos none]
    exact .inl ⟨.inr (.inl none), _, rfl⟩
  rw [if_neg path, if_neg none]
  obtain ⟨nul, problem, error⟩ | ⟨clean, quoted, ok, spells⟩ := quotePosix_cases repoPath
  · rw [error]
    exact .inl ⟨.inr (.inr ⟨repoPath, List.mem_cons_self, nul⟩), problem, rfl⟩
  rw [ok]
  obtain ⟨⟨argument, member, nul⟩, problem, error⟩ | ⟨cleanArgv, sources, all, added⟩ :=
    foldlM_pushArgument argv ("git -C " ++ quoted)
  · exact .inl ⟨.inr (.inr ⟨argument, List.mem_cons_of_mem _ member, nul⟩), problem, error⟩
  · refine .inr ⟨?_, _, added, ?_⟩
    · rintro (empty | empty | ⟨text, member, nul⟩)
      · exact path empty
      · exact none empty
      · cases List.mem_cons.mp member with
        | inl same => exact clean (same ▸ nul)
        | inr argument => exact cleanArgv ⟨text, argument, nul⟩
    · have git : Shell.Spells "git".toList "git".toList :=
        Shell.spells_plain (by decide) (List.forall_iff_forall_mem.mp (by decide))
      have option : Shell.Spells "-C".toList "-C".toList :=
        Shell.spells_plain (by decide) (List.forall_iff_forall_mem.mp (by decide))
      have read := Shell.words_spaced git (.cons option (.cons spells all))
      refine Eq.trans (congrArg Shell.words ?_) read
      simp

end Refyard.Ssh
