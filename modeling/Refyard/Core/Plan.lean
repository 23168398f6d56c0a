import Refyard.Core.Bytes
import Refyard.Foundation.Scan
import Refyard.Foundation.Utf8
import Mathlib.Data.List.Infix

/-! Argument vectors for Git. A request maps to a planner, and a planner emits a fixed vector
or refuses the name it was given. -/
namespace Refyard

inductive DeadlineClass where
  | read
  | network
  | hook
  deriving DecidableEq

structure GitPlan where
  argv : List String
  stdin : Bytes
  deadlineClass : DeadlineClass
  deriving DecidableEq

/-- `GitPlan::read`. Branch and tag writes are planned with it as well. -/
def GitPlan.read (argv : List String) : GitPlan where
  argv := argv
  stdin := []
  deadlineClass := .read

def hooked (argv : List String) : GitPlan where
  argv := argv
  stdin := []
  deadlineClass := .hook

def readingCommands : List (List String) :=
  [["--no-optional-locks", "status"], ["rev-parse"], ["merge-base"], ["diff"], ["ls-files"],
   ["worktree", "list"], ["remote", "get-url"], ["config", "-z"]]

/-- The deadline class does not tell: a branch is deleted under a read's deadline. -/
def GitPlan.readOnly (plan : GitPlan) : Bool :=
  readingCommands.any fun words => words.isPrefixOf plan.argv

def CoreError.text : CoreError → String
  | .outputIncomplete format detail =>
      s!"{format}: output ended before the record was complete: {detail}"
  | .outputUnparsable format detail => s!"{format}: could not read the output: {detail}"
  | .unsupportedPathEncoding format detail => s!"{format}: {detail}"
  | .invalidInput detail => detail

def textBytes (text : String) : Bytes := Utf8.encode text.toList

def isAsciiWhitespace (byte : UInt8) : Bool :=
  byte == 0x20 || byte == 0x09 || byte == 0x0a || byte == 0x0c || byte == 0x0d

def unicodeEscape (char : Char) : List Char :=
  ['\\', 'u', Char.ofNat 0x7b] ++ Nat.toDigits 16 char.toNat ++ [Char.ofNat 0x7d]

/-- A text as `{:?}` prints it. Characters above U+007F stand as they are. -/
def debugText (text : String) : String :=
  String.ofList (['"'] ++ (text.toList.flatMap fun char =>
    if char = '"' then ['\\', '"']
    else if char = '\\' then ['\\', '\\']
    else if char = '\n' then ['\\', 'n']
    else if char = '\r' then ['\\', 'r']
    else if char = '\t' then ['\\', 't']
    else if char.toNat = 0 then ['\\', '0']
    else if char.toNat < 0x20 || char.toNat = 0x7f then unicodeEscape char
    else [char]) ++ ['"'])

def refNameMaxLength : Nat := 255

def refNameRefusal (name why : String) : Except CoreError Unit :=
  .error (.invalidInput s!"a ref name {why}: {debugText name}")

/-- The contract's rules for branch and tag names, in the order they are checked. -/
def validatedRefName (name : String) : Except CoreError Unit :=
  let chars := name.toList
  let bytes := textBytes name
  if name.isEmpty then refNameRefusal name "cannot be empty"
  else if refNameMaxLength < bytes.length then
    refNameRefusal name s!"is longer than {refNameMaxLength} characters"
  else if name = "@" then refNameRefusal name "cannot be the single character \"@\""
  else if chars.head? = some '-' then
    refNameRefusal name "cannot start with \"-\" (it would be read as an option)"
  else if chars.head? = some '/' || chars.getLast? = some '/' then
    refNameRefusal name "cannot start or end with \"/\""
  else if chars.getLast? = some '.' then refNameRefusal name "cannot end with \".\""
  else if ".lock".toList <:+ chars.map Char.toLower then
    refNameRefusal name "cannot end with \".lock\""
  else if "..".toList <:+: chars then refNameRefusal name "cannot contain \"..\""
  else if ['@', Char.ofNat 0x7b] <:+: chars then
    refNameRefusal name (String.ofList
      ("cannot contain \"@".toList ++ [Char.ofNat 0x7b] ++ "\"".toList))
  else if "//".toList <:+: chars then refNameRefusal name "cannot contain \"//\""
  else if bytes.any fun byte => byte ≤ 0x20 || byte == 0x7f then
    refNameRefusal name "cannot contain control characters or spaces"
  else if bytes.any fun byte => "~^:?*[\\".toList.any fun char => charByte char == byte then
    refNameRefusal name "cannot contain ~ ^ : ? * [ or \\"
  else
    (chars.splitOn '/').foldlM (fun _ component =>
      if component.isEmpty then refNameRefusal name "cannot contain an empty path component"
      else if component.head? = some '.' then
        refNameRefusal name "cannot have a path component starting with \".\""
      else .ok ()) ()

def validatedSourceOid (source : String) : Except CoreError Unit :=
  let bytes := textBytes source
  if (bytes.length == 40 || bytes.length == 64) && bytes.all isAsciiHexDigit then .ok ()
  else
    .error (.invalidInput
      "a merge source must be a 40- or 64-character hexadecimal object name")

def isAsciiAlphanumeric (byte : UInt8) : Bool :=
  (0x30 ≤ byte && byte ≤ 0x39) || (0x41 ≤ byte && byte ≤ 0x5a) || (0x61 ≤ byte && byte ≤ 0x7a)

def remoteNameShape : Bytes → Bool
  | [] => false
  | first :: rest =>
      rest.length < 64 && isAsciiAlphanumeric first &&
        rest.all fun byte =>
          isAsciiAlphanumeric byte || byte == 0x2e || byte == 0x5f || byte == 0x2d

def validatedRemoteName (name : String) : Except CoreError Unit :=
  if remoteNameShape (textBytes name) then .ok ()
  else
    .error (.invalidInput
      "remote names are 1-64 characters of [A-Za-z0-9._-], starting with a letter or digit")

def stashPosition (locator : List Char) : Option (List Char) := do
  let inner ← stripPrefix ("stash@".toList ++ [Char.ofNat 0x7b]) locator
  if inner.getLast? = some (Char.ofNat 0x7d) then some inner.dropLast else none

def stashLocatorRefusal : CoreError :=
  .invalidInput (String.ofList
    ("a stash locator must look like stash@".toList ++ [Char.ofNat 0x7b, '0', Char.ofNat 0x7d]))

def validatedStashLocator (locator : String) : Except CoreError Unit :=
  match stashPosition locator.toList with
  | none => .error stashLocatorRefusal
  | some digits =>
      if digits.isEmpty || !digits.all Char.isDigit then .error stashLocatorRefusal else .ok ()

section Reads

def planStatus : GitPlan :=
  .read ["--no-optional-locks", "status", "--porcelain=v2", "--branch", "-z"]

def planMergeInProgress : GitPlan := .read ["rev-parse", "--verify", "--quiet", "MERGE_HEAD"]

def planCherryPickInProgress : GitPlan :=
  .read ["rev-parse", "--verify", "--quiet", "CHERRY_PICK_HEAD"]

def planRevertInProgress : GitPlan := .read ["rev-parse", "--verify", "--quiet", "REVERT_HEAD"]

/-- The one probe without `--quiet`. -/
def planRebaseInProgress : GitPlan := .read ["rev-parse", "--verify", "REBASE_HEAD"]

def planRebaseRecoveryProbe : GitPlan := .read ["rev-parse", "--verify", "--quiet", "REBASE_HEAD"]

def planLsFilesUnmerged : GitPlan := .read ["ls-files", "--unmerged", "--stage", "-z"]

def planWorktreeList : GitPlan := .read ["worktree", "list", "--porcelain", "-z"]

def planHead : GitPlan := .read ["rev-parse", "HEAD"]

def planTopCommitDiff : GitPlan := .read ["diff", "--quiet", "HEAD^", "HEAD"]

def planDropCommitAncestry (oid : String) : Except CoreError GitPlan := do
  validatedSourceOid oid
  pure (.read ["merge-base", "--is-ancestor", oid, "HEAD"])

def planDropCommitSecondParent (oid : String) : Except CoreError GitPlan := do
  validatedSourceOid oid
  pure (.read ["rev-parse", "--verify", "--quiet", oid ++ "^2"])

def planDropCommitParent (oid : String) : Except CoreError GitPlan := do
  validatedSourceOid oid
  pure (.read ["rev-parse", "--verify", oid ++ "^"])

def planStashResolve (locator : String) : Except CoreError GitPlan := do
  validatedStashLocator locator
  pure (.read ["rev-parse", "--verify", "--quiet",
    locator ++ "^" ++ String.ofList ([Char.ofNat 0x7b] ++ "commit".toList ++ [Char.ofNat 0x7d])])

end Reads

section Writes

def validatedStartOid : Option String → Except CoreError Unit
  | none => .ok ()
  | some oid => validatedSourceOid oid

def planBranchCreate (name : String) (startOid : Option String) : Except CoreError GitPlan := do
  validatedRefName name
  validatedStartOid startOid
  pure (.read (["branch", "--", name] ++ startOid.toList))

def planBranchCreateAndSwitch (name : String) (startOid : Option String) :
    Except CoreError GitPlan := do
  validatedRefName name
  validatedStartOid startOid
  pure (.read (["switch", "--create", name] ++ startOid.toList))

def planBranchRename (name newName : String) : Except CoreError GitPlan := do
  validatedRefName name
  validatedRefName newName
  pure (.read ["branch", "--move", name, newName])

def planBranchSetUpstream (name : String) (upstream : Option (String × String)) :
    Except CoreError GitPlan := do
  validatedRefName name
  match upstream with
  | none => pure (.read ["branch", "--unset-upstream", name])
  | some (remote, branch) =>
      pure (.read ["branch", s!"--set-upstream-to={remote}/{branch}", name])

def planBranchDelete (name : String) : Except CoreError GitPlan := do
  validatedRefName name
  pure (.read ["branch", "--delete", name])

def validatedTarget (targetOid : Option String) : Except CoreError Unit :=
  validatedStartOid targetOid

def planTagCreateLightweight (name : String) (targetOid : Option String) :
    Except CoreError GitPlan := do
  validatedRefName name
  validatedTarget targetOid
  pure (.read (["tag", "--", name] ++ targetOid.toList))

def validatedTagMessage (message : Bytes) : Except CoreError Unit :=
  if message.isEmpty then
    .error (.invalidInput
      "an annotated tag requires a non-empty message; omit the annotation for a lightweight tag")
  else if message.contains 0 then .error (.invalidInput "a tag message cannot contain NUL")
  else if message.all isAsciiWhitespace then
    .error (.invalidInput "a tag message cannot be blank")
  else .ok ()

def planTagCreateAnnotated (name : String) (targetOid : Option String) (message : Bytes) :
    Except CoreError GitPlan := do
  validatedRefName name
  validatedTarget targetOid
  validatedTagMessage message
  pure
    { argv := ["tag", "--annotate", "--cleanup=verbatim", "--file=-", name] ++ targetOid.toList
      stdin := message
      deadlineClass := .hook }

def planTagDelete (name : String) : Except CoreError GitPlan := do
  validatedRefName name
  pure (.read ["tag", "--delete", name])

def planRemoteRemove (name : String) : Except CoreError GitPlan := do
  validatedRemoteName name
  pure (hooked ["remote", "remove", name])

def validatedStashMessage (message : String) : Except CoreError Unit :=
  if message.isEmpty then
    .error (.invalidInput "a stash message cannot be empty; pass none for the default")
  else if message.toList.contains (Char.ofNat 0) then
    .error (.invalidInput "a stash message cannot contain NUL")
  else if message.toList.all isWhitespace then
    .error (.invalidInput "a stash message cannot be blank")
  else .ok ()

/-- The message stands behind an equals sign, so that it cannot be read as a switch. -/
def planStashPush (message : Option String) (includeUntracked keepIndex : Bool) :
    Except CoreError GitPlan := do
  let labelled ←
    match message with
    | none => pure []
    | some message => do
        validatedStashMessage message
        pure ["--message=" ++ message]
  pure (hooked (["stash", "push"] ++ labelled ++
    (if includeUntracked then ["--include-untracked"] else []) ++
    (if keepIndex then ["--keep-index"] else [])))

def planStashApply (locator : String) (restoreIndex : Bool) : Except CoreError GitPlan := do
  validatedStashLocator locator
  pure (hooked (["stash", "apply"] ++ (if restoreIndex then ["--index"] else []) ++ [locator]))

def planStashPop (locator : String) (restoreIndex : Bool) : Except CoreError GitPlan := do
  validatedStashLocator locator
  pure (hooked (["stash", "pop"] ++ (if restoreIndex then ["--index"] else []) ++ [locator]))

def planStashDrop (locator : String) : Except CoreError GitPlan := do
  validatedStashLocator locator
  pure (hooked ["stash", "drop", locator])

def planMergeAbort : GitPlan := hooked ["merge", "--abort"]

def planCherryPick (oid : String) : Except CoreError GitPlan := do
  validatedSourceOid oid
  pure (hooked ["cherry-pick", "--no-edit", oid])

def planCherryPickAbort : GitPlan := hooked ["cherry-pick", "--abort"]

def planRevertCommit (oid : String) : Except CoreError GitPlan := do
  validatedSourceOid oid
  pure (hooked ["revert", "--no-edit", oid])

def planRevertAbort : GitPlan := hooked ["revert", "--abort"]

def planRebase (upstreamOid : String) : Except CoreError GitPlan := do
  validatedSourceOid upstreamOid
  pure (hooked ["rebase", upstreamOid])

def planRebaseAbort : GitPlan := hooked ["rebase", "--abort"]

def planDropCommitRebase (oid parentOid : String) : Except CoreError GitPlan := do
  validatedSourceOid oid
  validatedSourceOid parentOid
  pure (hooked ["rebase", "--onto", parentOid, oid])

def planSquashSoftReset : GitPlan := hooked ["reset", "--soft", "HEAD^"]

def planAmendCommit (message : Option Bytes) : Except CoreError GitPlan :=
  match message with
  | none => .ok (hooked ["commit", "--amend", "--no-edit"])
  | some message =>
      if message.isEmpty then
        .error (.invalidInput "an amend requires a non-empty message or none at all")
      else if message.contains 0 then
        .error (.invalidInput "a commit message cannot contain NUL")
      else if message.all isAsciiWhitespace then
        .error (.invalidInput "a commit message cannot be blank")
      else
        .ok { argv := ["commit", "--amend", "--cleanup=verbatim", "--file=-"]
              stdin := message
              deadlineClass := .hook }

def validatedWorktreePath (path : Bytes) : Except CoreError String :=
  if path.isEmpty || path.contains 0 then
    .error (.invalidInput "a worktree path must be non-empty and NUL-free")
  else
    match Utf8.decodeStrict path with
    | some chars => .ok (String.ofList chars)
    | none =>
        .error (.invalidInput "a worktree path's bytes cannot be represented on this host")

def planWorktreeRemove (path : Bytes) : Except CoreError GitPlan := do
  let path ← validatedWorktreePath path
  pure (hooked ["worktree", "remove", path])

def pathspecStdin (paths : List Bytes) : Bytes := paths.flatMap fun path => path ++ [0]

/-- The vector every path-scoped write shares: literal pathspecs, and the list on stdin. -/
def pathspecPlan (verb : List String) (paths : List Bytes) : GitPlan where
  argv := "--literal-pathspecs" :: verb ++ ["--pathspec-from-file=-", "--pathspec-file-nul", "--"]
  stdin := pathspecStdin paths
  deadlineClass := .hook

/-- `git add` for exactly the paths of the list. -/
def planStage (paths : List Bytes) : GitPlan := pathspecPlan ["add"] paths

end Writes

end Refyard
