import Refyard.Core.Plan

/-! Planners for remotes, and what Git answers about them. A remote's URL is the one field of a
request that can name a command to run. -/
namespace Refyard

section Urls

def remoteUrlMaxLength : Nat := 2048

def isControlOrSpace (char : Char) : Bool := char.toNat ≤ 0x20 || char.toNat == 0x7f

def isAsciiAlphabetic (byte : UInt8) : Bool :=
  (0x41 ≤ byte && byte ≤ 0x5a) || (0x61 ≤ byte && byte ≤ 0x7a)

def windowsAbsolute (value : String) : Bool :=
  match textBytes value with
  | 0x5c :: 0x5c :: rest => !rest.isEmpty
  | drive :: 0x3a :: slash :: _ => isAsciiAlphabetic drive && (slash == 0x5c || slash == 0x2f)
  | _ => false

def isUserChar (char : Char) : Bool := char.isAlphanum || "._~%+-".toList.contains char

def isHostChar (char : Char) : Bool := char.isAlphanum || "._-".toList.contains char

def scpLike (value : String) : Bool :=
  match splitOnce ':' value.toList with
  | none => false
  | some (userHost, path) =>
      if path.isEmpty || path.any isControlOrSpace then false
      else
        match splitOnce '@' userHost with
        | none => false
        | some (user, host) =>
            (!user.isEmpty && user.all isUserChar) && (!host.isEmpty && host.all isHostChar)

def unsafeRemoteUrlReason (value : String) : Option String :=
  let chars := value.toList
  if value.isEmpty then some "it must not be empty"
  else if remoteUrlMaxLength < (textBytes value).length then
    some "it must not exceed 2048 characters"
  else if chars.head? = some '-' then
    some "it must not start with \"-\" (it would be read as an option)"
  else if "::".toList <:+: chars then
    some "transport helper syntax (for example ext::) is not accepted"
  else if chars.any isControlOrSpace then
    some "it must not contain control characters or spaces"
  else if chars.head? = some '/' || windowsAbsolute value then none
  else if scpLike value then none
  else if "https://".toList <+: chars || "ssh://".toList <+: chars then none
  else
    some "only https:// and ssh:// URLs, scp-like remotes, or absolute local paths are accepted"

def validatedRemoteUrl (url : String) : Except CoreError Unit :=
  match unsafeRemoteUrlReason url with
  | none => .ok ()
  | some reason => .error (.invalidInput s!"the remote URL is not accepted: {reason}")

end Urls

section Plans

def planRemoteAdd (name fetchUrl : String) : Except CoreError GitPlan := do
  validatedRemoteName name
  validatedRemoteUrl fetchUrl
  pure (hooked ["remote", "add", name, fetchUrl])

def planRemoteSetUrl (name url : String) (push : Bool) : Except CoreError GitPlan := do
  validatedRemoteName name
  validatedRemoteUrl url
  pure (hooked (["remote", "set-url"] ++ (if push then ["--push"] else []) ++ [name, url]))

def planRemoteRename (name newName : String) : Except CoreError GitPlan := do
  validatedRemoteName name
  validatedRemoteName newName
  pure (hooked ["remote", "rename", name, newName])

def planRemoteGetUrl (name : String) (push : Bool) : Except CoreError GitPlan := do
  validatedRemoteName name
  pure (.read (["remote", "get-url"] ++ (if push then ["--push"] else []) ++ [name]))

def networked (argv : List String) : GitPlan where
  argv := argv
  stdin := []
  deadlineClass := .network

def planFetch (remoteName : String) (prune tagsFollowing : Bool) : Except CoreError GitPlan := do
  validatedRemoteName remoteName
  pure (networked (["fetch", "--porcelain"] ++ (if prune then ["--prune"] else []) ++
    [if tagsFollowing then "--tags" else "--no-tags", remoteName]))

def planBranchUpstreamRef (branchName : String) : Except CoreError GitPlan := do
  validatedRefName branchName
  pure (.read ["rev-parse", "--abbrev-ref", "--symbolic-full-name",
    branchName ++ "@" ++ String.ofList ([Char.ofNat 0x7b] ++ "upstream".toList ++ [Char.ofNat 0x7d])])

/-- The branch half of a pull: a divergence fails and leaves the branch alone. -/
def planFastForwardMerge (reference : String) : Except CoreError GitPlan := do
  validatedRefName reference
  pure (hooked ["merge", "--ff-only", "--no-edit", reference])

end Plans

section Answers

structure FetchRefResult where
  flag : UInt8
  oldOid : String
  newOid : String
  localRef : String

def FetchRefResult.moved (result : FetchRefResult) : Bool := result.flag != 0x3d

def isOidOrZero (value : List Char) : Bool :=
  let bytes := Utf8.encode value
  (bytes.length == 40 || bytes.length == 64) && bytes.all isAsciiHexDigit

def fetchRefOf (line : Bytes) : Option FetchRefResult :=
  match line with
  | flag :: 0x20 :: fields =>
      match (fields.splitOn 0x20).map fun field => (Utf8.decodeStrict field).getD [] with
      | [oldOid, newOid, localRef] =>
          if isOidOrZero oldOid && isOidOrZero newOid && "refs/".toList <+: localRef then
            some
              { flag, oldOid := String.ofList oldOid, newOid := String.ofList newOid
                localRef := String.ofList localRef }
          else none
      | _ => none
  | _ => none

/-- The refs of `git fetch --porcelain`; a line of another shape names none. -/
def parseFetchPorcelain (bytes : Bytes) : List FetchRefResult :=
  (bytes.splitOn 0x0a).filterMap fun line =>
    fetchRefOf (if line.getLast? = some 0x0d then line.dropLast else line)

end Answers

end Refyard
