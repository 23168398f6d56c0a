import Refyard.Writes.Destructive

/-! Where `git worktree add` checks out: the approved root and a relative path behind it. -/
namespace Refyard

/-- A submodule or worktree destination: relative, and without `..`. -/
def validatedRelativePath (path : String) : Except CoreError Unit :=
  let bytes := textBytes path
  if path.isEmpty || 1024 < bytes.length then
    .error (.invalidInput "a submodule path must be between 1 and 1024 bytes")
  else if path.toList.head? = some '/' then
    .error (.invalidInput "a submodule path must be relative to the working tree, not absolute")
  else if bytes.any fun byte => byte < 0x20 || byte == 0x7f then
    .error (.invalidInput "a submodule path must not contain control characters")
  else if (path.toList.splitOn '/').any fun segment => segment = ['.', '.'] then
    .error (.invalidInput
      "a submodule path must stay inside the working tree (`..` is refused)")
  else .ok ()

/-- `Path::join`. -/
def joinPath (root relative : Bytes) : Bytes :=
  if relative.head? = some 0x2f then relative
  else if root.getLast?.all fun byte => byte = 0x2f then root ++ relative
  else root ++ 0x2f :: relative

/-- The destination that Git is given, once the relative path was accepted. -/
def worktreeDestination (rootPath : Bytes) (relativeDestination : String) : Option String :=
  (Utf8.decodeStrict (joinPath rootPath (textBytes relativeDestination))).map String.ofList

end Refyard
