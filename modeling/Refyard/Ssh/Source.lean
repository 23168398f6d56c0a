import Mathlib.Data.List.Sort
import Refyard.Ssh.ConfigLex

/-! Walking one SSH configuration source: the primary file and its unconditional Includes. -/
namespace Refyard.Ssh

abbrev Path := Bytes

structure IoError where
  notFound : Bool
  message : String

/-- What a walk asks of the file system, which does not change meanwhile. A directory lists its
names in an order of its own. -/
structure FileSystem where
  /-- Length, and whether it is a directory. -/
  metadata : Path → Except IoError (Nat × Bool)
  read : Path → Except IoError Bytes
  readDir : Path → Except IoError (List Bytes)
  canonicalize : Path → Option Path

structure ConfigSource where
  path : Path
  includeBase : Path

structure IncludeLimits where
  depth : Nat := 8
  files : Nat := 128
  bytes : Nat := 2 * 1024 * 1024

inductive Limit where
  | depth
  | files
  | bytes

def Limit.name : Limit → String
  | .depth => "depth"
  | .files => "files"
  | .bytes => "bytes"

inductive ConfigError where
  | unterminatedQuote (line : Nat)
  | unreadableFile (path : Path) (error : IoError)
  | includeCycle (path : Path)
  | limitExceeded (limit : Limit) (value : Nat)
  | unenumerableInclude (path : List Char) (reason : String)
  | notUtf8 (path : Path)

def display (path : Path) : String := String.ofList (Utf8.decode path)

def ConfigError.message : ConfigError → String
  | .unterminatedQuote line => s!"line {line}: a quoted argument is not closed"
  | .unreadableFile path error => s!"{display path}: {error.message}"
  | .includeCycle path => s!"{display path}: an Include chain returns to this file"
  | .limitExceeded limit value => s!"{limit.name} limit of {value} exceeded"
  | .unenumerableInclude path reason =>
      s!"{String.ofList path}: Include cannot be enumerated ({reason})"
  | .notUtf8 path => s!"{display path}: not valid UTF-8"

def warningCode : ConfigError → String
  | .unterminatedQuote _ => "config-unparsable"
  | .notUtf8 _ => "config-unparsable"
  | .unreadableFile _ error => if error.notFound then "include-missing" else "include-unreadable"
  | .includeCycle _ => "include-cycle"
  | .limitExceeded .depth _ => "include-depth-limit"
  | .limitExceeded .files _ => "include-file-limit"
  | .limitExceeded .bytes _ => "include-bytes-limit"
  | .unenumerableInclude _ _ => "include-unenumerable"

structure HostWarning where
  code : String
  message : String

def bounded (message : String) : String := String.ofList (message.toList.take 512)

/-! Paths. -/

def isAbsolute (path : Path) : Bool := path.head? = some 0x2f

/-- What paths are compared by: empty parts do not count, nor does a dot other than in front. -/
def components (path : Path) : List Bytes :=
  let parts := path.splitOn 0x2f
  (if isAbsolute path then [[0x2f]] else if parts.head? = some [0x2e] then [[0x2e]] else []) ++
    parts.filter fun part => part ≠ [] && part ≠ [0x2e]

def join (base rest : Path) : Path :=
  if isAbsolute rest then rest
  else if base = [] ∨ base.getLast? = some 0x2f then base ++ rest
  else base ++ 0x2f :: rest

def parent (path : Path) : Option Path :=
  match (components path).reverse with
  | [] => none
  | [[0x2f]] => none
  | _ :: rest => some (rest.reverse.foldl join [])

/-- Where an `Include` points, or why that cannot be said by reading files. -/
def resolveInclude (argument : List Char) (includeBase : Path) : Except ConfigError Path :=
  let refuse (reason : String) : Except ConfigError Path :=
    .error (.unenumerableInclude argument reason)
  let against (expanded : Path) : Except ConfigError Path :=
    .ok (if isAbsolute expanded then expanded else join includeBase expanded)
  if argument = [] then refuse "empty path"
  else if '%' ∈ argument then refuse "the path contains a % token OpenSSH expands"
  else if argument = ['~'] ∨ ['~', '/'] <+: argument then
    match parent includeBase with
    | none => refuse "there is no home directory above the SSH directory"
    | some home =>
        match stripPrefix ['~', '/'] argument with
        | some rest => against (join home (Utf8.encode rest))
        | none => against home
  else if argument.head? = some '~' then
    refuse "another user's home directory cannot be resolved here"
  else against (Utf8.encode argument)

/-! Glob patterns. -/

def hasGlobMagic (name : Bytes) : Bool := name.any fun byte => byte = 0x2a || byte = 0x3f || byte = 0x5b

/-- Whether the byte is in the class, and what stands behind it, if it is closed. -/
def classMembers (nameByte : UInt8) (negated first found : Bool) (pattern : Bytes) :
    Option (Bytes × Bool) :=
  match pattern with
  | [] => none
  | byte :: rest =>
      -- a bracket in front is a member
      if byte = 0x5d ∧ first = false then some (rest, found != negated)
      else
        match byte, rest with
        | 0x5c, escaped :: behind =>
            classMembers nameByte negated false (found || escaped = nameByte) behind
        | low, 0x2d :: high :: behind =>
            if high ≠ 0x5d then
              classMembers nameByte negated false (found || (low ≤ nameByte && nameByte ≤ high)) behind
            else classMembers nameByte negated false (found || low = nameByte) (0x2d :: high :: behind)
        | member, behind => classMembers nameByte negated false (found || member = nameByte) behind
termination_by pattern.length

/-- `pattern` is what stands behind the opening bracket. -/
def characterClass (pattern : Bytes) (nameByte : UInt8) : Option (Bytes × Bool) :=
  match pattern with
  | 0x21 :: rest => classMembers nameByte true true false rest
  | 0x5e :: rest => classMembers nameByte true true false rest
  | _ => classMembers nameByte false true false pattern

def matchCharacter (pattern : Bytes) (nameByte : UInt8) : Option Bytes :=
  match pattern with
  | [] => none
  | 0x3f :: rest => if nameByte ≠ 0x2f then some rest else none
  | 0x5b :: rest =>
      match characterClass rest nameByte with
      | some (behind, true) => some behind
      | some (_, false) => none
      -- a bracket that does not open a class is a literal
      | none => if nameByte = 0x5b then some rest else none
  | 0x5c :: escaped :: rest => if escaped = nameByte then some rest else none
  | literal :: rest => if literal = nameByte then some rest else none

/-- `star` is what stood behind the last star in the pattern, and the name at that point. -/
def wildcardFrom (pattern name : Bytes) (star : Option (Bytes × Bytes)) : Bool :=
  match name with
  | [] => pattern.all (· = 0x2a)
  | byte :: behind =>
      match pattern with
      | 0x2a :: rest => wildcardFrom rest (byte :: behind) (some (rest, byte :: behind))
      | _ =>
          match matchCharacter pattern byte with
          | some rest => wildcardFrom rest behind star
          | none =>
              match star with
              | none => false
              | some (_, []) => false
              | some (afterStar, skipped :: later) =>
                  if skipped = 0x2f then false
                  else wildcardFrom afterStar later (some (afterStar, later))
termination_by
  ((match star with | none => name.length + 1 | some (_, held) => max held.length name.length),
    name.length, pattern.length)
decreasing_by
  all_goals
    simp only [Prod.lex_def, List.length_cons]
    try split
  all_goals first
    | omega
    | simp only [Nat.lt_add_one, or_true, and_true]; omega

def wildcardMatch (pattern name : Bytes) : Bool := wildcardFrom pattern name none

/-- The part of the pattern that is literally there, and the names behind it. -/
def splitComponents (pattern : Path) : Path × List Bytes :=
  (if isAbsolute pattern then [0x2f] else [],
    (components pattern).filter fun name => name ≠ [0x2f] && name ≠ [0x2e])

def isDirectory (fs : FileSystem) (path : Path) : Bool :=
  (fs.metadata path).toOption.any fun metadata => metadata.2

def matchesEntry (name entry : Bytes) : Bool :=
  let text := Utf8.encode (Utf8.decode name)
  !(entry.head? = some 0x2e && text.head? ≠ some 0x2e) && wildcardMatch text entry

abbrev Matches := List Path × List ConfigError

def collectMatches (fs : FileSystem) : List Bytes → Path → Matches → Matches
  | [], directory, (found, problems) => (found ++ [directory], problems)
  | name :: rest, directory, (found, problems) =>
      let descend (state : Matches) (path : Path) : Matches :=
        if rest = [] then (state.1 ++ [path], state.2)
        else if isDirectory fs path then collectMatches fs rest path state
        else state
      if hasGlobMagic name then
        match fs.readDir directory with
        | .error error => (found, problems ++ [.unreadableFile directory error])
        | .ok entries =>
            ((entries.filter fun entry => matchesEntry name entry).map (join directory)).foldl descend
              (found, problems)
      else descend (found, problems) (join directory name)

def expandGlob (fs : FileSystem) (pattern : Path) : Matches :=
  let (root, names) := splitComponents pattern
  let (found, problems) := collectMatches fs names root ([], [])
  ((found.filter fun path => !isDirectory fs path).insertionSort fun first second =>
    components first ≤ components second, problems)

/-! The walk. -/

/-- `deepest` and `skipped` are no part of the program: how many files were open at once at
most, and whether a file or a line was passed over for a budget. -/
structure Walk where
  hashed : Bytes := []
  aliases : List (List Char) := []
  seen : List (List Char) := []
  warnings : List HostWarning := []
  incomplete : Bool := false
  files : Nat := 0
  bytes : Nat := 0
  /-- Canonical paths of the files that are open, the last one first. -/
  chain : List Path := []
  stopped : Bool := false
  deepest : Nat := 0
  skipped : Bool := false

structure WalkContext where
  fs : FileSystem
  includeBase : Path
  limits : IncludeLimits

abbrev Deeper := Option (Path → Walk → Except ConfigError Walk)

namespace Walk

def note (walk : Walk) (error : ConfigError) (stopsWalk : Bool) : Walk :=
  { walk with
    incomplete := true
    warnings := walk.warnings ++ [{ code := warningCode error, message := bounded error.message }]
    stopped := walk.stopped || stopsWalk
    skipped := walk.skipped || stopsWalk }

def skip (walk : Walk) : Walk := { walk with skipped := true }

def addCandidate (walk : Walk) (pattern : List Char) : Walk :=
  match concretePattern pattern with
  | none => walk
  | some name =>
      if name ∈ walk.seen then walk
      else { walk with seen := walk.seen ++ [name], aliases := walk.aliases ++ [name] }

end Walk

/-- The canonical path when the file system can answer, and the path as given otherwise. -/
def canonical (fs : FileSystem) (path : Path) : Path := (fs.canonicalize path).getD path

def isOpen (fs : FileSystem) (walk : Walk) (path : Path) : Bool :=
  walk.chain.any fun opened => components opened = components (canonical fs path)

def includeTargets (context : WalkContext) (deeper : Deeper) : List Path → Walk → Walk
  | [], walk => walk
  | path :: rest, walk =>
      if walk.stopped then walk.skip
      else
        match deeper with
        | none => walk.note (.limitExceeded .depth context.limits.depth) true
        | some readFile =>
            if isOpen context.fs walk path then
              includeTargets context deeper rest (walk.note (.includeCycle path) false)
            else
              match readFile path walk with
              | .ok after => includeTargets context deeper rest after
              | .error error =>
                  let stopsWalk := match error with
                    | .limitExceeded _ _ => true
                    | _ => false
                  includeTargets context deeper rest (walk.note error stopsWalk)

/-- What an argument of `Include` names, and what could not be enumerated of it. -/
def targetsOf (context : WalkContext) (argument : List Char) : Matches :=
  match resolveInclude argument context.includeBase with
  | .error error => ([], [error])
  | .ok target => if hasGlobMagic target then expandGlob context.fs target else ([target], [])

def includeArgument (context : WalkContext) (deeper : Deeper) (argument : List Char) (walk : Walk) :
    Walk :=
  let (targets, problems) := targetsOf context argument
  includeTargets context deeper targets
    (problems.foldl (fun walk problem => walk.note problem false) walk)

def includeArguments (context : WalkContext) (deeper : Deeper) : List (List Char) → Walk → Walk
  | [], walk => walk
  | argument :: rest, walk =>
      if walk.stopped then walk.skip
      else includeArguments context deeper rest (includeArgument context deeper argument walk)

def consume (context : WalkContext) (deeper : Deeper) (line : ConfigLine) (walk : Walk) : Walk :=
  if eqIgnoreAsciiCase line.keyword "host" then line.arguments.foldl Walk.addCandidate walk
  else if !eqIgnoreAsciiCase line.keyword "include" then walk
  else if line.inMatchBlock then
    walk.note (.unenumerableInclude ([' '].intercalate line.arguments) "inside a Match block") false
  else includeArguments context deeper line.arguments walk

def consumeLines (context : WalkContext) (deeper : Deeper) : List ConfigLine → Walk → Walk
  | [], walk => walk
  | line :: rest, walk =>
      if walk.stopped then walk.skip
      else consumeLines context deeper rest (consume context deeper line walk)

def consumeText (context : WalkContext) (deeper : Deeper) (text : List Char) (walk : Walk) : Walk :=
  match lines text with
  | .error line => walk.note (.unterminatedQuote line) false
  | .ok parsed => consumeLines context deeper parsed walk

def readWith (context : WalkContext) (deeper : Deeper) (path : Path) (walk : Walk) :
    Except ConfigError Walk :=
  let limits := context.limits
  if walk.stopped then .ok walk.skip
  else if limits.files ≤ walk.files then .error (.limitExceeded .files limits.files)
  else
    let length := ((context.fs.metadata path).toOption.map Prod.fst).getD 0
    if limits.bytes < walk.bytes + length then .error (.limitExceeded .bytes limits.bytes)
    else
      match context.fs.read path with
      | .error error => .error (.unreadableFile path error)
      | .ok bytes =>
          if limits.bytes < walk.bytes + bytes.length then
            .error (.limitExceeded .bytes limits.bytes)
          else
            match Utf8.decodeStrict bytes with
            | none => .error (.notUtf8 path)
            | some text =>
                let opened := { walk with
                  files := walk.files + 1
                  bytes := walk.bytes + bytes.length
                  hashed := walk.hashed ++ bytes
                  chain := canonical context.fs path :: walk.chain
                  deepest := max walk.deepest (walk.chain.length + 1) }
                let consumed := consumeText context deeper text opened
                .ok { consumed with chain := consumed.chain.tail }

/-- `levels` is how many levels of `Include` are left. -/
def readFile (context : WalkContext) : Nat → Path → Walk → Except ConfigError Walk
  | 0 => readWith context none
  | levels + 1 => readWith context (some (readFile context levels))

/-- The walk that `read_source` finishes, or why the primary file cannot be read. -/
def walkSource (fs : FileSystem) (source : ConfigSource) (limits : IncludeLimits) :
    Except ConfigError Walk :=
  match fs.metadata source.path with
  | .error error => if error.notFound then .ok {} else .error (.unreadableFile source.path error)
  | .ok _ => readFile ⟨fs, source.includeBase, limits⟩ limits.depth source.path {}

structure SourceReading where
  aliases : List (List Char)
  warnings : List HostWarning
  incomplete : Bool
  revision : String

/-- `sha256` is the digest in hexadecimal digits. -/
def Walk.finish (sha256 : Bytes → String) (walk : Walk) : SourceReading where
  aliases := walk.aliases
  warnings := walk.warnings
  incomplete := walk.incomplete
  revision := "sha256-" ++ sha256 walk.hashed

def readSource (sha256 : Bytes → String) (fs : FileSystem) (source : ConfigSource)
    (limits : IncludeLimits) : Except ConfigError SourceReading :=
  (walkSource fs source limits).map (Walk.finish sha256)

end Refyard.Ssh
