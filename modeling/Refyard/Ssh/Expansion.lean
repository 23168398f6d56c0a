import Mathlib.Data.List.Induction
import Refyard.Ssh.Source

/-! What an SSH configuration says when every `Include` is put in its place, and that a walk
that reports itself complete has listed all of it. -/
namespace Refyard.Ssh

def isInclude (line : ConfigLine) : Bool :=
  !eqIgnoreAsciiCase line.keyword "host" && eqIgnoreAsciiCase line.keyword "include"

mutual

inductive FileExpands (context : WalkContext) : Path → List Bytes → List ConfigLine → Prop where
  | file {path : Path} {bytes : Bytes} {text : List Char} {parsed out : List ConfigLine}
      {contents : List Bytes} (stands : context.fs.read path = .ok bytes)
      (readable : Utf8.decodeStrict bytes = some text) (lexes : lines text = .ok parsed)
      (inside : LinesExpand context parsed contents out) :
      FileExpands context path (bytes :: contents) out

/-- Behind a line that includes stands what it includes, outside of any `Match`. -/
inductive LinesExpand (context : WalkContext) :
    List ConfigLine → List Bytes → List ConfigLine → Prop where
  | nil : LinesExpand context [] [] []
  | plain {line : ConfigLine} {rest out : List ConfigLine} {contents : List Bytes}
      (other : isInclude line = false) (behind : LinesExpand context rest contents out) :
      LinesExpand context (line :: rest) contents (line :: out)
  | include {line : ConfigLine} {rest included out : List ConfigLine}
      {contents more : List Bytes} (includes : isInclude line = true)
      (unconditional : line.inMatchBlock = false)
      (enumerated : ∀ argument ∈ line.arguments, (targetsOf context argument).2 = [])
      (there : PathsExpand context
        (line.arguments.flatMap fun argument => (targetsOf context argument).1) contents included)
      (behind : LinesExpand context rest more out) :
      LinesExpand context (line :: rest) (contents ++ more) (line :: (included ++ out))

inductive PathsExpand (context : WalkContext) :
    List Path → List Bytes → List ConfigLine → Prop where
  | nil : PathsExpand context [] [] []
  | cons {path : Path} {rest : List Path} {included out : List ConfigLine}
      {contents more : List Bytes} (file : FileExpands context path contents included)
      (behind : PathsExpand context rest more out) :
      PathsExpand context (path :: rest) (contents ++ more) (included ++ out)

end

theorem PathsExpand.append {context : WalkContext} {first second : List Path}
    {contents more : List Bytes} {included out : List ConfigLine}
    (left : PathsExpand context first contents included)
    (right : PathsExpand context second more out) :
    PathsExpand context (first ++ second) (contents ++ more) (included ++ out) := by
  induction first generalizing contents included with
  | nil =>
    cases left
    exact right
  | cons path rest ih =>
    cases left with
    | cons file behind =>
      rw [List.cons_append, List.append_assoc, List.append_assoc]
      exact .cons file (ih behind)

mutual

/-- What a file expands to is unique. -/
theorem FileExpands.unique {context : WalkContext} {path : Path} {contents others : List Bytes}
    {out also : List ConfigLine} :
    FileExpands context path contents out → FileExpands context path others also →
      contents = others ∧ out = also
  | .file stands readable lexes inside, .file alsoStands alsoReadable alsoLexes alsoInside => by
    cases stands.symm.trans alsoStands
    cases readable.symm.trans alsoReadable
    cases lexes.symm.trans alsoLexes
    obtain ⟨rfl, rfl⟩ := inside.unique alsoInside
    exact ⟨rfl, rfl⟩

theorem LinesExpand.unique {context : WalkContext} {parsed out also : List ConfigLine}
    {contents others : List Bytes} :
    LinesExpand context parsed contents out → LinesExpand context parsed others also →
      contents = others ∧ out = also
  | .nil, .nil => ⟨rfl, rfl⟩
  | .plain _ behind, .plain _ alsoBehind => by
    obtain ⟨rfl, rfl⟩ := behind.unique alsoBehind
    exact ⟨rfl, rfl⟩
  | .plain other _, .include includes .. => by cases other.symm.trans includes
  | .include includes .., .plain other _ => by cases other.symm.trans includes
  | .include _ _ _ there behind, .include _ _ _ alsoThere alsoBehind => by
    obtain ⟨rfl, rfl⟩ := there.unique alsoThere
    obtain ⟨rfl, rfl⟩ := behind.unique alsoBehind
    exact ⟨rfl, rfl⟩

theorem PathsExpand.unique {context : WalkContext} {paths : List Path}
    {contents others : List Bytes} {out also : List ConfigLine} :
    PathsExpand context paths contents out → PathsExpand context paths others also →
      contents = others ∧ out = also
  | .nil, .nil => ⟨rfl, rfl⟩
  | .cons file behind, .cons alsoFile alsoBehind => by
    obtain ⟨rfl, rfl⟩ := file.unique alsoFile
    obtain ⟨rfl, rfl⟩ := behind.unique alsoBehind
    exact ⟨rfl, rfl⟩

end

def candidates (line : ConfigLine) : List (List Char) :=
  if eqIgnoreAsciiCase line.keyword "host" then line.arguments.filterMap concretePattern else []

/-- The walk goes by its own rules: it has not read more than its limits allow, has said that it
is incomplete if it stopped or passed anything over, and lists what it has seen. -/
structure Walk.Sound (context : WalkContext) (walk : Walk) : Prop where
  files : walk.files ≤ context.limits.files
  bytes : walk.bytes ≤ context.limits.bytes
  deepest : walk.deepest ≤ context.limits.depth + 1
  stopped : walk.stopped = true → walk.incomplete = true
  skipped : walk.skipped = true → walk.incomplete = true
  seen : walk.seen = walk.aliases
  distinct : walk.aliases.eraseDups = walk.aliases

/-- What reading on from one walk to another has done: it stayed sound, closed what it opened,
and if the second is complete then it has read these contents and listed these lines. -/
structure Walk.Reads (context : WalkContext) (before after : Walk)
    (told : List Bytes → List ConfigLine → Prop) : Prop where
  sound : after.Sound context
  chain : after.chain = before.chain
  complete : after.incomplete = false → before.incomplete = false ∧
    ∃ contents out, told contents out ∧ after.hashed = before.hashed ++ contents.flatten ∧
      after.aliases = (before.aliases ++ out.flatMap candidates).eraseDups

theorem eraseDups_concat (front : List (List Char)) (name : List Char) :
    (front ++ [name]).eraseDups =
      if name ∈ front then front.eraseDups else front.eraseDups ++ [name] := by
  rw [List.eraseDups_append]
  split
  · rename_i known
    simp [List.removeAll, known]
  · rename_i unknown
    have fresh : List.removeAll [name] front = [name] := by simp [List.removeAll, unknown]
    rw [fresh]
    rfl

theorem eraseDups_idem (names : List (List Char)) : names.eraseDups.eraseDups = names.eraseDups := by
  induction names using List.reverseRecOn with
  | nil => rfl
  | append_singleton front name ih =>
    rw [eraseDups_concat]
    split
    · exact ih
    · rename_i unknown
      rw [eraseDups_concat, if_neg (by rwa [List.mem_eraseDups]), ih]

theorem eraseDups_append_left (first second : List (List Char)) :
    (first.eraseDups ++ second).eraseDups = (first ++ second).eraseDups := by
  rw [List.eraseDups_append, List.eraseDups_append, eraseDups_idem]
  congr 2
  apply List.filter_congr
  intro name _
  simp

namespace Walk

variable {context : WalkContext} {before walk after : Walk} {told : List Bytes → List ConfigLine → Prop}

theorem sound_start (context : WalkContext) : Walk.Sound context {} where
  files := Nat.zero_le _
  bytes := Nat.zero_le _
  deepest := Nat.zero_le _
  stopped := by simp
  skipped := by simp
  seen := rfl
  distinct := rfl

theorem reads_of_incomplete (sound : after.Sound context) (chain : after.chain = before.chain)
    (incomplete : after.incomplete = true) : before.Reads context after told where
  sound
  chain
  complete := by
    intro complete
    rw [incomplete] at complete
    cases complete

theorem Sound.note (sound : walk.Sound context) (error : ConfigError) (stopsWalk : Bool) :
    (walk.note error stopsWalk).Sound context where
  files := sound.files
  bytes := sound.bytes
  deepest := sound.deepest
  stopped := fun _ => rfl
  skipped := fun _ => rfl
  seen := sound.seen
  distinct := sound.distinct

theorem Sound.reads_note (sound : walk.Sound context) (error : ConfigError) (stopsWalk : Bool) :
    walk.Reads context (walk.note error stopsWalk) told :=
  reads_of_incomplete (sound.note error stopsWalk) rfl rfl

theorem Sound.reads_skip (sound : walk.Sound context) (stopped : walk.stopped = true) :
    walk.Reads context walk.skip told := by
  have incomplete := sound.stopped stopped
  have skips : walk.skip.Sound context :=
    ⟨sound.files, sound.bytes, sound.deepest, sound.stopped, fun _ => incomplete, sound.seen,
      sound.distinct⟩
  exact reads_of_incomplete skips rfl incomplete

theorem Sound.reads_nothing (sound : walk.Sound context) (nothing : told [] []) :
    walk.Reads context walk told where
  sound
  chain := rfl
  complete := by
    intro complete
    refine ⟨complete, [], [], nothing, ?_, ?_⟩
    · rw [List.flatten_nil, List.append_nil]
    · rw [List.flatMap_nil, List.append_nil, sound.distinct]

variable {first : List Bytes → List ConfigLine → Prop} {line : ConfigLine}

theorem Reads.trans {second : List Bytes → List ConfigLine → Prop}
    (left : before.Reads context walk first) (right : walk.Reads context after second)
    (both : ∀ contents out more others, first contents out → second more others →
      told (contents ++ more) (out ++ others)) : before.Reads context after told where
  sound := right.sound
  chain := right.chain.trans left.chain
  complete := by
    intro complete
    obtain ⟨already, more, others, later, hashedLater, aliasesLater⟩ := right.complete complete
    obtain ⟨start, contents, out, sooner, hashed, aliases⟩ := left.complete already
    refine ⟨start, contents ++ more, out ++ others, both contents out more others sooner later, ?_, ?_⟩
    · rw [hashedLater, hashed, List.flatten_append, List.append_assoc]
    · rw [aliasesLater, aliases, eraseDups_append_left, List.flatMap_append, List.append_assoc]

theorem Reads.mono (reads : before.Reads context after first)
    (tells : ∀ contents out, first contents out → told contents out) :
    before.Reads context after told where
  sound := reads.sound
  chain := reads.chain
  complete := by
    intro complete
    obtain ⟨start, contents, out, said, rest⟩ := reads.complete complete
    exact ⟨start, contents, out, tells contents out said, rest⟩

theorem Sound.addCandidate (sound : walk.Sound context) (pattern : List Char) :
    (walk.addCandidate pattern).Sound context ∧ (walk.addCandidate pattern).chain = walk.chain ∧
      (walk.addCandidate pattern).incomplete = walk.incomplete ∧
      (walk.addCandidate pattern).hashed = walk.hashed ∧ (walk.addCandidate pattern).aliases =
        (walk.aliases ++ (concretePattern pattern).toList).eraseDups := by
  unfold Walk.addCandidate
  split
  · rename_i other
    rw [other, Option.toList_none, List.append_nil, sound.distinct]
    exact ⟨sound, rfl, rfl, rfl, rfl⟩
  · rename_i name concrete
    rw [concrete, Option.toList_some]
    have added := eraseDups_concat walk.aliases name
    rw [sound.distinct] at added
    split
    · rename_i known
      rw [added, if_pos (sound.seen ▸ known)]
      exact ⟨sound, rfl, rfl, rfl, rfl⟩
    · rename_i unknown
      rw [sound.seen] at unknown
      rw [added, if_neg unknown]
      rw [if_neg unknown] at added
      refine ⟨⟨sound.files, sound.bytes, sound.deepest, sound.stopped, sound.skipped, ?_, added⟩,
        rfl, rfl, rfl, rfl⟩
      rw [sound.seen]

theorem Sound.addCandidates (sound : walk.Sound context) (patterns : List (List Char)) :
    (patterns.foldl Walk.addCandidate walk).Sound context ∧
      (patterns.foldl Walk.addCandidate walk).chain = walk.chain ∧
      (patterns.foldl Walk.addCandidate walk).incomplete = walk.incomplete ∧
      (patterns.foldl Walk.addCandidate walk).hashed = walk.hashed ∧
      (patterns.foldl Walk.addCandidate walk).aliases =
        (walk.aliases ++ patterns.filterMap concretePattern).eraseDups := by
  induction patterns generalizing walk with
  | nil =>
    rw [List.filterMap_nil, List.append_nil, sound.distinct]
    exact ⟨sound, rfl, rfl, rfl, rfl⟩
  | cons pattern patterns ih =>
    obtain ⟨one, chain, incomplete, hashed, aliases⟩ := sound.addCandidate pattern
    obtain ⟨all, chains, incompletes, hasheds, names⟩ := ih one
    refine ⟨all, chains.trans chain, incompletes.trans incomplete, hasheds.trans hashed, ?_⟩
    rw [List.foldl_cons, names, aliases, eraseDups_append_left, List.append_assoc]
    congr 2
    cases concrete : concretePattern pattern with
    | none => rw [List.filterMap_cons_none concrete]; rfl
    | some name => rw [List.filterMap_cons_some concrete]; rfl

theorem Sound.reads_plain (sound : walk.Sound context) (silent : candidates line = []) :
    walk.Reads context walk fun contents out => contents = [] ∧ out = [line] where
  sound
  chain := rfl
  complete := by
    intro complete
    refine ⟨complete, [], [line], ⟨rfl, rfl⟩, ?_, ?_⟩
    · rw [List.flatten_nil, List.append_nil]
    · rw [List.flatMap_singleton, silent, List.append_nil, sound.distinct]

theorem Sound.reads_host (sound : walk.Sound context)
    (host : eqIgnoreAsciiCase line.keyword "host" = true) :
    walk.Reads context (line.arguments.foldl Walk.addCandidate walk)
      fun contents out => contents = [] ∧ out = [line] := by
  obtain ⟨all, chain, incomplete, hashed, aliases⟩ := sound.addCandidates line.arguments
  refine ⟨all, chain, ?_⟩
  intro complete
  refine ⟨incomplete ▸ complete, [], [line], ⟨rfl, rfl⟩, ?_, ?_⟩
  · rw [hashed, List.flatten_nil, List.append_nil]
  · rw [aliases, List.flatMap_singleton, candidates, if_pos host]

end Walk

def Reader (context : WalkContext) (level : Nat) (deeper : Deeper) : Prop :=
  ∀ readFile ∈ deeper, ∀ path walk after, walk.Sound context → walk.chain.length = level →
    readFile path walk = .ok after → walk.Reads context after (FileExpands context path)

section
variable {context : WalkContext} {deeper : Deeper} {level : Nat}
variable {walk : Walk}

open Walk in
theorem reads_includeTargets (reader : Reader context level deeper) (paths : List Path)
    (sound : walk.Sound context) (deep : walk.chain.length = level) :
    walk.Reads context (includeTargets context deeper paths walk) (PathsExpand context paths) := by
  induction paths generalizing walk with
  | nil => exact sound.reads_nothing .nil
  | cons path rest ih =>
    unfold includeTargets
    split
    · rename_i stopped
      exact sound.reads_skip stopped
    · have noted (error : ConfigError) (stopsWalk : Bool) : walk.Reads context
          (includeTargets context deeper rest (walk.note error stopsWalk))
          (PathsExpand context (path :: rest)) := by
        have never := @Walk.Sound.reads_note context walk (fun _ _ => False) sound error stopsWalk
        apply never.trans (ih (sound.note error stopsWalk) deep)
        exact fun _ _ _ _ absurdity => absurdity.elim
      split
      · exact sound.reads_note _ _
      · rename_i readFile
        split
        · exact noted _ _
        · split
          · rename_i after read
            have file := reader readFile rfl path walk after sound deep read
            apply file.trans (ih file.sound (by rw [file.chain, deep]))
            intro contents out more others first behind
            exact .cons first behind
          · exact noted _ _

open Walk in
theorem reads_problems (problems : List ConfigError) (sound : walk.Sound context) :
    walk.Reads context (problems.foldl (fun walk problem => walk.note problem false) walk)
      fun contents out => problems = [] ∧ contents = [] ∧ out = [] := by
  induction problems generalizing walk with
  | nil => exact sound.reads_nothing ⟨rfl, rfl, rfl⟩
  | cons problem problems ih =>
    have never := @Walk.Sound.reads_note context walk (fun _ _ => False) sound problem false
    apply never.trans (ih (sound.note problem false))
    exact fun _ _ _ _ absurdity => absurdity.elim

open Walk in
theorem reads_includeArguments (reader : Reader context level deeper) (arguments : List (List Char))
    (sound : walk.Sound context) (deep : walk.chain.length = level) :
    walk.Reads context (includeArguments context deeper arguments walk) fun contents out =>
      (∀ argument ∈ arguments, (targetsOf context argument).2 = []) ∧
        PathsExpand context (arguments.flatMap fun argument => (targetsOf context argument).1)
          contents out := by
  induction arguments generalizing walk with
  | nil => exact sound.reads_nothing ⟨by simp, .nil⟩
  | cons argument rest ih =>
    unfold includeArguments
    split
    · rename_i stopped
      exact sound.reads_skip stopped
    · have problems := reads_problems (targetsOf context argument).2 sound
      have targets := reads_includeTargets reader (targetsOf context argument).1 problems.sound
        (by rw [problems.chain, deep])
      have one : walk.Reads context (includeArgument context deeper argument walk)
          fun contents out => (targetsOf context argument).2 = [] ∧
            PathsExpand context (targetsOf context argument).1 contents out := by
        apply problems.trans targets
        rintro _ _ more others ⟨enumerated, rfl, rfl⟩ there
        exact ⟨enumerated, there⟩
      apply one.trans (ih one.sound (by rw [one.chain, deep]))
      rintro contents out more others ⟨enumerated, there⟩ ⟨others_enumerated, behind⟩
      refine ⟨?_, there.append behind⟩
      intro other member
      rw [List.mem_cons] at member
      rcases member with rfl | later
      · exact enumerated
      · exact others_enumerated other later

open Walk in
theorem reads_consume (reader : Reader context level deeper) (line : ConfigLine)
    (sound : walk.Sound context) (deep : walk.chain.length = level) :
    walk.Reads context (consume context deeper line walk) fun contents out =>
      (isInclude line = false ∧ contents = [] ∧ out = [line]) ∨
        (isInclude line = true ∧ line.inMatchBlock = false ∧
          (∀ argument ∈ line.arguments, (targetsOf context argument).2 = []) ∧
          ∃ included, out = line :: included ∧ PathsExpand context
            (line.arguments.flatMap fun argument => (targetsOf context argument).1)
            contents included) := by
  unfold consume
  split
  · rename_i host
    apply (sound.reads_host host).mono
    rintro contents out ⟨rfl, rfl⟩
    exact .inl ⟨by simp [isInclude, host], rfl, rfl⟩
  rename_i notHost
  have silent : candidates line = [] := if_neg notHost
  split
  · rename_i other
    apply (sound.reads_plain silent).mono
    rintro contents out ⟨rfl, rfl⟩
    exact .inl ⟨by simpa [isInclude] using fun _ => other, rfl, rfl⟩
  rename_i includes
  split
  · exact sound.reads_note _ _
  · rename_i unconditional
    apply (sound.reads_plain silent).trans (reads_includeArguments reader line.arguments sound deep)
    rintro contents out more others ⟨rfl, rfl⟩ ⟨enumerated, there⟩
    refine .inr ⟨?_, ?_, enumerated, others, rfl, there⟩
    · simpa [isInclude, notHost] using includes
    · simpa using unconditional

open Walk in
theorem reads_consumeLines (reader : Reader context level deeper) (parsed : List ConfigLine)
    (sound : walk.Sound context) (deep : walk.chain.length = level) :
    walk.Reads context (consumeLines context deeper parsed walk) (LinesExpand context parsed) := by
  induction parsed generalizing walk with
  | nil => exact sound.reads_nothing .nil
  | cons line rest ih =>
    unfold consumeLines
    split
    · rename_i stopped
      exact sound.reads_skip stopped
    · have one : walk.Reads context (consume context deeper line walk) fun contents out =>
          (isInclude line = false ∧ contents = [] ∧ out = [line]) ∨
            (isInclude line = true ∧ line.inMatchBlock = false ∧
              (∀ argument ∈ line.arguments, (targetsOf context argument).2 = []) ∧
              ∃ included, out = line :: included ∧ PathsExpand context
                (line.arguments.flatMap fun argument => (targetsOf context argument).1)
                contents included) :=
        reads_consume reader line sound deep
      apply one.trans (ih one.sound (by rw [one.chain, deep]))
      rintro contents out more others (⟨other, rfl, rfl⟩ |
        ⟨includes, unconditional, enumerated, included, rfl, there⟩) behind
      · exact .plain other behind
      · exact .include includes unconditional enumerated there behind

open Walk in
theorem reads_readWith (reader : Reader context (level + 1) deeper) (within : level ≤ context.limits.depth) :
    Reader context level (some (readWith context deeper)) := by
  rintro readFile ⟨⟩ path walk after sound deep read
  unfold readWith at read
  dsimp only at read
  split at read
  · cases read
    rename_i stopped
    exact sound.reads_skip stopped
  split at read
  · cases read
  rename_i spare
  split at read
  · cases read
  split at read
  · cases read
  rename_i bytes stands
  split at read
  · cases read
  rename_i fits
  split at read
  · cases read
  rename_i text readable
  cases read
  generalize opens : ({ walk with
      files := walk.files + 1
      bytes := walk.bytes + bytes.length
      hashed := walk.hashed ++ bytes
      chain := canonical context.fs path :: walk.chain
      deepest := max walk.deepest (walk.chain.length + 1) } : Walk) = opened
  have opened_sound : opened.Sound context := by
    subst opens
    refine ⟨?_, ?_, ?_, sound.stopped, sound.skipped, sound.seen, sound.distinct⟩
    · dsimp only
      omega
    · dsimp only
      omega
    · have held := sound.deepest
      dsimp only
      omega
  have opened_deep : opened.chain.length = level + 1 := by
    subst opens
    rw [List.length_cons, deep]
  have inside : opened.Reads context (consumeText context deeper text opened) fun contents out =>
      ∃ parsed, lines text = .ok parsed ∧ LinesExpand context parsed contents out := by
    unfold consumeText
    split
    · exact opened_sound.reads_note _ _
    · rename_i parsed lexes
      apply (reads_consumeLines reader parsed opened_sound opened_deep).mono
      exact fun contents out expands => ⟨parsed, lexes, expands⟩
  have closed : (consumeText context deeper text opened).chain.tail = walk.chain := by
    rw [inside.chain]
    subst opens
    rfl
  refine ⟨⟨inside.sound.files, inside.sound.bytes, inside.sound.deepest, inside.sound.stopped,
    inside.sound.skipped, inside.sound.seen, inside.sound.distinct⟩, closed, ?_⟩
  intro complete
  obtain ⟨already, contents, out, ⟨parsed, lexes, expands⟩, hashed, aliases⟩ := inside.complete complete
  have start : opened.incomplete = walk.incomplete ∧ opened.hashed = walk.hashed ++ bytes ∧
      opened.aliases = walk.aliases := by
    subst opens
    exact ⟨rfl, rfl, rfl⟩
  rw [start.1] at already
  rw [start.2.1] at hashed
  rw [start.2.2] at aliases
  refine ⟨already, bytes :: contents, out, .file stands readable lexes expands, ?_, aliases⟩
  rw [List.flatten_cons, ← List.append_assoc]
  exact hashed

theorem reader_readFile (levels : Nat) (within : level + levels = context.limits.depth) :
    Reader context level (some (readFile context levels)) := by
  induction levels generalizing level with
  | zero => exact reads_readWith (fun readFile none => by cases none) (by omega)
  | succ levels ih => exact reads_readWith (ih (by omega)) (by omega)

end

variable {fs : FileSystem} {source : ConfigSource} {limits : IncludeLimits}

/-- What a walk of a source reports, or why there is none. `told` is what the primary file stands
for. -/
theorem walkSource_sound {walk : Walk} (walked : walkSource fs source limits = .ok walk) :
    walk.Sound ⟨fs, source.includeBase, limits⟩ ∧ (walk.incomplete = false → ∃ contents out,
      ((∃ error, fs.metadata source.path = .error error ∧ error.notFound = true ∧ contents = [] ∧
          out = []) ∨ FileExpands ⟨fs, source.includeBase, limits⟩ source.path contents out) ∧
        walk.hashed = contents.flatten ∧ walk.aliases = (out.flatMap candidates).eraseDups) := by
  unfold walkSource at walked
  split at walked
  · rename_i error missing
    split at walked
    · rename_i notFound
      cases walked
      exact ⟨Walk.sound_start _, fun _ => ⟨[], [], .inl ⟨error, missing, notFound, rfl, rfl⟩, rfl, rfl⟩⟩
    · cases walked
  · have reads := @reader_readFile ⟨fs, source.includeBase, limits⟩ 0 limits.depth
      (Nat.zero_add _) _ rfl source.path {} walk (Walk.sound_start _) rfl walked
    refine ⟨reads.sound, ?_⟩
    intro complete
    obtain ⟨-, contents, out, expands, hashed, aliases⟩ := reads.complete complete
    exact ⟨contents, out, .inr expands, hashed, aliases⟩

/-- Why there is no reading: the primary file itself cannot be read within the limits. -/
def PrimaryRefused (fs : FileSystem) (source : ConfigSource) (limits : IncludeLimits) :
    ConfigError → Prop
  | .unreadableFile path error =>
      path = source.path ∧ (fs.metadata path = .error error ∨ fs.read path = .error error)
  | .notUtf8 path => path = source.path
  | .limitExceeded .files value => value = limits.files ∧ limits.files = 0
  | .limitExceeded .bytes value => value = limits.bytes ∧
      ((∃ metadata, fs.metadata source.path = .ok metadata ∧ limits.bytes < metadata.1) ∨
        ∃ bytes, fs.read source.path = .ok bytes ∧ limits.bytes < bytes.length)
  | _ => False

theorem primaryRefused {error : ConfigError} (refused : walkSource fs source limits = .error error) :
    PrimaryRefused fs source limits error := by
  unfold walkSource at refused
  split at refused
  · rename_i io missing
    split at refused
    · cases refused
    · cases refused
      exact ⟨rfl, .inl missing⟩
  rename_i metadata there
  have first : ∃ deeper, readFile ⟨fs, source.includeBase, limits⟩ limits.depth =
      readWith ⟨fs, source.includeBase, limits⟩ deeper := by
    cases limits.depth with
    | zero => exact ⟨_, rfl⟩
    | succ levels => exact ⟨_, rfl⟩
  obtain ⟨deeper, first⟩ := first
  rw [first] at refused
  unfold readWith at refused
  dsimp only at refused
  rw [if_neg (by decide)] at refused
  split at refused
  · rename_i none_left
    cases refused
    exact ⟨rfl, Nat.le_zero.mp none_left⟩
  split at refused
  · rename_i long
    cases refused
    rw [there] at long
    exact ⟨rfl, .inl ⟨metadata, there, by simpa [Except.toOption] using long⟩⟩
  split at refused
  · rename_i io unreadable
    cases refused
    exact ⟨rfl, .inr unreadable⟩
  rename_i bytes stands
  split at refused
  · rename_i long
    cases refused
    exact ⟨rfl, .inr ⟨bytes, stands, by simpa using long⟩⟩
  split at refused
  · cases refused
    rfl
  · cases refused

/-- A reading keeps to its limits, says that it is incomplete if a file or a line was passed
over for one of them, and if it is complete has listed exactly the names of the lines that the
primary file stands for. Without a reading it is the primary file that was refused. -/
theorem readSource_complete_and_bounded (sha256 : Bytes → String) (fs : FileSystem)
    (source : ConfigSource) (limits : IncludeLimits) :
    match walkSource fs source limits with
    | .error error => readSource sha256 fs source limits = .error error ∧
        PrimaryRefused fs source limits error
    | .ok walk => ∃ reading, readSource sha256 fs source limits = .ok reading ∧
        walk.files ≤ limits.files ∧ walk.bytes ≤ limits.bytes ∧ walk.deepest ≤ limits.depth + 1 ∧
        (walk.skipped = true → reading.incomplete = true) ∧
        (reading.incomplete = false → ∃ contents out,
          ((∃ error, fs.metadata source.path = .error error ∧ error.notFound = true ∧
              contents = [] ∧ out = []) ∨
            FileExpands ⟨fs, source.includeBase, limits⟩ source.path contents out) ∧
          reading.revision = "sha256-" ++ sha256 contents.flatten ∧
          reading.aliases = (out.flatMap candidates).eraseDups) := by
  unfold readSource
  cases walked : walkSource fs source limits with
  | error error => exact ⟨rfl, primaryRefused walked⟩
  | ok walk =>
    obtain ⟨sound, complete⟩ := walkSource_sound walked
    refine ⟨walk.finish sha256, rfl, sound.files, sound.bytes, sound.deepest, sound.skipped, ?_⟩
    intro whole
    obtain ⟨contents, out, expands, hashed, aliases⟩ := complete whole
    refine ⟨contents, out, expands, ?_, aliases⟩
    rw [← hashed]
    rfl

def oneFile (path : Path) (bytes : Bytes) : FileSystem where
  metadata asked := if asked = path then .ok (bytes.length, false) else .error ⟨true, "not found"⟩
  read asked := if asked = path then .ok bytes else .error ⟨true, "not found"⟩
  readDir _ := .error ⟨true, "not found"⟩
  canonicalize asked := if asked = path then some path else none

/-- A primary file beyond the byte budget is refused, not reported as incomplete. -/
theorem primary_over_budget_refused :
    readSource (fun _ => "") (oneFile [0x2f, 0x63] [0x48, 0x6f]) ⟨[0x2f, 0x63], [0x2f]⟩
      { bytes := 1 } = .error (.limitExceeded .bytes 1) := by
  rfl

end Refyard.Ssh
