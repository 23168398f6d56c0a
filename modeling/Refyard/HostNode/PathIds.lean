import Refyard.Foundation.InsertionMap
import Refyard.Foundation.Machine
import Refyard.HostNode.TextCodec
import Refyard.Jobs.Identity
import Refyard.Writes.IndexKey

/-! Path identities of the TypeScript host: which bytes a path id is bound to, and in which form
Git is handed them. -/
namespace Refyard.PathIds
open TextCodec

def mintedPathId (number : Nat) : String := s!"path_{base36 number}"

structure PathBinding where
  pathId : String
  repositoryId : String
  worktreeId : String
  bytes : Bytes
  displayPath : TextCodec.DisplayPath
  representable : Bool
  executionText : Option (List Char)
  executionBytes : Option Bytes

structure PathRegistry where
  byId : InsertionMap PathBinding.pathId := .empty
  byKey : String → Option String := fun _ => none
  /-- The numbers that ids are made of are shared with worktrees and repositories. -/
  counter : Nat := 0

def keyFor (repositoryId worktreeId : String) (bytes : Bytes) : String :=
  s!"{repositoryId}\x00{worktreeId}\x00{hexText bytes}"

def PathBinding.key (binding : PathBinding) : String :=
  keyFor binding.repositoryId binding.worktreeId binding.bytes

namespace PathRegistry

def delete (registry : PathRegistry) (binding : PathBinding) : PathRegistry :=
  { registry with
    byId := registry.byId.erase binding.pathId
    byKey := Function.update registry.byKey binding.key none }

def evictIfNeeded (maxEntries : Nat) (registry : PathRegistry) : PathRegistry :=
  (registry.byId.values.take (registry.byId.values.length - maxEntries)).foldl delete registry

def mint (registry : PathRegistry) (repositoryId worktreeId : String) (bytes : Bytes) :
    PathBinding :=
  let displayPath := TextCodec.toDisplayPath bytes
  let executionBytes := TextCodec.encodeExecutionPath displayPath.text
  { pathId := mintedPathId (registry.counter + 1)
    repositoryId
    worktreeId
    bytes
    displayPath
    representable := executionBytes.isSome
    executionText := if executionBytes.isSome then some displayPath.text else none
    executionBytes }

def store (registry : PathRegistry) (binding : PathBinding) : PathRegistry where
  byId := registry.byId.set binding
  byKey := Function.update registry.byKey binding.key (some binding.pathId)
  counter := registry.counter + 1

def known (registry : PathRegistry) (key : String) : Option PathBinding :=
  (registry.byKey key).bind registry.byId.get?

def bind (maxEntries : Nat) (registry : PathRegistry) (repositoryId worktreeId : String)
    (bytes : Bytes) : PathBinding × PathRegistry :=
  match registry.known (keyFor repositoryId worktreeId bytes) with
  | some existing => (existing, registry)
  | none =>
      let binding := registry.mint repositoryId worktreeId bytes
      (binding, (registry.store binding).evictIfNeeded maxEntries)

def getForWorktree (registry : PathRegistry) (pathId repositoryId worktreeId : String) :
    Option PathBinding :=
  match registry.byId.get? pathId with
  | none => none
  | some binding =>
      if binding.repositoryId ≠ repositoryId ∨ binding.worktreeId ≠ worktreeId then none
      else some binding

def clearWorktree (registry : PathRegistry) (worktreeId : String) : PathRegistry :=
  (registry.byId.values.filter fun binding => binding.worktreeId = worktreeId).foldl delete registry

end PathRegistry

inductive PathStep where
  | bind (repositoryId worktreeId : String) (bytes : Bytes)
  | get (pathId : String)
  | getForWorktree (pathId repositoryId worktreeId : String)
  | clearWorktree (worktreeId : String)
  | drawId

def binding (maxEntries : Nat) : Machine PathRegistry PathStep (Option PathBinding) where
  step registry input :=
    match input with
    | .bind repositoryId worktreeId bytes =>
        let (bound, registry) := registry.bind maxEntries repositoryId worktreeId bytes
        (registry, some bound)
    | .get pathId => (registry, registry.byId.get? pathId)
    | .getForWorktree pathId repositoryId worktreeId =>
        (registry, registry.getForWorktree pathId repositoryId worktreeId)
    | .clearWorktree worktreeId => (registry.clearWorktree worktreeId, none)
    | .drawId => ({ registry with counter := registry.counter + 1 }, none)

theorem mintedPathId_injective {left right : Nat} (same : mintedPathId left = mintedPathId right) :
    left = right := by
  unfold mintedPathId at same
  apply base36_injective
  have chars := congrArg String.toList same
  apply String.ext
  simpa [toString] using chars

theorem nul_notMem_hexChars (bytes : Bytes) : '\x00' ∉ IndexKey.hexChars bytes := by
  have digits : ∀ digit < 16, Nat.digitChar digit ≠ '\x00' := by decide
  intro member
  obtain ⟨byte, -, digit⟩ := List.mem_flatMap.mp member
  have size := byte.toNat_lt
  simp only [List.mem_cons, List.not_mem_nil, or_false] at digit
  cases digit with
  | inl first => exact digits (byte.toNat / 16) (by omega) first.symm
  | inr second => exact digits (byte.toNat % 16) (by omega) second.symm

theorem bytes_of_keyFor {repositoryId worktreeId otherRepository otherWorktree : String}
    {bytes other : Bytes}
    (same : keyFor repositoryId worktreeId bytes = keyFor otherRepository otherWorktree other) :
    bytes = other := by
  have toList : ∀ (repository worktree : String) (bytes : Bytes),
      (keyFor repository worktree bytes).toList =
        (repository.toList ++ '\x00' :: worktree.toList) ++ '\x00' :: IndexKey.hexChars bytes := by
    intro repository worktree bytes
    rw [← IndexKey.toList_hexText]
    simp [keyFor, toString]
  have chars := congrArg String.toList same
  rw [toList, toList] at chars
  apply IndexKey.hexChars_inj
  exact (Delimited.last_inj (nul_notMem_hexChars bytes) (nul_notMem_hexChars other) chars).2

namespace PathRegistry

def Drawn (registry : PathRegistry) (pathId : String) : Prop :=
  ∃ number ≤ registry.counter, pathId = mintedPathId number

/-- Every form is made of the bytes, and a key leads to its own binding or to none. -/
structure Sound (registry : PathRegistry) : Prop where
  formed : ∀ binding ∈ registry.byId.values, binding.executionBytes = executionOf binding.bytes
  drawn : ∀ binding ∈ registry.byId.values, registry.Drawn binding.pathId
  keyed : ∀ key pathId, registry.byKey key = some pathId → registry.Drawn pathId ∧
    ∀ binding, registry.byId.get? pathId = some binding → binding.key = key

@[simp] theorem pathId_mint (registry : PathRegistry) (repositoryId worktreeId : String) (bytes : Bytes) :
    (registry.mint repositoryId worktreeId bytes).pathId = mintedPathId (registry.counter + 1) :=
  rfl

variable {registry : PathRegistry}

theorem Drawn.not_next {pathId : String} (drawn : registry.Drawn pathId) :
    mintedPathId (registry.counter + 1) ≠ pathId := by
  obtain ⟨number, atMost, rfl⟩ := drawn
  intro same
  have := mintedPathId_injective same
  omega

theorem Drawn.grow {other : PathRegistry} {pathId : String} (drawn : registry.Drawn pathId)
    (more : registry.counter ≤ other.counter) : other.Drawn pathId := by
  obtain ⟨number, atMost, same⟩ := drawn
  exact ⟨number, atMost.trans more, same⟩

theorem Sound.drawId (sound : registry.Sound) :
    Sound { registry with counter := registry.counter + 1 } where
  formed := sound.formed
  drawn binding member := (sound.drawn binding member).grow (Nat.le_succ _)
  keyed key pathId found :=
    have ⟨drawn, leads⟩ := sound.keyed key pathId found
    ⟨drawn.grow (Nat.le_succ _), leads⟩

theorem Sound.delete (sound : registry.Sound) (binding : PathBinding) :
    (registry.delete binding).Sound where
  formed other member := sound.formed other (InsertionMap.mem_values_erase.mp member).1
  drawn other member := sound.drawn other (InsertionMap.mem_values_erase.mp member).1
  keyed key pathId found := by
    unfold PathRegistry.delete at found
    dsimp only at found
    rw [Function.update_apply] at found
    split at found
    · cases found
    · obtain ⟨drawn, leads⟩ := sound.keyed key pathId found
      refine ⟨drawn, ?_⟩
      intro other held
      apply leads
      unfold PathRegistry.delete at held
      rw [InsertionMap.get?_erase] at held
      split at held
      · cases held
      · exact held

theorem Sound.store {registry : PathRegistry} (sound : registry.Sound)
    (repositoryId worktreeId : String) (bytes : Bytes) :
    (registry.store (registry.mint repositoryId worktreeId bytes)).Sound where
  formed binding member := by
    obtain rfl | ⟨earlier, -⟩ := InsertionMap.mem_values_set.mp member
    · rfl
    · exact sound.formed binding earlier
  drawn binding member := by
    obtain rfl | ⟨earlier, -⟩ := InsertionMap.mem_values_set.mp member
    · exact ⟨registry.counter + 1, le_rfl, rfl⟩
    · exact (sound.drawn binding earlier).grow (Nat.le_succ _)
  keyed key pathId found := by
    unfold PathRegistry.store at found ⊢
    dsimp only at found ⊢
    rw [Function.update_apply] at found
    split at found
    · rename_i own
      rw [← Option.some.inj found]
      refine ⟨⟨registry.counter + 1, le_rfl, rfl⟩, ?_⟩
      intro binding held
      rw [InsertionMap.get?_set, if_pos rfl] at held
      rw [own, ← Option.some.inj held]
    · obtain ⟨drawn, leads⟩ := sound.keyed key pathId found
      refine ⟨drawn.grow (Nat.le_succ _), ?_⟩
      intro binding held
      rw [InsertionMap.get?_set, pathId_mint, if_neg drawn.not_next] at held
      exact leads binding held

theorem Sound.foldl_delete (sound : registry.Sound) (bindings : List PathBinding) :
    (bindings.foldl PathRegistry.delete registry).Sound := by
  induction bindings generalizing registry with
  | nil => exact sound
  | cons binding rest ih => exact ih (sound.delete binding)

theorem Sound.bind (sound : registry.Sound) (maxEntries : Nat) (repositoryId worktreeId : String)
    (bytes : Bytes) : (registry.bind maxEntries repositoryId worktreeId bytes).2.Sound := by
  unfold PathRegistry.bind
  split
  · exact sound
  · exact (sound.store repositoryId worktreeId bytes).foldl_delete _

theorem Sound.next (sound : registry.Sound) (maxEntries : Nat) (step : PathStep) :
    ((binding maxEntries).next registry step).Sound := by
  cases step with
  | bind repositoryId worktreeId bytes => exact sound.bind maxEntries repositoryId worktreeId bytes
  | get pathId => exact sound
  | getForWorktree pathId repositoryId worktreeId => exact sound
  | clearWorktree worktreeId => exact sound.foldl_delete _
  | drawId => exact sound.drawId

theorem sound_empty : Sound {} where
  formed binding member := by cases member
  drawn binding member := by cases member
  keyed key pathId found := by cases found

theorem sound_after (maxEntries : Nat) (steps : List PathStep) :
    ((binding maxEntries).after {} steps).Sound :=
  (binding maxEntries).invariant Sound (fun _ step sound => sound.next maxEntries step) sound_empty
    steps

theorem Sound.bind_of_bytes (sound : registry.Sound) (maxEntries : Nat)
    (repositoryId worktreeId : String) (bytes : Bytes) :
    (registry.bind maxEntries repositoryId worktreeId bytes).1.bytes = bytes ∧
      (registry.bind maxEntries repositoryId worktreeId bytes).1.executionBytes =
        executionOf bytes := by
  unfold PathRegistry.bind
  split
  · rename_i existing found
    obtain ⟨pathId, keyed, held⟩ := Option.bind_eq_some_iff.mp found
    have same : existing.bytes = bytes :=
      bytes_of_keyFor ((sound.keyed _ pathId keyed).2 existing held)
    refine ⟨same, ?_⟩
    rw [← same]
    exact sound.formed existing (InsertionMap.get?_eq_some.mp held).1
  · exact ⟨rfl, rfl⟩

structure Names (registry : PathRegistry) (binding : PathBinding) : Prop where
  drawn : registry.Drawn binding.pathId
  own : ∀ other, registry.byId.get? binding.pathId = some other → other = binding

theorem Names.delete {binding : PathBinding} (names : registry.Names binding) (gone : PathBinding) :
    (registry.delete gone).Names binding where
  drawn := names.drawn
  own other held := by
    apply names.own
    unfold PathRegistry.delete at held
    rw [InsertionMap.get?_erase] at held
    split at held
    · cases held
    · exact held

theorem Names.foldl_delete {binding : PathBinding} (names : registry.Names binding)
    (bindings : List PathBinding) :
    (bindings.foldl PathRegistry.delete registry).Names binding := by
  induction bindings generalizing registry with
  | nil => exact names
  | cons gone rest ih => exact ih (names.delete gone)

theorem Names.bind {binding : PathBinding} (names : registry.Names binding) (maxEntries : Nat)
    (repositoryId worktreeId : String) (bytes : Bytes) :
    (registry.bind maxEntries repositoryId worktreeId bytes).2.Names binding := by
  unfold PathRegistry.bind
  split
  · exact names
  · apply Names.foldl_delete
    refine ⟨names.drawn.grow (Nat.le_succ _), ?_⟩
    intro other held
    unfold PathRegistry.store at held
    rw [InsertionMap.get?_set, pathId_mint, if_neg names.drawn.not_next] at held
    exact names.own other held

theorem Names.next {binding : PathBinding} (names : registry.Names binding) (maxEntries : Nat)
    (step : PathStep) : ((PathIds.binding maxEntries).next registry step).Names binding := by
  cases step with
  | bind repositoryId worktreeId bytes => exact names.bind maxEntries repositoryId worktreeId bytes
  | get pathId => exact names
  | getForWorktree pathId repositoryId worktreeId => exact names
  | clearWorktree worktreeId => exact names.foldl_delete _
  | drawId => exact ⟨names.drawn.grow (Nat.le_succ _), names.own⟩

theorem Sound.names_bind (sound : registry.Sound) (maxEntries : Nat)
    (repositoryId worktreeId : String) (bytes : Bytes) :
    (registry.bind maxEntries repositoryId worktreeId bytes).2.Names
      (registry.bind maxEntries repositoryId worktreeId bytes).1 := by
  unfold PathRegistry.bind
  split
  · rename_i existing found
    obtain ⟨pathId, keyed, held⟩ := Option.bind_eq_some_iff.mp found
    obtain ⟨member, rfl⟩ := InsertionMap.get?_eq_some.mp held
    refine ⟨sound.drawn existing member, ?_⟩
    intro other also
    exact Option.some.inj (also.symm.trans held)
  · apply Names.foldl_delete
    refine ⟨⟨registry.counter + 1, le_rfl, rfl⟩, ?_⟩
    intro other held
    unfold PathRegistry.store at held
    rw [InsertionMap.get?_set, if_pos rfl] at held
    exact (Option.some.inj held).symm

end PathRegistry

def boundIn (maxEntries : Nat) (steps : List PathStep) (repositoryId worktreeId : String)
    (bytes : Bytes) : PathBinding :=
  (((binding maxEntries).after {} steps).bind maxEntries repositoryId worktreeId bytes).1

theorem executionBytes_boundIn (maxEntries : Nat) (steps : List PathStep)
    (repositoryId worktreeId : String) (bytes : Bytes) :
    (boundIn maxEntries steps repositoryId worktreeId bytes).executionBytes = executionOf bytes :=
  ((PathRegistry.sound_after maxEntries steps).bind_of_bytes maxEntries repositoryId worktreeId
    bytes).2

theorem get?_boundIn (maxEntries : Nat) (steps later : List PathStep)
    (repositoryId worktreeId : String) (bytes : Bytes) (found : PathBinding)
    (held : ((binding maxEntries).after {}
      (steps ++ .bind repositoryId worktreeId bytes :: later)).byId.get?
        (boundIn maxEntries steps repositoryId worktreeId bytes).pathId = some found) :
    found = boundIn maxEntries steps repositoryId worktreeId bytes ∧ found.bytes = bytes := by
  have sound := PathRegistry.sound_after maxEntries steps
  have names := (binding maxEntries).invariant
    (fun registry => registry.Names (boundIn maxEntries steps repositoryId worktreeId bytes))
    (fun _ step names => names.next maxEntries step)
    (sound.names_bind maxEntries repositoryId worktreeId bytes) later
  rw [Machine.after_append, Machine.after_cons] at held
  have same := names.own found held
  rw [same]
  exact ⟨rfl, (sound.bind_of_bytes maxEntries repositoryId worktreeId bytes).1⟩

theorem executionOf_collide {first second : Bytes} (free : (0 : UInt8) ∉ first)
    (alsoFree : (0 : UInt8) ∉ second) (differ : first ≠ second) :
    (executionOf first = executionOf second ∧ executionOf first ≠ none) ↔
      Marked first ∧ first = Utf8.encode [mark] ++ second ∨
        Marked second ∧ second = Utf8.encode [mark] ++ first := by
  have unmarked : ∀ {whole rest : Bytes}, (0 : UInt8) ∉ rest → Marked whole →
      whole = Utf8.encode [mark] ++ rest → executionOf rest = some rest := by
    rintro whole rest clean ⟨text, same, single, plain⟩ behind
    have parts : Utf8.encode [mark] ++ Utf8.encode text = Utf8.encode [mark] ++ rest := by
      rw [← Utf8.encode_append, List.singleton_append, ← same, behind]
    obtain rfl := List.append_cancel_left parts
    apply (executionOf_eq_some clean).mpr
    have own : withoutMark text = text := withoutMark_eq_self.mpr single
    exact ⟨text, rfl, by rw [own], by rwa [own], by rw [own, own]⟩
  have collides : ∀ {whole rest : Bytes}, (0 : UInt8) ∉ whole → (0 : UInt8) ∉ rest →
      Marked whole → whole = Utf8.encode [mark] ++ rest →
        executionOf whole = some rest ∧ executionOf rest = some rest := by
    intro whole rest clean alsoClean marked behind
    obtain ⟨form, handed, parts⟩ := executionOf_marked clean marked
    obtain rfl := List.append_cancel_left (parts.symm.trans behind)
    exact ⟨handed, unmarked alsoClean marked behind⟩
  constructor
  · rintro ⟨same, handed⟩
    obtain ⟨form, given⟩ := Option.ne_none_iff_exists'.mp handed
    obtain ⟨own, -⟩ | ⟨marked, parts⟩ := executionOf_cases free given
    · obtain ⟨alsoOwn, -⟩ | ⟨marked, parts⟩ := executionOf_cases alsoFree (same ▸ given)
      · exact absurd (own.symm.trans alsoOwn) differ
      · exact .inr ⟨marked, own ▸ parts⟩
    · obtain ⟨alsoOwn, -⟩ | ⟨alsoMarked, alsoParts⟩ := executionOf_cases alsoFree (same ▸ given)
      · exact .inl ⟨marked, alsoOwn ▸ parts⟩
      · exact absurd (parts.trans alsoParts.symm) differ
  · rintro (⟨marked, behind⟩ | ⟨marked, behind⟩)
    · obtain ⟨whole, rest⟩ := collides free alsoFree marked behind
      rw [whole, rest]
      exact ⟨rfl, nofun⟩
    · obtain ⟨whole, rest⟩ := collides alsoFree free marked behind
      rw [whole, rest]
      exact ⟨rfl, nofun⟩

theorem own_form_iff {bytes : Bytes} (free : (0 : UInt8) ∉ bytes) :
    (executionOf bytes = none ∨ executionOf bytes = some bytes) ↔ ¬ Marked bytes := by
  constructor
  · intro own marked
    obtain ⟨form, handed, parts⟩ := executionOf_marked free marked
    rw [handed] at own
    obtain rfl : form = bytes := by simpa using own
    have short := congrArg List.length parts
    rw [List.length_append] at short
    have size : (Utf8.encode [mark]).length = 3 := by decide +kernel
    omega
  · intro unmarked
    cases handed : executionOf bytes with
    | none => exact .inl rfl
    | some form =>
      obtain ⟨rfl, -⟩ | ⟨marked, -⟩ := executionOf_cases free handed
      · exact .inr rfl
      · exact absurd marked unmarked

/-- Git is handed the bytes of a path id themselves exactly where they are no text behind a
byte order mark. The mark is lost, and the path without it is then handed over twice. -/
theorem execution_bytes (maxEntries : Nat) (steps : List PathStep) (repositoryId worktreeId : String)
    {bytes : Bytes} (free : (0 : UInt8) ∉ bytes) :
    (((boundIn maxEntries steps repositoryId worktreeId bytes).executionBytes = none ∨
        (boundIn maxEntries steps repositoryId worktreeId bytes).executionBytes = some bytes) ↔
      ¬ Marked bytes) ∧
    (∀ otherSteps otherRepository otherWorktree other, (0 : UInt8) ∉ other → bytes ≠ other →
      (((boundIn maxEntries steps repositoryId worktreeId bytes).executionBytes =
          (boundIn maxEntries otherSteps otherRepository otherWorktree other).executionBytes ∧
        (boundIn maxEntries steps repositoryId worktreeId bytes).executionBytes ≠ none) ↔
          Marked bytes ∧ bytes = Utf8.encode [mark] ++ other ∨
            Marked other ∧ other = Utf8.encode [mark] ++ bytes)) ∧
    ∀ later found, ((binding maxEntries).after {}
        (steps ++ .bind repositoryId worktreeId bytes :: later)).byId.get?
          (boundIn maxEntries steps repositoryId worktreeId bytes).pathId = some found →
      found = boundIn maxEntries steps repositoryId worktreeId bytes ∧ found.bytes = bytes := by
  refine ⟨?_, ?_, ?_⟩
  · rw [executionBytes_boundIn]
    exact own_form_iff free
  · intro otherSteps otherRepository otherWorktree other alsoFree differ
    rw [executionBytes_boundIn, executionBytes_boundIn]
    exact executionOf_collide free alsoFree differ
  · intro later found held
    exact get?_boundIn maxEntries steps later repositoryId worktreeId bytes found held

theorem execution_bytes_plain :
    (0 : UInt8) ∉ ([0x61] : Bytes) ∧ ((boundIn 8 [] "repo_1" "wt_1" [0x61]).executionBytes = none ∨
        (boundIn 8 [] "repo_1" "wt_1" [0x61]).executionBytes = some [0x61] ↔ ¬ Marked [0x61]) := by
  have free : (0 : UInt8) ∉ ([0x61] : Bytes) := by decide
  exact ⟨free, (execution_bytes 8 [] "repo_1" "wt_1" free).1⟩

/-- Two files, and Git is handed the second for both. -/
theorem marked_name_hands_over_other :
    (boundIn 8 [] "repo_1" "wt_1" [0xef, 0xbb, 0xbf, 0x61]).executionBytes = some [0x61] ∧
      (boundIn 8 [.bind "repo_1" "wt_1" [0xef, 0xbb, 0xbf, 0x61]] "repo_1" "wt_1"
        [0x61]).executionBytes = some [0x61] := by
  constructor <;> decide +kernel

end Refyard.PathIds
