import Refyard.Foundation.SortedLines
import Refyard.Reads.History
import Refyard.SnapshotExpiry

/-! Following the cursors of a history page to the end, while the refs move and other reads
use the same store. -/
namespace Refyard
open Snapshots Interaction

structure RefState where
  refs : List GitRef
  branch : Option RefBytes
  head : Option ObjectName

def GitRef.tip (ref : GitRef) : RefBytes × ObjectName × Option ObjectName :=
  (ref.name, ref.oid, ref.peeled)

namespace RefState

def records (state : RefState) : List RefRecord := state.refs.map GitRef.record

def headState (state : RefState) : HeadState where
  kind := if state.head.isNone then .unborn else .born
  branchName := state.branch.map fun name => branchNameOf (RefBytes.text name)
  oid := state.head.map ObjectName.text
  detached := state.branch.isNone

def tips (state : RefState) : List String := collectTips state.headState state.records

def SameTips (first second : RefState) : Prop :=
  first.head = second.head ∧ (first.refs.map GitRef.tip).Perm (second.refs.map GitRef.tip)

end RefState

/-- A repository whose objects do not change: the commits that a walk of fixed tips lists,
in its order and each once. -/
structure WalkedRepository where
  walk : List ObjectName → Bool → List GitRow
  fromNowhere : ∀ firstParentOnly, walk [] firstParentOnly = []
  once : ∀ tips firstParentOnly, ((walk tips firstParentOnly).map GitRow.oid).Nodup

/-- What Git may answer while the refs are so. Any command may fail; one that succeeds says
where the refs are, and `--skip` and `--max-count` select from the walk. -/
structure Possible (repository : WalkedRepository) (state : RefState) (command : GitCommand)
    (answer : GitAnswer) : Prop where
  refs : command.plan = planForEachRef → ∀ bytes,
    requiredAnswer answer forEachRef = .ok bytes → bytes = GitRef.render state.refs
  branch : command.plan = planHeadRef → ∀ printed,
    meaningfulAnswer answer "symbolic-ref HEAD" [1] = .ok printed →
      printed = state.branch.map fun name => name.1 ++ [0x0a]
  head : command.plan = planHeadOid → ∀ printed,
    meaningfulAnswer answer "rev-parse HEAD" [1] = .ok printed →
      printed = state.head.map fun oid => oid.1 ++ [0x0a]
  walk : ∀ (tips : List ObjectName) (maxCount skip : Nat) (firstParentOnly : Bool),
    planRevList { tips := tips.map ObjectName.text, maxCount, skip, firstParentOnly } =
      .ok command.plan → ∀ bytes, requiredAnswer answer revListCommand = .ok bytes →
        bytes = GitRow.render (((repository.walk tips firstParentOnly).drop skip).take maxCount)

/-- One request for a page: what other reads asked of the store since the page before, where
the refs are by now, and the query. -/
structure PageRequest where
  calls : List (Nat × SnapshotCall)
  state : RefState
  query : HistoryQuery
  moment : ReadMoment

def SnapshotStore.behind (store : SnapshotStore) (calls : List (Nat × SnapshotCall)) :
    SnapshotStore :=
  { store with
    state := ((SnapshotRun.answering store.ttlMs store.maxEntries).after
      { store := store.state } calls).store }

section
variable (repository : WalkedRepository) (target : ReadTarget)

def Answered (store : SnapshotStore) (request : PageRequest) (page : HistoryPage)
    (after : SnapshotStore) : Prop :=
  (readHistory target (store.behind request.calls) request.query request.moment).Yields
    (Possible repository request.state) (page, after)

/-- Each page was asked for with the cursor of the one before, and the last has none. -/
def Followed : SnapshotStore → Option String → List (PageRequest × HistoryPage) → Prop
  | _, none, [] => True
  | store, some cursor, (request, page) :: rest =>
      request.query.cursor = some cursor ∧ ∃ after,
        Answered repository target store request page after ∧ Followed after page.nextCursor rest
  | _, _, _ => False

/-- A paging from its first page to its last, behind any calls on a store of any bounds. -/
def Paged (ttlMs maxEntries : Nat) : List (PageRequest × HistoryPage) → Prop
  | [] => False
  | (request, page) :: rest =>
      request.query.cursor = none ∧ ∃ after,
        Answered repository target { ttlMs, maxEntries } request page after ∧
          Followed repository target after page.nextCursor rest

end

/-! What the reads of a page find. -/

section
variable {repository : WalkedRepository} {state : RefState} {target : ReadTarget}
variable {plan : GitPlan} {head : HeadState} {decoration : String → List String}
variable {possible : GitCommand → GitAnswer → Prop} {command : String} {ε α : Type}
  {firstParentOnly : Bool} {rows : PageRows}

theorem yields_runRequired {bytes : Bytes} :
    (runRequired target plan command).Yields possible bytes ↔
      ∃ answer, possible (target.command plan) answer ∧ requiredAnswer answer command = .ok bytes := by
  simp [runRequired, yields_bind, yields_askFor]

theorem yields_runMeaningfulExit {codes : List Int} {printed : Option Bytes} :
    (runMeaningfulExit target plan command codes).Yields possible printed ↔
      ∃ answer, possible (target.command plan) answer ∧
        meaningfulAnswer answer command codes = .ok printed := by
  simp [runMeaningfulExit, yields_bind, yields_askFor]

theorem mapError_eq_ok {φ : Type} {value : Except ε α} {reading : ε → φ} {result : α} :
    value.mapError reading = .ok result ↔ value = .ok result := by
  cases value with
  | error error => exact iff_of_false (fun h => by cases h) (fun h => by cases h)
  | ok found => exact Iff.rfl.trans (by constructor <;> (intro h; cases h; rfl))

theorem refs_of_yields {facts : RefFacts}
    (read : (readRefFacts target).Yields (Possible repository state) facts) :
    facts.refs = state.records ∧ ∀ ref ∈ state.refs, GitRef.Ascii ref.name := by
  unfold readRefFacts at read
  simp only [yields_bind, yields_runRequired, yields_orLeave, mapError_eq_ok] at read
  obtain ⟨bytes, ⟨answer, possible, printed⟩, refs, parsed, -, -, remotes, -, found⟩ := read
  obtain rfl := possible.refs rfl bytes printed
  obtain ⟨ascii, -, rfl⟩ := GitRef.parseForEachRef_render.mp parsed
  exact ⟨(congrArg RefFacts.refs found).symm,
    fun ref member => ascii ref member ref.name List.mem_cons_self⟩

theorem oid_of_headOn {branchRef : Option Bytes} {oid : Option String}
    (found : headOn branchRef oid = .ok head) : head.oid = oid := by
  cases branchRef with
  | none => exact (congrArg HeadState.oid (Except.ok.inj found)).symm
  | some bytes =>
    obtain ⟨name, -, rfl⟩ := map_eq_ok.mp found
    rfl

theorem head_of_yields (read : (readHeadState target).Yields (Possible repository state) head) :
    head.oid = state.head.map ObjectName.text := by
  unfold readHeadState at read
  simp only [yields_bind, yields_runMeaningfulExit, yields_orLeave] at read
  obtain ⟨branchRef, -, headOid, ⟨answer, possible, printed⟩, found⟩ := read
  obtain rfl := possible.head rfl headOid printed
  obtain ⟨oid, line, on⟩ := bind_eq_ok.mp found
  rw [oid_of_headOn on]
  cases given : state.head with
  | none =>
    rw [given] at line
    exact (Except.ok.inj line).symm
  | some name =>
    rw [given] at line
    obtain ⟨text, shown, rfl⟩ := map_eq_ok.mp line
    rw [asciiLine_objectName] at shown
    exact congrArg some (Except.ok.inj shown).symm

/-! The fingerprint tells the tips, and nothing else. -/

def tipText (tip : RefBytes × ObjectName × Option ObjectName) : String :=
  asciiText tip.1.1 ++ " " ++ tip.2.1.text ++ " " ++ (tip.2.2.map ObjectName.text).getD ""

theorem fingerprint_tipText {ref : GitRef} (ascii : GitRef.Ascii ref.name) :
    fingerprintOfRef ref.record = tipText ref.tip := by
  unfold fingerprintOfRef tipText GitRef.record GitRef.tip
  rw [GitRef.text_name ascii]

theorem asciiText_injective {first second : Bytes} (same : asciiText first = asciiText second) :
    first = second := by
  rw [← asciiBytes_asciiText first, same, asciiBytes_asciiText]

theorem text_injective {first second : ObjectName} (same : first.text = second.text) :
    first = second :=
  Subtype.ext (asciiText_injective same)

theorem peeledText_injective {first second : Option ObjectName}
    (same : (first.map ObjectName.text).getD "" = (second.map ObjectName.text).getD "") :
    first = second := by
  have nonempty (oid : ObjectName) : oid.text ≠ "" := fun empty =>
    GitRow.text_ne oid (String.toList_eq_nil_iff.mpr empty)
  cases first with
  | none =>
    cases second with
    | none => rfl
    | some oid => exact absurd same.symm (nonempty oid)
  | some oid =>
    cases second with
    | none => exact absurd same (nonempty oid)
    | some other => exact congrArg some (text_injective same)

theorem notMem_peeledText {char : Char} {peeled : Option ObjectName}
    (other : ((0x30 ≤ charByte char && charByte char ≤ 0x39) ||
      (0x61 ≤ charByte char && charByte char ≤ 0x66)) = false) :
    char ∉ ((peeled.map ObjectName.text).getD "").toList := by
  cases peeled with
  | none => exact List.not_mem_nil
  | some oid => exact GitRow.notMem_text oid other

theorem toList_tipText (tip : RefBytes × ObjectName × Option ObjectName) :
    (tipText tip).toList = (((asciiText tip.1.1).toList ++ ' ' :: tip.2.1.text.toList) ++
      ' ' :: ((tip.2.2.map ObjectName.text).getD "").toList) := by
  simp [tipText]

theorem tipText_injective : Function.Injective tipText := by
  rintro ⟨name, oid, peeled⟩ ⟨otherName, otherOid, otherPeeled⟩ same
  have chars := congrArg String.toList same
  rw [toList_tipText, toList_tipText] at chars
  obtain ⟨front, behind⟩ := Delimited.last_inj (notMem_peeledText (by decide))
    (notMem_peeledText (by decide)) chars
  obtain ⟨names, oids⟩ := Delimited.last_inj (GitRow.notMem_text oid (by decide))
    (GitRow.notMem_text otherOid (by decide)) front
  obtain rfl : name = otherName :=
    Subtype.ext (asciiText_injective (String.toList_inj.mp names))
  obtain rfl := text_injective (String.toList_inj.mp oids)
  obtain rfl := peeledText_injective (String.toList_inj.mp behind)
  rfl

theorem lines_tipText (tips : List (RefBytes × ObjectName × Option ObjectName)) :
    SortedLines.Lines (tips.map tipText) := by
  intro line member
  obtain ⟨tip, -, rfl⟩ := List.mem_map.mp member
  constructor
  · intro empty
    have chars := congrArg String.toList empty
    rw [toList_tipText] at chars
    simp at chars
  · rw [toList_tipText, List.mem_append, List.mem_append, List.mem_cons, List.mem_cons]
    simp only [not_or]
    refine ⟨⟨?_, by decide, GitRow.notMem_text _ (by decide)⟩, by decide,
      notMem_peeledText (by decide)⟩
    rw [toList_asciiText]
    intro inside
    obtain ⟨byte, given, shown⟩ := List.mem_map.mp inside
    have same : byte = 0x0a := by
      rw [← charByte_byteChar byte, shown]
      rfl
    exact tip.1.2.2.2 (same ▸ given)

theorem fingerprint_eq_iff {first second : RefState} {other : HeadState}
    (ascii : ∀ ref ∈ first.refs, GitRef.Ascii ref.name)
    (alsoAscii : ∀ ref ∈ second.refs, GitRef.Ascii ref.name)
    (here : head.oid = first.head.map ObjectName.text)
    (there : other.oid = second.head.map ObjectName.text) :
    observedRefsFingerprint head first.records = observedRefsFingerprint other second.records ↔
      first.SameTips second := by
  have rows {state : RefState} (ascii : ∀ ref ∈ state.refs, GitRef.Ascii ref.name) :
      state.records.map fingerprintOfRef = (state.refs.map GitRef.tip).map tipText := by
    rw [RefState.records, List.map_map, List.map_map]
    exact List.map_congr_left fun ref member => fingerprint_tipText (ascii ref member)
  have fingerprint (head : HeadState) (state : RefState)
      (ascii : ∀ ref ∈ state.refs, GitRef.Ascii ref.name) :
      observedRefsFingerprint head state.records = head.oid.getD "" ++ "\n" ++
        SortedLines.joined ((state.refs.map GitRef.tip).map tipText) := by
    rw [← rows ascii]
    rfl
  rw [fingerprint head first ascii, fingerprint other second alsoAscii, here, there]
  unfold RefState.SameTips
  rw [← List.map_perm_map_iff tipText_injective,
    ← SortedLines.joined_eq_iff (lines_tipText _) (lines_tipText _)]
  constructor
  · intro same
    have chars := congrArg String.toList same
    simp only [String.toList_append, List.append_assoc, List.singleton_append,
      show "\n".toList = ['\n'] from rfl] at chars
    obtain ⟨heads, joins⟩ := Delimited.first_inj (notMem_peeledText (by decide))
      (notMem_peeledText (by decide)) chars
    exact ⟨peeledText_injective (String.toList_inj.mp heads), String.toList_inj.mp joins⟩
  · rintro ⟨heads, joins⟩
    rw [heads, joins]

/-! The rows of a page are rows of the walk. -/

theorem forall₂_of_mapM {β : Type} {read : α → Except ε β} {values : List α} {results : List β}
    (all : values.mapM read = .ok results) :
    List.Forall₂ (fun value result => read value = .ok result) values results := by
  induction values generalizing results with
  | nil =>
    obtain rfl := Except.ok.inj all
    exact .nil
  | cons value rest ih =>
    rw [List.mapM_cons] at all
    obtain ⟨result, first, all⟩ := bind_eq_ok.mp all
    obtain ⟨others, later, same⟩ := bind_eq_ok.mp all
    obtain rfl := Except.ok.inj same
    exact .cons first (ih later)

theorem oids_of_mapM {bodies : String → Option CommitObject} {absent : List String}
    {rows : List TopologyEntry} {commits : List CommitSummary}
    (summed : rows.mapM (summaryOf bodies absent decoration) = .ok commits) :
    commits.map CommitSummary.oid = rows.map TopologyEntry.oid := by
  have each := forall₂_of_mapM summed
  clear summed
  induction each with
  | nil => rfl
  | cons first later ih =>
    unfold summaryOf at first
    split at first
    · cases first
    · obtain rfl := Except.ok.inj first
      rw [List.map_cons, List.map_cons, ih]

theorem revList_of_planned {tips : List String} {maxCount skip : Int}
    (planned : planRevList { tips, maxCount, skip, firstParentOnly } = .ok plan) :
    plan.argv.head? = some "rev-list" := by
  rw [(planRevList_eq_ok planned).2]
  rfl

/-- The part of the walk that a page was served from, with the row behind it. -/
def WalkedRepository.part (repository : WalkedRepository) (tips : List ObjectName)
    (firstParentOnly : Bool) (skip count : Nat) : List GitRow :=
  ((repository.walk tips firstParentOnly).drop skip).take count

theorem rows_of_yields {tips : List ObjectName} {maxCount skip : Nat}
    (read : (readPage target (tips.map ObjectName.text) maxCount skip firstParentOnly
      decoration).Yields (Possible repository state) rows) : rows.commits.map CommitSummary.oid =
        (repository.part tips firstParentOnly skip maxCount).map (ObjectName.text ∘ GitRow.oid) ∧
      rows.rowCount = (repository.part tips firstParentOnly skip maxCount).length := by
  unfold readPage at read
  simp only [yields_bind, yields_runRequired, yields_orLeave, mapError_eq_ok] at read
  obtain ⟨plan, planned, bytes, ⟨answer, possible, printed⟩, entries, parsed, read⟩ := read
  obtain rfl := possible.walk tips maxCount skip firstParentOnly planned bytes printed
  rw [GitRow.parseRevListTopology_render, Except.ok.injEq] at parsed
  subst parsed
  unfold WalkedRepository.part
  cases listed : ((repository.walk tips firstParentOnly).drop skip).take maxCount with
  | nil =>
    rw [listed] at read
    obtain rfl := read
    exact ⟨rfl, rfl⟩
  | cons row rest =>
    rw [listed, List.map_cons, List.isEmpty_cons, if_neg Bool.false_ne_true] at read
    simp only [yields_bind, yields_orLeave] at read
    obtain ⟨entries, -, found, -, absent, -, commits, summed, same⟩ := read
    obtain rfl := same
    rw [← List.map_cons] at summed ⊢
    refine ⟨?_, List.length_map _⟩
    rw [oids_of_mapM summed, List.map_map]
    rfl

theorem readRows_of_yields {start : PageStart} {intent : HistoryIntent} {tips : List ObjectName}
    (pinned : start.snapshot.tips = tips.map ObjectName.text)
    (read : (readRows target start intent decoration).Yields (Possible repository state) rows) :
    rows.commits.map CommitSummary.oid =
        (repository.part tips intent.firstParentOnly start.skip (start.limit + 1)).map
          (ObjectName.text ∘ GitRow.oid) ∧ rows.rowCount =
        (repository.part tips intent.firstParentOnly start.skip (start.limit + 1)).length := by
  unfold readRows at read
  cases tips with
  | nil =>
    rw [pinned, List.map_nil, List.isEmpty_nil, if_pos rfl] at read
    obtain rfl := read
    unfold WalkedRepository.part
    rw [repository.fromNowhere, List.drop_nil, List.take_nil]
    exact ⟨rfl, rfl⟩
  | cons tip rest =>
    rw [pinned, if_neg (by simp)] at read
    exact rows_of_yields read

end

end Refyard
