import Refyard.GitCore.Status
import Refyard.Writes.IndexKey

/-! Which paths may be restored: one table, keyed by the path of every record and by the origin of
every rename, is asked for each path that is selected. -/
namespace Refyard.GitCore

inductive DiscardRefusalReason where
  | untracked | ignored | unmerged | submodule | specialType | unchanged
  deriving DecidableEq

structure DiscardRefusal where
  pathKey : String
  reason : DiscardRefusalReason
  detail : String
  deriving DecidableEq

inductive DiscardSelection where
  | ok
  | refused (refusal : DiscardRefusal)
  deriving DecidableEq

def pathKey (bytes : Bytes) : String := hexText bytes

/-- A `Map`: the entry that was set last is found first. -/
abbrev RecordMap := List (String × StatusRecord)

def RecordMap.set (map : RecordMap) (key : String) (record : StatusRecord) : RecordMap :=
  (key, record) :: map

def RecordMap.get (map : RecordMap) (key : String) : Option StatusRecord :=
  (map.find? fun entry => entry.1 = key).map Prod.snd

def addRecord (map : RecordMap) (record : StatusRecord) : RecordMap :=
  let map := map.set (pathKey record.path) record
  match record.originalPath with
  | none => map
  | some originalPath => map.set (pathKey originalPath) record

def byKey (records : List StatusRecord) : RecordMap := records.foldl addRecord []

def refusalOf (map : RecordMap) (bytes : Bytes) : Option DiscardRefusal :=
  let key := pathKey bytes
  match map.get key with
  | none =>
      some ⟨key, .unchanged, "the path is not reported as changed, so there is nothing to discard"⟩
  | some record =>
      if record.kind = .untracked then
        some ⟨key, .untracked, "untracked files are never discarded or cleaned by this service"⟩
      else if record.kind = .ignored then
        some ⟨key, .ignored, "ignored files are never removed by this service"⟩
      else if record.kind = .unmerged then
        some ⟨key, .unmerged,
          "a path with unresolved merge stages cannot be restored from the index"⟩
      else if record.submoduleCommitChanged || record.submoduleModified ||
          record.submoduleUntracked then
        some ⟨key, .submodule, "submodule working trees are not discarded from the parent"⟩
      else if record.modeWorktree = some "120000" then
        some ⟨key, .specialType,
          "the worktree entry is a symbolic link; restoring through it could write outside the worktree"⟩
      else if record.modeWorktree = some "160000" then
        some ⟨key, .specialType, "the worktree entry is a submodule gitlink"⟩
      else none

def selectDiscardablePaths (records : List StatusRecord) (selected : List Bytes) :
    DiscardSelection :=
  match selected.findSome? (refusalOf (byKey records)) with
  | none => .ok
  | some refusal => .refused refusal

/-! Which record is asked, and what it is asked. -/

def Names (record : StatusRecord) (path : Bytes) : Prop :=
  record.path = path ∨ record.originalPath = some path

instance (record : StatusRecord) (path : Bytes) : Decidable (Names record path) :=
  inferInstanceAs (Decidable (_ ∨ _))

/-- The last record that names the path, as its own or as the one it was renamed or copied
from. -/
def speaker (records : List StatusRecord) (path : Bytes) : Option StatusRecord :=
  records.reverse.find? fun record => Names record path

structure Passes (record : StatusRecord) : Prop where
  kind : record.kind ≠ .untracked ∧ record.kind ≠ .ignored ∧ record.kind ≠ .unmerged
  flags : (record.submoduleCommitChanged || record.submoduleModified ||
    record.submoduleUntracked) = false
  mode : record.modeWorktree ≠ some "120000" ∧ record.modeWorktree ≠ some "160000"

theorem pathKey_inj {first second : Bytes} : pathKey first = pathKey second ↔ first = second := by
  constructor
  · intro same
    have chars := congrArg String.toList same
    rw [pathKey, pathKey, IndexKey.toList_hexText, IndexKey.toList_hexText] at chars
    exact IndexKey.hexChars_inj chars
  · exact congrArg pathKey

theorem get_set (map : RecordMap) (key other : String) (record : StatusRecord) :
    (map.set key record).get other = if key = other then some record else map.get other := by
  unfold RecordMap.set RecordMap.get
  rw [List.find?_cons]
  by_cases same : key = other <;> simp [same]

theorem get_addRecord (map : RecordMap) (record : StatusRecord) (path : Bytes) :
    (addRecord map record).get (pathKey path) =
      if Names record path then some record else map.get (pathKey path) := by
  cases origin : record.originalPath with
  | none =>
    have names : Names record path ↔ record.path = path := by simp [Names, origin]
    simp only [addRecord, origin, names, get_set, pathKey_inj]
  | some originalPath =>
    have names : Names record path ↔ record.path = path ∨ originalPath = path := by
      simp [Names, origin]
    simp only [addRecord, origin, names, get_set, pathKey_inj]
    by_cases own : record.path = path <;> by_cases other : originalPath = path <;>
      simp [own, other]

variable (records : List StatusRecord)

theorem get_byKey (path : Bytes) : (byKey records).get (pathKey path) = speaker records path := by
  induction records using List.reverseRecOn with
  | nil => rfl
  | append_singleton records record ih =>
    unfold byKey at ih ⊢
    rw [List.foldl_concat, get_addRecord, ih, speaker, speaker, List.reverse_concat,
      List.find?_cons]
    by_cases names : Names record path <;> simp [names]

theorem refusalOf_eq_none (path : Bytes) : refusalOf (byKey records) path = none ↔
      ∃ record, speaker records path = some record ∧ Passes record := by
  unfold refusalOf
  dsimp only
  rw [get_byKey]
  cases speaker records path with
  | none => simp
  | some record =>
    simp only [refuse_eq_none]
    constructor
    · rintro ⟨untracked, ignored, unmerged, submodule, link, gitlink, -⟩
      exact ⟨record, rfl, ⟨untracked, ignored, unmerged⟩, Bool.eq_false_iff.mpr submodule, link,
        gitlink⟩
    · rintro ⟨other, speaks, ⟨untracked, ignored, unmerged⟩, submodule, link, gitlink⟩
      obtain rfl := Option.some.inj speaks
      exact ⟨untracked, ignored, unmerged, Bool.eq_false_iff.mp submodule, link, gitlink, trivial⟩

theorem selectDiscardablePaths_eq_ok (selected : List Bytes) :
    selectDiscardablePaths records selected = .ok ↔
      ∀ path ∈ selected, ∃ record, speaker records path = some record ∧ Passes record := by
  unfold selectDiscardablePaths
  constructor
  · intro ok
    split at ok
    · rename_i none
      intro path member
      exact (refusalOf_eq_none records path).mp (List.findSome?_eq_none_iff.mp none path member)
    · cases ok
  · intro passed
    rw [List.findSome?_eq_none_iff.mpr fun path member =>
      (refusalOf_eq_none records path).mpr (passed path member)]

/-! What may be discarded. -/

def IsSubmodule (record : StatusRecord) : Prop :=
  record.submoduleField.toList.head? = some 'S' ∨ record.modeWorktree = some "160000"

/-- The record of a path that may be restored: tracked, changed in the working tree, merged,
and neither a submodule nor a symbolic link. -/
structure Discardable (record : StatusRecord) : Prop where
  tracked : record.kind ≠ .untracked ∧ record.kind ≠ .ignored
  changed : record.worktreeStatus ≠ "."
  merged : record.kind ≠ .unmerged
  notSubmodule : ¬ IsSubmodule record
  notLink : record.modeWorktree ≠ some "120000"

def MayDiscard (records : List StatusRecord) (path : Bytes) : Prop :=
  ∃ record ∈ records, record.path = path ∧ Discardable record

/-- What is selected is discardable, and otherwise the whole batch is refused. -/
def SelectsSafely (records : List StatusRecord) (selected : List Bytes) : Prop :=
  (selectDiscardablePaths records selected = .ok → ∀ path ∈ selected, MayDiscard records path) ∧
    ((∃ path ∈ selected, ¬ MayDiscard records path) →
      ∃ refusal, selectDiscardablePaths records selected = .refused refusal)

def MustStay (record : StatusRecord) : Prop :=
  record.kind = .untracked ∨ record.kind = .ignored ∨ record.kind = .unmerged ∨
    record.worktreeStatus = "." ∨ record.submoduleField.toList.head? = some 'S' ∨
    record.modeWorktree = some "160000" ∨ record.modeWorktree = some "120000"

/-- The path has no record of its own, or only such as must stay, and the last record that names
it passes the checks: it is the one it was renamed or copied to, or one without a change in the
working tree, or one of a submodule that was replaced. -/
structure Misjudged (records : List StatusRecord) (path : Bytes) : Prop where
  passes : ∃ record, speaker records path = some record ∧ Passes record
  stays : ∀ record ∈ records, record.path = path → MustStay record

theorem mustStay_iff (record : StatusRecord) : MustStay record ↔ ¬ Discardable record := by
  constructor
  · rintro (untracked | ignored | unmerged | unchanged | submodule | gitlink | link) discardable
    · exact discardable.tracked.1 untracked
    · exact discardable.tracked.2 ignored
    · exact discardable.merged unmerged
    · exact discardable.changed unchanged
    · exact discardable.notSubmodule (.inl submodule)
    · exact discardable.notSubmodule (.inr gitlink)
    · exact discardable.notLink link
  · intro kept
    by_contra free
    unfold MustStay at free
    push Not at free
    obtain ⟨untracked, ignored, unmerged, changed, notSub, notGitlink, notLink⟩ := free
    exact kept ⟨⟨untracked, ignored⟩, changed, unmerged,
      fun sub => sub.elim notSub notGitlink, notLink⟩

theorem not_mayDiscard_iff (path : Bytes) :
    ¬ MayDiscard records path ↔ ∀ record ∈ records, record.path = path → MustStay record := by
  unfold MayDiscard
  push Not
  exact forall₂_congr fun record _ => imp_congr_right fun _ => (mustStay_iff record).symm

theorem refused_of_ne_ok {selection : DiscardSelection} (refused : selection ≠ .ok) :
    ∃ refusal, selection = .refused refusal := by
  cases selection with
  | ok => exact absurd rfl refused
  | refused refusal => exact ⟨refusal, rfl⟩

/-- The selection is safe when a path of it is refused for the record that speaks for it, or none
is misjudged. -/
theorem selectsSafely_iff (records : List StatusRecord) (selected : List Bytes) :
    SelectsSafely records selected ↔
      (∃ path ∈ selected, ∀ record, speaker records path = some record → ¬ Passes record) ∨
        ∀ path ∈ selected, ¬ Misjudged records path := by
  constructor
  · rintro ⟨onlyDiscardable, -⟩
    by_cases ok : selectDiscardablePaths records selected = .ok
    · refine .inr fun path member misjudged => ?_
      exact (not_mayDiscard_iff records path).mpr misjudged.stays (onlyDiscardable ok path member)
    · rw [selectDiscardablePaths_eq_ok] at ok
      push Not at ok
      exact .inl ok
  · intro condition
    have safe (ok : selectDiscardablePaths records selected = .ok) :
        ∀ path ∈ selected, MayDiscard records path := by
      have passes := (selectDiscardablePaths_eq_ok records selected).mp ok
      intro path member
      cases condition with
      | inl refused =>
        obtain ⟨other, inside, fails⟩ := refused
        obtain ⟨record, speaks, passed⟩ := passes other inside
        exact absurd passed (fails record speaks)
      | inr judged =>
        by_contra stays
        exact judged path member
          ⟨passes path member, (not_mayDiscard_iff records path).mp stays⟩
    refine ⟨safe, ?_⟩
    rintro ⟨path, member, stays⟩
    exact refused_of_ne_ok fun ok => stays (safe ok path member)

def stagedRecord : StatusRecord where
  kind := .ordinary
  indexStatus := "M"
  worktreeStatus := "."
  submoduleField := "N..."
  modeHead := some "100644"
  modeIndex := some "100644"
  modeWorktree := some "100644"
  oidHead := some "1111111111111111111111111111111111111111"
  oidIndex := some "2222222222222222222222222222222222222222"
  path := asciiBytes "a.txt"
  originalPath := none
  score := none
  stages := []
  submoduleCommitChanged := false
  submoduleModified := false
  submoduleUntracked := false

theorem staged_path_selected : ¬ SelectsSafely [stagedRecord] [asciiBytes "a.txt"] := by
  intro safe
  have ok : selectDiscardablePaths [stagedRecord] [asciiBytes "a.txt"] = .ok := by decide
  obtain ⟨record, member, -, discardable⟩ := safe.1 ok _ List.mem_cons_self
  rw [List.mem_singleton] at member
  subst member
  exact discardable.changed rfl

end Refyard.GitCore
