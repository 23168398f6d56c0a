import Refyard.Core.StatusRoundTrip
import Refyard.Core.StatusText
import Refyard.Foundation.SortedLines
import Refyard.Writes.Facts

/-! What the index key tells apart. The key is the commit HEAD names and the sorted rows of
the entries, as one text that nothing hashes. -/
namespace Refyard

def indexKey (parsed : StatusParseResult) : String := (WriteFacts.of parsed).indexKey

/-- The staged part of an entry. The entry of a resolved path has one stage, the index. -/
structure StagedPart where
  path : Bytes
  indexStatus : String
  modeIndex : Option String
  oidIndex : Option String
  stages : List StatusUnmergedStage

def StatusRecord.stagedPart (record : StatusRecord) : StagedPart where
  path := record.path
  indexStatus := record.indexStatus
  modeIndex := record.modeIndex
  oidIndex := record.oidIndex
  stages := record.stages

def SameStaged (first second : StatusParseResult) : Prop :=
  (first.records.map StatusRecord.stagedPart).Perm (second.records.map StatusRecord.stagedPart)

/-- What a row holds of an entry: both names, the index mode or else the one in the worktree,
the object in the index, and how many stages there are. -/
@[ext] structure KeptPart where
  path : Bytes
  originalPath : Bytes
  mode : String
  oid : String
  stages : Nat

def StatusRecord.keptPart (record : StatusRecord) : KeptPart where
  path := record.path
  originalPath := record.originalPath.getD []
  mode := (record.modeIndex.or record.modeWorktree).getD "-"
  oid := record.oidIndex.getD "-"
  stages := record.stages.length

def SameKept (first second : StatusParseResult) : Prop :=
  (first.records.map StatusRecord.keptPart).Perm (second.records.map StatusRecord.keptPart)

def headText (parsed : StatusParseResult) : String := (headState parsed).oid.getD "(unborn)"

namespace IndexKey
open Delimited

def nul : Char := Char.ofNat 0

def hexChars (bytes : Bytes) : List Char :=
  bytes.flatMap fun byte => [Nat.digitChar (byte.toNat / 16), Nat.digitChar (byte.toNat % 16)]

theorem toList_hexText (bytes : Bytes) : (hexText bytes).toList = hexChars bytes := by
  unfold hexText hexChars
  induction bytes with
  | nil => rfl
  | cons byte rest ih =>
    simp only [List.map_cons, String.join_cons, String.toList_append, ih, List.flatMap_cons]
    simp [hexByte]

theorem digitChar_inj : ∀ first < 16, ∀ second < 16,
    Nat.digitChar first = Nat.digitChar second → first = second := by
  decide

theorem hexChars_inj {first second : Bytes} (same : hexChars first = hexChars second) :
    first = second := by
  induction first generalizing second with
  | nil =>
    cases second with
    | nil => rfl
    | cons byte rest => cases same
  | cons byte rest ih =>
    cases second with
    | nil => cases same
    | cons other others =>
      simp only [hexChars, List.flatMap_cons, List.cons_append, List.nil_append,
        List.cons.injEq] at same
      obtain ⟨high, low, behind⟩ := same
      have below := byte.toNat_lt
      have alsoBelow := other.toNat_lt
      have highs := digitChar_inj _ (by omega) _ (by omega) high
      have lows := digitChar_inj _ (by omega) _ (by omega) low
      have bytes : byte = other := UInt8.toNat_inj.mp (by omega)
      rw [bytes, ih behind]

theorem hexText_inj {first second : Bytes} : hexText first = hexText second ↔ first = second := by
  constructor
  · intro same
    apply hexChars_inj
    rw [← toList_hexText, ← toList_hexText, same]
  · exact congrArg hexText

theorem notMem_hexChars {char : Char} (other : ∀ digit < 16, Nat.digitChar digit ≠ char)
    (bytes : Bytes) : char ∉ hexChars bytes := by
  intro member
  obtain ⟨byte, -, inside⟩ := List.mem_flatMap.mp member
  have below := byte.toNat_lt
  simp only [List.mem_cons, List.not_mem_nil, or_false] at inside
  cases inside with
  | inl high => exact other _ (by omega) high.symm
  | inr low => exact other _ (by omega) low.symm

def names (part : KeptPart) : List Char :=
  hexChars part.path ++ ':' :: hexChars part.originalPath

def values (part : KeptPart) (rest : List Char) : List Char :=
  part.mode.toList ++ nul :: (part.oid.toList ++ nul :: rest)

def countChars (part : KeptPart) : List Char := (decimalText part.stages).toList

def rowChars (part : KeptPart) : List Char :=
  names part ++ nul :: values part (countChars part)

theorem toList_fingerprintRow (record : StatusRecord) :
    (fingerprintRow (fingerprintEntry record)).toList = rowChars record.keptPart := by
  have original : (record.originalPath.map hexText).getD "" =
      hexText (record.originalPath.getD []) := by
    cases record.originalPath <;> rfl
  simp [fingerprintRow, fingerprintEntry, rowChars, names, values, countChars, original,
    toList_hexText, StatusRecord.keptPart, decimalText, nul]

structure Clean (part : KeptPart) : Prop where
  mode : nul ∉ part.mode.toList
  oid : nul ∉ part.oid.toList

theorem clean_keptPart {record : StatusRecord} (free : record.TextFree) :
    Clean record.keptPart := by
  have dash : nul ∉ "-".toList := by decide
  constructor
  · unfold StatusRecord.keptPart
    cases index : record.modeIndex with
    | some mode => exact free.modeIndex mode index
    | none =>
      cases worktree : record.modeWorktree with
      | some mode => exact free.modeWorktree mode worktree
      | none => exact dash
  · unfold StatusRecord.keptPart
    cases index : record.oidIndex with
    | some oid => exact free.oidIndex oid index
    | none => exact dash

variable (part : KeptPart) {first second : KeptPart}

theorem nul_notMem_names : nul ∉ names part := by
  have hex : ∀ bytes, nul ∉ hexChars bytes := notMem_hexChars (by decide)
  simp only [names, List.mem_append, List.mem_cons, not_or]
  exact ⟨hex _, by decide, hex _⟩

theorem newline_notMem_names : '\n' ∉ names part := by
  have hex : ∀ bytes, '\n' ∉ hexChars bytes := notMem_hexChars (by decide)
  simp only [names, List.mem_append, List.mem_cons, not_or]
  exact ⟨hex _, by decide, hex _⟩

theorem names_inj (same : names first = names second) :
    first.path = second.path ∧ first.originalPath = second.originalPath := by
  have hex : ∀ bytes, ':' ∉ hexChars bytes := notMem_hexChars (by decide)
  obtain ⟨paths, originals⟩ := first_inj (hex _) (hex _) same
  exact ⟨hexChars_inj paths, hexChars_inj originals⟩

theorem values_inj (clean : Clean first) (alsoClean : Clean second) {rest behind : List Char}
    (same : values first rest = values second behind) :
    first.mode = second.mode ∧ first.oid = second.oid ∧ rest = behind := by
  obtain ⟨modes, later⟩ := first_inj clean.mode alsoClean.mode same
  obtain ⟨oids, rests⟩ := first_inj clean.oid alsoClean.oid later
  exact ⟨String.toList_inj.mp modes, String.toList_inj.mp oids, rests⟩

theorem newline_notMem_countChars : '\n' ∉ countChars part :=
  not_mem_decimalText (by decide) part.stages

theorem stages_inj (same : countChars first = countChars second) :
    first.stages = second.stages := by
  have values := congrArg decimalValue same
  simpa [countChars] using values

def rows (parts : List KeptPart) : List (List Char) := parts.map rowChars

theorem marked_cons (rest : List KeptPart) : marked '\n' (rows (part :: rest)) =
      '\n' :: (names part ++ nul :: values part (countChars part ++ marked '\n' (rows rest))) := by
  simp [marked, rows, rowChars, values]

theorem marked_inj {front other : List Char} {first second : List KeptPart}
    (clean : ∀ part ∈ first, Clean part) (alsoClean : ∀ part ∈ second, Clean part)
    (free : '\n' ∉ front) (alsoFree : '\n' ∉ other)
    (same : front ++ marked '\n' (rows first) = other ++ marked '\n' (rows second)) :
    front = other ∧ first = second := by
  induction first generalizing front other second with
  | nil =>
    obtain ⟨fronts, rests⟩ := ends_inj free alsoFree (ends_marked _ _) (ends_marked _ _) same
    refine ⟨fronts, ?_⟩
    cases second with
    | nil => rfl
    | cons part rest =>
      rw [marked_cons] at rests
      cases rests
  | cons part rest ih =>
    obtain ⟨fronts, rests⟩ := ends_inj free alsoFree (ends_marked _ _) (ends_marked _ _) same
    refine ⟨fronts, ?_⟩
    cases second with
    | nil =>
      rw [marked_cons] at rests
      cases rests
    | cons otherPart others =>
      rw [marked_cons, marked_cons] at rests
      have row := (List.cons.inj rests).2
      obtain ⟨name, behind⟩ := first_inj (nul_notMem_names _) (nul_notMem_names _) row
      obtain ⟨paths, originals⟩ := names_inj name
      obtain ⟨modes, oids, later⟩ := values_inj (clean part List.mem_cons_self)
        (alsoClean otherPart List.mem_cons_self) behind
      obtain ⟨counts, tails⟩ := ih
        (fun part member => clean part (List.mem_cons_of_mem _ member))
        (fun part member => alsoClean part (List.mem_cons_of_mem _ member))
        (newline_notMem_countChars _) (newline_notMem_countChars _) later
      rw [KeptPart.ext paths originals modes oids (stages_inj counts), tails]

def rowText (part : KeptPart) : String := String.ofList (rowChars part)

def rowLe (first second : KeptPart) : Bool := decide (rowText first ≤ rowText second)

def sorted (parsed : StatusParseResult) : List KeptPart :=
  (parsed.records.map StatusRecord.keptPart).mergeSort rowLe

theorem sorted_perm (parsed : StatusParseResult) :
    (sorted parsed).Perm (parsed.records.map StatusRecord.keptPart) :=
  List.mergeSort_perm _ _

theorem indexKey_eq (parsed : StatusParseResult) :
    indexKey parsed = headText parsed ++ "\n" ++ "\n".intercalate ((sorted parsed).map rowText) := by
  have row (record : StatusRecord) : fingerprintRow (fingerprintEntry record) =
      rowText record.keptPart := by
    rw [rowText, ← toList_fingerprintRow, String.ofList_toList]
  have texts : (parsed.records.map fingerprintEntry).map fingerprintRow =
      (parsed.records.map StatusRecord.keptPart).map rowText := by
    rw [List.map_map, List.map_map]
    exact List.map_congr_left fun record _ => row record
  have sorts : (sorted parsed).map rowText =
      ((parsed.records.map StatusRecord.keptPart).map rowText).mergeSort
        fun first second => decide (first ≤ second) :=
    List.map_mergeSort fun _ _ _ _ => rfl
  unfold indexKey WriteFacts.of indexFingerprint
  rw [texts, ← sorts]
  rfl

theorem toList_intercalate (rest : List KeptPart) :
    '\n' :: ("\n".intercalate ((part :: rest).map rowText)).toList =
      marked '\n' (rows (part :: rest)) := by
  induction rest generalizing part with
  | nil => simp [marked, rows, rowText]
  | cons next rest ih =>
    rw [List.map_cons, List.map_cons, String.intercalate_cons_cons]
    have later := ih next
    rw [List.map_cons] at later
    simp only [String.toList_append, List.append_assoc, List.singleton_append,
      show "\n".toList = ['\n'] from rfl, later]
    simp [marked, rows, rowText]

theorem clean_sorted {parsed : StatusParseResult} (free : parsed.TextFree) :
    ∀ part ∈ sorted parsed, Clean part := by
  intro part member
  rw [(sorted_perm parsed).mem_iff, List.mem_map] at member
  obtain ⟨record, listed, rfl⟩ := member
  exact clean_keptPart (free.records record listed)

theorem nul_notMem_headText {parsed : StatusParseResult} (free : parsed.TextFree) :
    nul ∉ (headText parsed).toList := by
  have unborn : nul ∉ "(unborn)".toList := by decide
  unfold headText headState
  split
  · exact unborn
  · cases named : parsed.branch.oid with
    | none => split <;> exact unborn
    | some oid => split <;> exact free.oid oid named

theorem regroup (front names behind : List Char) :
    front ++ '\n' :: (names ++ nul :: behind) = (front ++ '\n' :: names) ++ nul :: behind := by
  simp

theorem rowless {head front behind : List Char} (free : nul ∉ head)
    (same : head ++ ['\n'] = front ++ nul :: behind) : False := by
  have member : nul ∈ head ++ ['\n'] := by
    rw [same]
    simp
  rw [List.mem_append, List.mem_singleton] at member
  exact free (member.resolve_right (by decide))

theorem indexKey_inj {first second : StatusParseResult} (free : first.TextFree)
    (alsoFree : second.TextFree) (same : indexKey first = indexKey second) :
    headText first = headText second ∧ sorted first = sorted second := by
  have clean := clean_sorted free
  have alsoClean := clean_sorted alsoFree
  have head := nul_notMem_headText free
  have alsoHead := nul_notMem_headText alsoFree
  have chars := congrArg String.toList same
  rw [indexKey_eq, indexKey_eq] at chars
  simp only [String.toList_append, List.append_assoc, List.singleton_append,
    show "\n".toList = ['\n'] from rfl] at chars
  have texts {parts : List KeptPart} (part : KeptPart) (rest : List KeptPart)
      (parted : parts = part :: rest) :
      '\n' :: ("\n".intercalate (parts.map rowText)).toList =
        '\n' :: (names part ++ nul :: values part (countChars part ++ marked '\n' (rows rest))) := by
    rw [parted, toList_intercalate, marked_cons]
  cases parts : sorted first with
  | nil =>
    cases others : sorted second with
    | nil =>
      rw [parts, others] at chars
      exact ⟨String.toList_inj.mp (List.append_cancel_right chars), rfl⟩
    | cons part rest =>
      rw [texts part rest others, parts] at chars
      exact (rowless head (chars.trans (regroup _ _ _))).elim
  | cons part rest =>
    cases others : sorted second with
    | nil =>
      rw [texts part rest parts, others] at chars
      exact (rowless alsoHead (chars.symm.trans (regroup _ _ _))).elim
    | cons otherPart otherRest =>
      rw [texts part rest parts, texts otherPart otherRest others] at chars
      have fronts : ∀ text : String, ∀ part : KeptPart, nul ∉ text.toList →
          nul ∉ text.toList ++ '\n' :: names part := by
        intro text part free
        simp only [List.mem_append, List.mem_cons, not_or]
        exact ⟨free, by decide, nul_notMem_names part⟩
      rw [regroup, regroup] at chars
      obtain ⟨starts, behind⟩ := first_inj (fronts _ _ head) (fronts _ _ alsoHead) chars
      obtain ⟨heads, named⟩ := last_inj (newline_notMem_names _) (newline_notMem_names _) starts
      refine ⟨String.toList_inj.mp heads, ?_⟩
      have all : [] ++ marked '\n' (rows (part :: rest)) =
          [] ++ marked '\n' (rows (otherPart :: otherRest)) := by
        rw [marked_cons, marked_cons, named, behind]
      exact (marked_inj (parts ▸ clean) (others ▸ alsoClean) (by simp) (by simp) all).2

theorem indexKey_of_sameKept {first second : StatusParseResult}
    (head : headText first = headText second) (kept : SameKept first second) :
    indexKey first = indexKey second := by
  have texts : (sorted first).map rowText = (sorted second).map rowText := by
    have sorts (parsed : StatusParseResult) : (sorted parsed).map rowText =
        ((parsed.records.map StatusRecord.keptPart).map rowText).mergeSort
          fun left right => decide (left ≤ right) :=
      List.map_mergeSort fun _ _ _ _ => rfl
    rw [sorts, sorts]
    exact SortedLines.sorted_eq_iff.mpr (kept.map rowText)
  rw [indexKey_eq, indexKey_eq, head, texts]

theorem indexKey_eq_iff {first second : StatusParseResult} (free : first.TextFree)
    (alsoFree : second.TextFree) : indexKey first = indexKey second ↔
      headText first = headText second ∧ SameKept first second := by
  constructor
  · intro same
    obtain ⟨head, parts⟩ := indexKey_inj free alsoFree same
    exact ⟨head, (sorted_perm first).symm.trans (parts ▸ sorted_perm second)⟩
  · rintro ⟨head, kept⟩
    exact indexKey_of_sameKept head kept

end IndexKey

open IndexKey

/-- The order in which Git lists the entries never counts. Two statuses that differ in a
staged part have different keys if and only if they differ in HEAD's commit too, or in what
the rows keep of the entries. -/
theorem indexKey_distinguishes_iff {bytes others : Bytes} {maxEntries otherMax : Nat}
    {first second : StatusParseResult} (read : parseStatus bytes maxEntries = .ok first)
    (alsoRead : parseStatus others otherMax = .ok second) :
    (∀ records, records.Perm first.records → indexKey { first with records } = indexKey first) ∧
      ((¬SameStaged first second → indexKey first ≠ indexKey second) ↔
        SameStaged first second ∨ headText first ≠ headText second ∨ ¬SameKept first second) := by
  have keys := indexKey_eq_iff (textFree_parseStatus read) (textFree_parseStatus alsoRead)
  constructor
  · intro records perm
    exact indexKey_of_sameKept rfl (perm.map StatusRecord.keptPart)
  · rw [ne_eq, keys, not_and_or, ← ne_eq]
    exact ⟨fun differs => or_iff_not_imp_left.mpr differs, fun condition => condition.resolve_left⟩

def repeatedName (digit : UInt8) (hex : isObjectName (List.replicate 40 digit) = true) :
    ObjectName :=
  ⟨List.replicate 40 digit, hex⟩

def regularMode : FileMode :=
  ⟨asciiBytes "100644", by decide, List.forall_iff_forall_mem.mp (by decide)⟩

def conflictStatus (theirs : ObjectName) : GitStatus where
  oid := some (repeatedName 0x31 (by decide))
  head := none
  upstream := none
  aheadBehind := none
  stash := none
  entries := [.unmerged
    { index := ⟨0x55, by decide⟩, worktree := ⟨0x55, by decide⟩, sub := .file
      modeBase := regularMode, modeOurs := regularMode, modeTheirs := regularMode
      modeWorktree := regularMode, base := repeatedName 0x61 (by decide)
      ours := repeatedName 0x62 (by decide), theirs } ⟨[0x66], by decide⟩]

theorem parseStatus_conflict (theirs : ObjectName) :
    parseStatus (conflictStatus theirs).render statusMaxEntries =
      .ok (Status.found (conflictStatus theirs)) :=
  Status.parseStatus_found (by simp [conflictStatus]) (by simp [conflictStatus])
    (by simp [conflictStatus, statusMaxEntries])

theorem indexKey_distinguishes_iff_conflict :
    let first := Status.found (conflictStatus (repeatedName 0x63 (by decide)))
    let second := Status.found (conflictStatus (repeatedName 0x64 (by decide)))
    (∀ records, records.Perm first.records → indexKey { first with records } = indexKey first) ∧
      ((¬SameStaged first second → indexKey first ≠ indexKey second) ↔
        SameStaged first second ∨ headText first ≠ headText second ∨ ¬SameKept first second) :=
  indexKey_distinguishes_iff (parseStatus_conflict _) (parseStatus_conflict _)

/-- The other side's version of a path in conflict changes in the index, and the key does
not. -/
theorem indexKey_of_other_conflict :
    ∃ bytes others first second, parseStatus bytes statusMaxEntries = .ok first ∧
      parseStatus others statusMaxEntries = .ok second ∧ ¬SameStaged first second ∧
      indexKey first = indexKey second := by
  refine ⟨_, _, _, _, parseStatus_conflict (repeatedName 0x63 (by decide)),
    parseStatus_conflict (repeatedName 0x64 (by decide)), ?_, ?_⟩
  · intro same
    have part := List.perm_singleton.mp same
    have stages := congrArg StagedPart.stages (List.cons.inj part).1
    revert stages
    decide
  · exact indexKey_of_sameKept rfl (List.Perm.refl _)

end Refyard
