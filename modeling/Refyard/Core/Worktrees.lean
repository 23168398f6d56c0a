import Refyard.Core.Plan
import Refyard.Jobs.Identity

/-! `git worktree list --porcelain -z`. Attributes end with a NUL and an empty frame ends a
worktree. -/
namespace Refyard

structure WorktreeEntry where
  path : Bytes
  locked : Bool
  lockReason : Option Bytes
  headOid : Option String
  branch : Option String
  detached : Bool
  bare : Bool
  prunable : Bool
  isPrimary : Bool
  deriving DecidableEq

def fnvStep (hash : UInt64) (byte : UInt8) : UInt64 :=
  (hash ^^^ byte.toUInt64) * 0x100000001b3

/-- Derived from the path alone, so that a read and a later write agree without a registry. -/
def worktreeIdForPath (path : Bytes) : String :=
  let digits := Nat.toDigits 16 (path.foldl fnvStep 0xcbf29ce484222325).toNat
  "wt_" ++ String.ofList (List.replicate (16 - digits.length) '0' ++ digits)

/-- The attributes read since the last worktree ended, and the worktrees before. -/
structure WorktreeScan where
  entries : List WorktreeEntry
  path : Option Bytes
  locked : Bool
  lockReason : Option Bytes
  headOid : Option String
  branch : Option String
  detached : Bool
  bare : Bool
  prunable : Bool

namespace WorktreeScan

def start : WorktreeScan where
  entries := []
  path := none
  locked := false
  lockReason := none
  headOid := none
  branch := none
  detached := false
  bare := false
  prunable := false

def entry (scan : WorktreeScan) (path : Bytes) : WorktreeEntry where
  path := path
  locked := scan.locked
  lockReason := scan.lockReason
  headOid := scan.headOid
  branch := scan.branch
  detached := scan.detached
  bare := scan.bare
  prunable := scan.prunable
  isPrimary := scan.entries.isEmpty

/-- The end of a worktree. Without a path the reason, the name and the branch stay. -/
def finish (scan : WorktreeScan) : WorktreeScan :=
  let cleared := { scan with locked := false, detached := false, bare := false, prunable := false }
  match scan.path with
  | none => cleared
  | some path =>
      { cleared with
        entries := scan.entries ++ [scan.entry path]
        path := none
        lockReason := none
        headOid := none
        branch := none }

def lossyText (bytes : Bytes) : String := String.ofList (Utf8.decode bytes)

def readAttribute (scan : WorktreeScan) (key : Bytes) (value : Option Bytes) : WorktreeScan :=
  if key = asciiBytes "worktree" then { scan with path := value }
  else if key = asciiBytes "locked" then { scan with locked := true, lockReason := value }
  else if key = asciiBytes "HEAD" then { scan with headOid := value.map lossyText }
  else if key = asciiBytes "branch" then { scan with branch := value.map lossyText }
  else if key = asciiBytes "detached" then { scan with detached := true }
  else if key = asciiBytes "bare" then { scan with bare := true }
  else if key = asciiBytes "prunable" then { scan with prunable := true }
  else scan

def step (scan : WorktreeScan) (frame : Bytes) : WorktreeScan :=
  if frame.isEmpty then scan.finish
  else
    match splitOnce 0x20 frame with
    | some (key, value) => scan.readAttribute key (some value)
    | none => scan.readAttribute frame none

end WorktreeScan

def parseWorktreeList (bytes : Bytes) : List WorktreeEntry :=
  let scan := (bytes.splitOn 0).foldl WorktreeScan.step .start
  match scan.path with
  | none => scan.entries
  | some path => scan.entries ++ [scan.entry path]

def fnv1a (path : Bytes) : UInt64 := path.foldl fnvStep 0xcbf29ce484222325

def hexValue (digits : List Char) : Nat :=
  digits.foldl (fun value digit => 16 * value + (toDigit36 digit).getD 0) 0

theorem toDigit36_digitChar : ∀ digit < 16, toDigit36 (Nat.digitChar digit) = some digit := by
  decide

theorem hexValue_concat (digits : List Char) {digit : Nat} (small : digit < 16) :
    hexValue (digits ++ [Nat.digitChar digit]) = 16 * hexValue digits + digit := by
  unfold hexValue
  rw [List.foldl_concat, toDigit36_digitChar digit small, Option.getD_some]

theorem hexValue_zeros (count : Nat) (digits : List Char) :
    hexValue (List.replicate count '0' ++ digits) = hexValue digits := by
  induction count with
  | zero => rfl
  | succ count ih => exact ih

theorem hexValue_toDigits (value : Nat) : hexValue (Nat.toDigits 16 value) = value := by
  induction value using Nat.strongRecOn with
  | ind value ih =>
    by_cases small : value < 16
    · rw [Nat.toDigits_of_lt_base small]
      exact (hexValue_concat [] small).trans (by simp [hexValue])
    · rw [Nat.toDigits_of_base_le (by decide) (by omega),
        hexValue_concat _ (Nat.mod_lt _ (by decide)), ih (value / 16) (by omega)]
      omega

variable (path bytes : Bytes)

theorem toList_worktreeIdForPath : ∃ zeros, (worktreeIdForPath path).toList =
        "wt_".toList ++ (List.replicate zeros '0' ++ Nat.toDigits 16 (fnv1a path).toNat) ∧
      16 ≤ zeros + (Nat.toDigits 16 (fnv1a path).toNat).length := by
  refine ⟨16 - (Nat.toDigits 16 (fnv1a path).toNat).length, ?_, by omega⟩
  simp only [worktreeIdForPath, fnv1a, String.toList_append, String.toList_ofList]

theorem worktreeIdForPath_inj {left right : Bytes} :
    worktreeIdForPath left = worktreeIdForPath right ↔ fnv1a left = fnv1a right := by
  constructor
  · intro same
    obtain ⟨zeros, spelled, -⟩ := toList_worktreeIdForPath left
    obtain ⟨zeros', spelled', -⟩ := toList_worktreeIdForPath right
    have digits := congrArg hexValue
      (List.append_cancel_left (spelled.symm.trans ((congrArg String.toList same).trans spelled')))
    simp only [hexValue_zeros, hexValue_toDigits] at digits
    exact UInt64.toNat_inj.mp digits
  · intro same
    unfold worktreeIdForPath
    rw [show left.foldl fnvStep 0xcbf29ce484222325 = fnv1a right from same, fnv1a]

theorem worktreeIdForPath_ne : worktreeIdForPath path ≠ "wt_1" := by
  intro same
  obtain ⟨zeros, spelled, wide⟩ := toList_worktreeIdForPath path
  have long := congrArg List.length (spelled.symm.trans (congrArg String.toList same))
  simp at long
  omega

def FirstIsPrimary : List WorktreeEntry → Prop
  | [] => True
  | first :: rest => first.isPrimary = true ∧ ∀ entry ∈ rest, entry.isPrimary = false

theorem FirstIsPrimary.concat {entries : List WorktreeEntry} (h : FirstIsPrimary entries)
    {entry : WorktreeEntry} (follows : entry.isPrimary = entries.isEmpty) :
    FirstIsPrimary (entries ++ [entry]) := by
  cases entries with
  | nil => exact ⟨follows, by simp⟩
  | cons first rest =>
    refine ⟨h.1, fun other member => ?_⟩
    rcases List.mem_append.mp member with before | last
    · exact h.2 other before
    · obtain rfl := List.mem_singleton.mp last
      exact follows

namespace WorktreeScan

theorem entries_readAttribute (scan : WorktreeScan) (key : Bytes) (value : Option Bytes) :
    (scan.readAttribute key value).entries = scan.entries := by
  unfold readAttribute
  split_ifs <;> rfl

theorem firstIsPrimary_step {scan : WorktreeScan} (h : FirstIsPrimary scan.entries)
    (frame : Bytes) : FirstIsPrimary (scan.step frame).entries := by
  unfold step
  split
  · unfold finish
    split
    · exact h
    · exact h.concat rfl
  · split
    · rw [entries_readAttribute]
      exact h
    · rw [entries_readAttribute]
      exact h

end WorktreeScan

theorem firstIsPrimary_parse : FirstIsPrimary (parseWorktreeList bytes) := by
  have scanned (frames : List Bytes) (scan : WorktreeScan) (h : FirstIsPrimary scan.entries) :
      FirstIsPrimary (frames.foldl WorktreeScan.step scan).entries := by
    induction frames generalizing scan with
    | nil => exact h
    | cons frame rest ih => exact ih _ (WorktreeScan.firstIsPrimary_step h frame)
  unfold parseWorktreeList
  dsimp only
  split
  · exact scanned _ .start trivial
  · exact (scanned _ .start trivial).concat rfl

/-! What Git writes, and that it is read back: one block for each worktree, in their order. -/

abbrev RecordBytes := {bytes : Bytes // 0 ∉ bytes}

abbrev RecordText := {text : String // '\x00' ∉ text.toList}

inductive Checkout where
  | attached (head branch : RecordText)
  | detached (head : RecordText)
  | bare

namespace Checkout

def headOid : Checkout → Option String
  | attached head _ => some head.val
  | detached head => some head.val
  | bare => none

def branch : Checkout → Option String
  | attached _ branch => some branch.val
  | detached _ => none
  | bare => none

def isDetached : Checkout → Bool
  | detached _ => true
  | _ => false

def isBare : Checkout → Bool
  | bare => true
  | _ => false

end Checkout

structure ListedWorktree where
  path : RecordBytes
  checkout : Checkout
  lock : Option (Option RecordBytes)
  prunable : Option RecordBytes

def worktreeAttribute (key : String) (value : Bytes) : Bytes := asciiBytes key ++ 0x20 :: value

namespace Checkout

def records : Checkout → List Bytes
  | attached head branch =>
      [worktreeAttribute "HEAD" (textBytes head.val),
        worktreeAttribute "branch" (textBytes branch.val)]
  | detached head => [worktreeAttribute "HEAD" (textBytes head.val), asciiBytes "detached"]
  | bare => [asciiBytes "bare"]

end Checkout

namespace ListedWorktree

variable (worktree : ListedWorktree)

def lockRecords : List Bytes :=
  match worktree.lock with
  | none => []
  | some none => [asciiBytes "locked"]
  | some (some reason) => [worktreeAttribute "locked" reason.val]

def prunableRecords : List Bytes :=
  match worktree.prunable with
  | none => []
  | some reason => [worktreeAttribute "prunable" reason.val]

def records : List Bytes :=
  worktreeAttribute "worktree" worktree.path.val ::
    (worktree.checkout.records ++ worktree.lockRecords ++ worktree.prunableRecords)

def entry (isPrimary : Bool) : WorktreeEntry where
  path := worktree.path.val
  locked := worktree.lock.isSome
  lockReason := worktree.lock.bind (Option.map Subtype.val)
  headOid := worktree.checkout.headOid
  branch := worktree.checkout.branch
  detached := worktree.checkout.isDetached
  bare := worktree.checkout.isBare
  prunable := worktree.prunable.isSome
  isPrimary := isPrimary

end ListedWorktree

def worktreeRecords (listed : List ListedWorktree) : List Bytes :=
  listed.flatMap fun worktree => worktree.records ++ [[]]

/-- `git worktree list --porcelain -z`. -/
def porcelain (records : List Bytes) : Bytes := records.flatMap fun record => record ++ [0]

def listedEntries (listed : List ListedWorktree) : List WorktreeEntry :=
  listed.mapIdx fun position worktree => worktree.entry (position == 0)

namespace WorktreeScan

variable {key : String} (worktree : ListedWorktree)

theorem step_attribute (scan : WorktreeScan) (free : 0x20 ∉ asciiBytes key) (value : Bytes) :
    scan.step (worktreeAttribute key value) = scan.readAttribute (asciiBytes key) (some value) := by
  have full : (worktreeAttribute key value).isEmpty = false := by simp [worktreeAttribute]
  unfold step
  rw [full, if_neg Bool.false_ne_true, worktreeAttribute, splitOnce_append free]

theorem step_flag (scan : WorktreeScan) (full : asciiBytes key ≠ []) (free : 0x20 ∉ asciiBytes key) :
    scan.step (asciiBytes key) = scan.readAttribute (asciiBytes key) none := by
  unfold step
  rw [List.isEmpty_eq_false_iff.mpr full, if_neg Bool.false_ne_true, splitOnce_of_notMem free]

theorem lossyText_textBytes (text : String) : lossyText (textBytes text) = text := by
  rw [lossyText, textBytes, Utf8.decode_encode, String.ofList_toList]

def between (entries : List WorktreeEntry) : WorktreeScan := { start with entries := entries }

def loaded (entries : List WorktreeEntry) (worktree : ListedWorktree) : WorktreeScan where
  entries := entries
  path := some worktree.path.val
  locked := worktree.lock.isSome
  lockReason := worktree.lock.bind (Option.map Subtype.val)
  headOid := worktree.checkout.headOid
  branch := worktree.checkout.branch
  detached := worktree.checkout.isDetached
  bare := worktree.checkout.isBare
  prunable := worktree.prunable.isSome

variable (entries : List WorktreeEntry)

theorem finish_loaded :
    (loaded entries worktree).finish = between (entries ++ [worktree.entry entries.isEmpty]) := rfl

variable (scan : WorktreeScan) (value : Option Bytes)

theorem readAttribute_worktree :
    scan.readAttribute (asciiBytes "worktree") value = { scan with path := value } := rfl

theorem readAttribute_locked : scan.readAttribute (asciiBytes "locked") value =
      { scan with locked := true, lockReason := value } := rfl

theorem readAttribute_head : scan.readAttribute (asciiBytes "HEAD") value =
      { scan with headOid := value.map lossyText } := rfl

theorem readAttribute_branch : scan.readAttribute (asciiBytes "branch") value =
      { scan with branch := value.map lossyText } := rfl

theorem readAttribute_detached :
    scan.readAttribute (asciiBytes "detached") value = { scan with detached := true } := rfl

theorem readAttribute_bare :
    scan.readAttribute (asciiBytes "bare") value = { scan with bare := true } := rfl

theorem readAttribute_prunable :
    scan.readAttribute (asciiBytes "prunable") value = { scan with prunable := true } := rfl

theorem foldl_checkout (path : Option Bytes) (checkout : Checkout) :
    checkout.records.foldl step { between entries with path := path } = { between entries with
        path := path
        headOid := checkout.headOid
        branch := checkout.branch
        detached := checkout.isDetached
        bare := checkout.isBare } := by
  cases checkout with
  | attached head branch =>
    simp only [Checkout.records, List.foldl_cons, List.foldl_nil,
      step_attribute _ (show 0x20 ∉ asciiBytes "HEAD" by decide),
      step_attribute _ (show 0x20 ∉ asciiBytes "branch" by decide), readAttribute_head,
      readAttribute_branch, Option.map_some, lossyText_textBytes]
    rfl
  | detached head =>
    simp only [Checkout.records, List.foldl_cons, List.foldl_nil,
      step_attribute _ (show 0x20 ∉ asciiBytes "HEAD" by decide),
      step_flag _ (show asciiBytes "detached" ≠ [] by decide)
        (show 0x20 ∉ asciiBytes "detached" by decide), readAttribute_head,
      readAttribute_detached, Option.map_some, lossyText_textBytes]
    rfl
  | bare =>
    simp only [Checkout.records, List.foldl_cons, List.foldl_nil,
      step_flag _ (show asciiBytes "bare" ≠ [] by decide)
        (show 0x20 ∉ asciiBytes "bare" by decide), readAttribute_bare]
    rfl

theorem foldl_lock (unlocked : scan.locked = false) (silent : scan.lockReason = none) :
    worktree.lockRecords.foldl step scan = { scan with
        locked := worktree.lock.isSome
        lockReason := worktree.lock.bind (Option.map Subtype.val) } := by
  unfold ListedWorktree.lockRecords
  cases worktree.lock with
  | none =>
    cases scan
    cases unlocked
    cases silent
    rfl
  | some reason =>
    cases reason with
    | none =>
      rw [List.foldl_cons, List.foldl_nil, step_flag _ (show asciiBytes "locked" ≠ [] by decide)
        (show 0x20 ∉ asciiBytes "locked" by decide), readAttribute_locked]
      rfl
    | some reason =>
      rw [List.foldl_cons, List.foldl_nil,
        step_attribute _ (show 0x20 ∉ asciiBytes "locked" by decide), readAttribute_locked]
      rfl

theorem foldl_prunable (kept : scan.prunable = false) : worktree.prunableRecords.foldl step scan =
      { scan with prunable := worktree.prunable.isSome } := by
  unfold ListedWorktree.prunableRecords
  cases worktree.prunable with
  | none =>
    cases scan
    cases kept
    rfl
  | some reason =>
    rw [List.foldl_cons, List.foldl_nil,
      step_attribute _ (show 0x20 ∉ asciiBytes "prunable" by decide), readAttribute_prunable]
    rfl

theorem foldl_records :
    worktree.records.foldl step (between entries) = loaded entries worktree := by
  have path : (between entries).step (worktreeAttribute "worktree" worktree.path.val) =
      { between entries with path := some worktree.path.val } := by
    rw [step_attribute _ (show 0x20 ∉ asciiBytes "worktree" by decide), readAttribute_worktree]
  rw [ListedWorktree.records, List.foldl_cons, List.foldl_append, List.foldl_append, path,
    foldl_checkout, foldl_lock _ _ rfl rfl, foldl_prunable _ _ rfl]
  rfl

theorem step_end : scan.step [] = scan.finish := rfl

end WorktreeScan

def WorktreeScan.listed (scan : WorktreeScan) : List WorktreeEntry :=
  match scan.path with
  | none => scan.entries
  | some path => scan.entries ++ [scan.entry path]

theorem parseWorktreeList_eq :
    parseWorktreeList bytes = ((bytes.splitOn 0).foldl WorktreeScan.step .start).listed := rfl

theorem nul_notMem_attribute {key : String} (clean : 0 ∉ asciiBytes key) {value : Bytes}
    (free : 0 ∉ value) : 0 ∉ worktreeAttribute key value := by
  unfold worktreeAttribute
  rw [List.mem_append, List.mem_cons, not_or, not_or]
  exact ⟨clean, by decide, free⟩

theorem nul_notMem_text (text : RecordText) : 0 ∉ textBytes text.val :=
  Utf8.charByte_notMem_encode (show '\x00'.toNat < 0x80 by decide) text.property

theorem nul_notMem_records (worktree : ListedWorktree) : ∀ record ∈ worktree.records, 0 ∉ record := by
  have checkout : ∀ record ∈ worktree.checkout.records, 0 ∉ record := by
    cases worktree.checkout with
    | attached head branch =>
      simp only [Checkout.records, List.forall_mem_cons]
      exact ⟨nul_notMem_attribute (by decide) (nul_notMem_text head),
        nul_notMem_attribute (by decide) (nul_notMem_text branch), List.forall_mem_nil _⟩
    | detached head =>
      simp only [Checkout.records, List.forall_mem_cons]
      exact ⟨nul_notMem_attribute (by decide) (nul_notMem_text head), by decide,
        List.forall_mem_nil _⟩
    | bare =>
      simp only [Checkout.records, List.forall_mem_cons]
      exact ⟨by decide, List.forall_mem_nil _⟩
  have lock : ∀ record ∈ worktree.lockRecords, 0 ∉ record := by
    unfold ListedWorktree.lockRecords
    split
    · exact List.forall_mem_nil _
    · exact List.forall_mem_singleton.mpr (by decide)
    · rename_i reason _
      exact List.forall_mem_singleton.mpr (nul_notMem_attribute (by decide) reason.property)
  have prunable : ∀ record ∈ worktree.prunableRecords, 0 ∉ record := by
    unfold ListedWorktree.prunableRecords
    split
    · exact List.forall_mem_nil _
    · rename_i reason _
      exact List.forall_mem_singleton.mpr (nul_notMem_attribute (by decide) reason.property)
  rw [ListedWorktree.records, List.forall_mem_cons, List.forall_mem_append, List.forall_mem_append]
  exact ⟨nul_notMem_attribute (by decide) worktree.path.property, ⟨checkout, lock⟩, prunable⟩

theorem nul_notMem_worktreeRecords (listed : List ListedWorktree) :
    ∀ record ∈ worktreeRecords listed, 0 ∉ record := by
  intro record member
  obtain ⟨worktree, -, inside⟩ := List.mem_flatMap.mp member
  cases List.mem_append.mp inside with
  | inl own => exact nul_notMem_records worktree record own
  | inr ends =>
    rw [List.mem_singleton.mp ends]
    exact List.not_mem_nil

theorem listedEntries_concat (listed : List ListedWorktree) (worktree : ListedWorktree) :
    listedEntries (listed ++ [worktree]) =
      listedEntries listed ++ [worktree.entry (listedEntries listed).isEmpty] := by
  have first : (listedEntries listed).isEmpty = (listed.length == 0) := by
    cases listed <;> simp [listedEntries]
  rw [first]
  simp only [listedEntries, List.mapIdx_concat]

theorem foldl_worktreeRecords (listed : List ListedWorktree) :
    (worktreeRecords listed).foldl WorktreeScan.step .start =
      WorktreeScan.between (listedEntries listed) := by
  induction listed using List.reverseRecOn with
  | nil => rfl
  | append_singleton listed worktree ih =>
    rw [worktreeRecords, List.flatMap_append, ← worktreeRecords, List.foldl_append, ih,
      List.flatMap_singleton, List.foldl_append, WorktreeScan.foldl_records, List.foldl_cons,
      List.foldl_nil, WorktreeScan.step_end, WorktreeScan.finish_loaded, listedEntries_concat]

/-- The block of the last worktree lost its end: the worktree is listed all the same, by the end
of the input or by an empty record behind the last NUL. -/
theorem listed_lastBlock (listed : List ListedWorktree) (worktree : ListedWorktree) :
    let scan := (worktreeRecords listed ++ worktree.records).foldl WorktreeScan.step .start
    scan.listed = listedEntries (listed ++ [worktree]) ∧
      (scan.step []).listed = listedEntries (listed ++ [worktree]) := by
  rw [List.foldl_append, foldl_worktreeRecords, WorktreeScan.foldl_records, listedEntries_concat]
  exact ⟨rfl, rfl⟩

/-- What Git lists is read back, whether or not the empty record at the end is there, and the NUL
before it. -/
theorem parse_porcelain (listed : List ListedWorktree) :
    parseWorktreeList (porcelain (worktreeRecords listed)) = listedEntries listed ∧
      parseWorktreeList (porcelain (worktreeRecords listed).dropLast) = listedEntries listed ∧
      parseWorktreeList (porcelain (worktreeRecords listed).dropLast).dropLast =
        listedEntries listed := by
  have terminated (records : List Bytes) (free : ∀ record ∈ records, 0 ∉ record) :
      parseWorktreeList (porcelain records) =
        ((records.foldl WorktreeScan.step .start).step []).listed := by
    rw [parseWorktreeList_eq, porcelain, Delimited.splitOn_terminated free, List.foldl_append]
    rfl
  refine ⟨?_, ?_⟩
  · rw [terminated _ (nul_notMem_worktreeRecords listed), foldl_worktreeRecords]
    rfl
  · cases listed using List.reverseRecOn with
    | nil => exact ⟨rfl, rfl⟩
    | append_singleton listed worktree =>
      have cut : (worktreeRecords (listed ++ [worktree])).dropLast =
          worktreeRecords listed ++ worktree.records := by
        rw [worktreeRecords, List.flatMap_append, List.flatMap_singleton, ← List.append_assoc,
          List.dropLast_concat, worktreeRecords]
      have free : ∀ record ∈ worktreeRecords listed ++ worktree.records, 0 ∉ record :=
        List.forall_mem_append.mpr
          ⟨nul_notMem_worktreeRecords listed, nul_notMem_records worktree⟩
      obtain ⟨ended, followed⟩ := listed_lastBlock listed worktree
      rw [cut, terminated _ free]
      refine ⟨followed, ?_⟩
      have full : worktreeRecords listed ++ worktree.records ≠ [] := by
        simp [ListedWorktree.records]
      obtain ⟨front, last, records⟩ : ∃ front last,
          worktreeRecords listed ++ worktree.records = front ++ [last] :=
        ⟨_, _, (List.dropLast_append_getLast full).symm⟩
      rw [records] at ended free ⊢
      have unended : (porcelain (front ++ [last])).dropLast =
          (front.flatMap fun record => record ++ [0]) ++ last := by
        rw [porcelain, List.flatMap_append, List.flatMap_singleton, ← List.append_assoc,
          List.dropLast_concat]
      rw [List.forall_mem_append, List.forall_mem_singleton] at free
      rw [unended, parseWorktreeList_eq, Delimited.splitOn_lines free.1 free.2, ended]

end Refyard
