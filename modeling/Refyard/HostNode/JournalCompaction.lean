import Refyard.Foundation.Machine
import Refyard.HostNode.JournalFile

/-! One journal store on which appends and compactions run at the same time. Each call is
divided where it waits for the file system, and the steps of all calls come in any order. -/
namespace Refyard.HostNode

structure PendingAppend where
  entry : JournalEntry
  line : List Char
  serialized : serialize entry = some line

/-- A compaction has decided what to keep, has stored it under the temporary name, or has given
it the journal's name. -/
inductive CompactionStage where
  | planned
  | stored
  | renamed
  deriving DecidableEq

structure PendingCompaction where
  plan : CompactionPlan
  stage : CompactionStage
  /-- The append that found the journal over budget and waits. -/
  caller : Option PendingAppend

structure JournalCalls where
  file : Bytes
  temporary : Option Bytes
  store : JournalStore
  /-- Appends whose compaction has answered with what it dropped. -/
  judging : List (PendingAppend × Nat) := []
  writing : List PendingAppend := []
  /-- Appends whose line is in the file, in the order in which the lines were written. -/
  landed : List PendingAppend := []
  compactions : List PendingCompaction := []
  /-- The records whose append has resolved, which is no part of the program. What a compaction
  decides to drop does not count any more. -/
  acknowledged : List JournalEntry

inductive CallStep where
  | append (entry : JournalEntry) (nowMs : Int)
  | compact (nowMs : Int)
  | judge (place : Nat)
  | write (place : Nat)
  | record (place : Nat)
  | storeTemporary (place : Nat)
  | rename (place : Nat)
  | finish (place : Nat)

namespace JournalCalls

def opened (rows : List Row) (temporary : Option Bytes) : JournalCalls where
  file := fileBytes rows
  temporary
  store := { entries := .ofList (rows.map Row.entry), bytes := (fileBytes rows).length }
  acknowledged := rows.map Row.entry

def mayForget (calls : JournalCalls) (nowMs : Int) (policy : RetentionPolicy)
    (operationId : String) : Bool :=
  (lastOf JournalEntry.operationId calls.acknowledged operationId).any fun entry =>
    mayPruneRecord entry nowMs policy

def beginCompaction (policy : RetentionPolicy) (calls : JournalCalls) (nowMs : Int)
    (caller : Option PendingAppend) : JournalCalls :=
  match planCompaction calls.store.entries nowMs policy with
  | none => calls
  | some plan =>
      if plan.dropped = 0 then
        { calls with judging := calls.judging ++ caller.toList.map fun pending => (pending, 0) }
      else
        { calls with
          compactions := calls.compactions ++ [{ plan, stage := .planned, caller }]
          acknowledged := calls.acknowledged.filter fun entry =>
            !calls.mayForget nowMs policy entry.operationId }

def overBudget (policy : RetentionPolicy) (calls : JournalCalls) (line : List Char) : Bool :=
  calls.store.bytes + byteLength line > policy.maxBytes

def append (policy : RetentionPolicy) (calls : JournalCalls) (entry : JournalEntry) (nowMs : Int) :
    JournalCalls :=
  match serialized : serialize entry with
  | none => calls
  | some line =>
      if calls.overBudget policy line then
        calls.beginCompaction policy nowMs (some ⟨entry, line, serialized⟩)
      else { calls with writing := calls.writing ++ [⟨entry, line, serialized⟩] }

def judge (policy : RetentionPolicy) (calls : JournalCalls) (place : Nat) : JournalCalls :=
  match calls.judging[place]? with
  | none => calls
  | some (pending, pruned) =>
      let judged := { calls with judging := calls.judging.eraseIdx place }
      if pruned = 0 ∨ calls.overBudget policy pending.line = true then judged
      else { judged with writing := calls.writing ++ [pending] }

def write (calls : JournalCalls) (place : Nat) : JournalCalls :=
  match calls.writing[place]? with
  | none => calls
  | some pending =>
      { calls with
        file := calls.file ++ Utf8.encode pending.line
        writing := calls.writing.eraseIdx place
        landed := calls.landed ++ [pending] }

def record (calls : JournalCalls) (place : Nat) : JournalCalls :=
  match calls.landed[place]? with
  | none => calls
  | some pending =>
      { calls with
        store :=
          { entries := calls.store.entries.set pending.entry
            bytes := calls.store.bytes + byteLength pending.line }
        landed := calls.landed.eraseIdx place
        acknowledged := calls.acknowledged ++ [pending.entry] }

def storeTemporary (calls : JournalCalls) (place : Nat) : JournalCalls :=
  match calls.compactions[place]? with
  | none => calls
  | some compaction =>
      if compaction.stage = .planned then
        { calls with
          temporary := some compaction.plan.content
          compactions := calls.compactions.set place { compaction with stage := .stored } }
      else calls

/-- Without the temporary file, which another compaction may have renamed, the call rejects,
and with it the append that waits for it. -/
def rename (calls : JournalCalls) (place : Nat) : JournalCalls :=
  match calls.compactions[place]? with
  | none => calls
  | some compaction =>
      if compaction.stage = .stored then
        match calls.temporary with
        | none => { calls with compactions := calls.compactions.eraseIdx place }
        | some content =>
            { calls with
              file := content
              temporary := none
              compactions := calls.compactions.set place { compaction with stage := .renamed } }
      else calls

def finish (calls : JournalCalls) (place : Nat) : JournalCalls :=
  match calls.compactions[place]? with
  | none => calls
  | some compaction =>
      if compaction.stage = .renamed then
        { calls with
          store := compaction.plan.store
          compactions := calls.compactions.eraseIdx place
          judging := calls.judging ++
            compaction.caller.toList.map fun pending => (pending, compaction.plan.dropped) }
      else calls

def step (policy : RetentionPolicy) (calls : JournalCalls) : CallStep → JournalCalls
  | .append entry nowMs => calls.append policy entry nowMs
  | .compact nowMs => calls.beginCompaction policy nowMs none
  | .judge place => calls.judge policy place
  | .write place => calls.write place
  | .record place => calls.record place
  | .storeTemporary place => calls.storeTemporary place
  | .rename place => calls.rename place
  | .finish place => calls.finish place

def machine (policy : RetentionPolicy) : Machine JournalCalls CallStep Unit where
  step calls input := (step policy calls input, ())

/-- The last acknowledged record of each operation is in memory, and loading the file yields
it, or one that an append under way has put behind it. -/
def KeepsAcknowledged (filePath : String) (calls : JournalCalls) : Prop :=
  ∀ operationId entry, lastOf JournalEntry.operationId calls.acknowledged operationId = some entry →
      calls.store.entries.get? operationId = some entry ∧
        ∃ loaded found, load filePath {} (some calls.file) = .ok loaded ∧
          loaded.entries.get? operationId = some found ∧
          (found = entry ∨ ∃ pending ∈ calls.landed, pending.entry = found)

/-- A compaction that drops something finds every line in the file recorded in memory. -/
def SnapshotsWhole (policy : RetentionPolicy) (calls : JournalCalls) (nowMs : Int) : Prop :=
  calls.landed = [] ∨
    ∀ entry ∈ calls.store.entries.values, mayPruneRecord entry nowMs policy = false

/-- No line is written before a compaction under way has renamed its file, none is recorded
before it has replaced the records in memory, and those of one operation are recorded in
the order in which they were written. -/
def KeepsApart (policy : RetentionPolicy) (calls : JournalCalls) : CallStep → Prop
  | .append entry nowMs =>
      ∀ line ∈ serialize entry, calls.overBudget policy line = true →
        calls.SnapshotsWhole policy nowMs
  | .compact nowMs => calls.SnapshotsWhole policy nowMs
  | .write _ => ∀ compaction ∈ calls.compactions, compaction.stage = .renamed
  | .record place =>
      calls.compactions = [] ∧
        ∀ pending ∈ calls.landed[place]?, ∀ earlier ∈ calls.landed.take place,
          earlier.entry.operationId ≠ pending.entry.operationId
  | _ => True

instance (policy : RetentionPolicy) (calls : JournalCalls) (nowMs : Int) :
    Decidable (calls.SnapshotsWhole policy nowMs) := by
  unfold SnapshotsWhole
  infer_instance

instance (policy : RetentionPolicy) (calls : JournalCalls) (input : CallStep) :
    Decidable (calls.KeepsApart policy input) := by
  unfold KeepsApart
  split <;> infer_instance

/-- Content that holds the last acknowledged record of each operation as its last. -/
def Holds (acknowledged : List JournalEntry) (content : Bytes) : Prop :=
  ∃ rows : List Row, content = fileBytes rows ∧
    Covers JournalEntry.operationId acknowledged (rows.map Row.entry)

structure Sound (calls : JournalCalls) : Prop where
  memory : ∀ operationId entry,
    lastOf JournalEntry.operationId calls.acknowledged operationId = some entry →
      calls.store.entries.get? operationId = some entry
  file : Holds (calls.acknowledged ++ calls.landed.map PendingAppend.entry) calls.file
  plans : ∀ compaction ∈ calls.compactions, Holds calls.acknowledged compaction.plan.content
  kept : ∀ compaction ∈ calls.compactions,
    Covers JournalEntry.operationId calls.acknowledged compaction.plan.kept
  temporary : ∀ compaction ∈ calls.compactions, compaction.stage = .stored →
    ∀ content ∈ calls.temporary, Holds calls.acknowledged content
  still : ∀ compaction ∈ calls.compactions, compaction.stage ≠ .renamed → calls.landed = []

variable {policy : RetentionPolicy} {calls : JournalCalls}

theorem Holds.mono {acknowledged fewer : List JournalEntry} {content : Bytes}
    (holds : Holds acknowledged content)
    (covers : Covers JournalEntry.operationId fewer acknowledged) : Holds fewer content := by
  obtain ⟨rows, same, last⟩ := holds
  exact ⟨rows, same, covers.trans last⟩

theorem sound_opened (rows : List Row) (temporary : Option Bytes) : (opened rows temporary).Sound where
  memory := fun operationId entry found => (InsertionMap.get?_ofList _ _).trans found
  file := by
    refine ⟨rows, rfl, ?_⟩
    unfold opened
    rw [List.map_nil, List.append_nil]
    exact Covers.refl _
  plans := by simp [opened]
  kept := by simp [opened]
  temporary := by simp [opened]
  still := by simp [opened]

variable {nowMs : Int}

theorem snapshot_of_plan {plan : CompactionPlan}
    (planned : planCompaction calls.store.entries nowMs policy = some plan)
    (drops : plan.dropped ≠ 0) (whole : calls.SnapshotsWhole policy nowMs) : calls.landed = [] := by
  rcases whole with empty | unexpired
  · exact empty
  · unfold planCompaction at planned
    obtain ⟨_, -, planned⟩ := Option.bind_eq_some_iff.mp planned
    obtain ⟨lines, -, planned⟩ := Option.bind_eq_some_iff.mp planned
    cases planned
    refine absurd ?_ drops
    rw [List.countP_eq_zero]
    intro entry member
    rw [unexpired entry member]
    decide

theorem Sound.covers_kept (sound : calls.Sound) {nowMs : Int} : Covers JournalEntry.operationId
      (calls.acknowledged.filter fun entry => !calls.mayForget nowMs policy entry.operationId)
      (keptEntries calls.store.entries nowMs policy) := by
  intro operationId entry found
  rw [lastOf_filter calls.acknowledged fun operationId => !calls.mayForget nowMs policy operationId]
    at found
  split at found
  · rename_i remembered
    unfold mayForget at remembered
    rw [found, Option.any_some] at remembered
    rw [lastOf_keptEntries, sound.memory operationId entry found, Option.filter_some, if_pos remembered]
  · cases found

theorem Sound.beginCompaction (sound : calls.Sound) (caller : Option PendingAppend)
    (whole : calls.SnapshotsWhole policy nowMs) :
    (calls.beginCompaction policy nowMs caller).Sound := by
  unfold JournalCalls.beginCompaction
  split
  · exact sound
  · rename_i plan planned
    split
    · exact { sound with }
    · rename_i drops
      have none_landed := snapshot_of_plan planned drops whole
      have fewer : Covers JournalEntry.operationId (calls.acknowledged.filter fun entry =>
          !calls.mayForget nowMs policy entry.operationId) calls.acknowledged :=
        covers_filter calls.acknowledged fun operationId => !calls.mayForget nowMs policy operationId
      obtain ⟨rows, kept, same, content⟩ := rows_of_plan planned
      have stays := @Sound.covers_kept policy calls sound nowMs
      rw [← same] at stays
      refine ⟨?_, ?_, ?_, ?_, ?_, ?_⟩
      · intro operationId entry found
        exact sound.memory operationId entry (fewer operationId entry found)
      · have file := sound.file
        rw [none_landed, List.map_nil, List.append_nil] at file
        rw [none_landed, List.map_nil, List.append_nil]
        exact file.mono fewer
      · intro compaction member
        rw [List.mem_append, List.mem_singleton] at member
        rcases member with earlier | rfl
        · exact (sound.plans compaction earlier).mono fewer
        · exact ⟨rows, content, kept ▸ stays⟩
      · intro compaction member
        rw [List.mem_append, List.mem_singleton] at member
        rcases member with earlier | rfl
        · exact fewer.trans (sound.kept compaction earlier)
        · exact stays
      · intro compaction member stored held inside
        rw [List.mem_append, List.mem_singleton] at member
        rcases member with earlier | rfl
        · exact (sound.temporary compaction earlier stored held inside).mono fewer
        · cases stored
      · exact fun _ _ _ => none_landed

theorem Sound.append (sound : calls.Sound) {entry : JournalEntry}
    (apart : calls.KeepsApart policy (.append entry nowMs)) :
    (calls.append policy entry nowMs).Sound := by
  unfold JournalCalls.append
  split
  · exact sound
  · rename_i line serialized
    split
    · rename_i exceeds
      exact sound.beginCompaction _ (apart line serialized exceeds)
    · exact { sound with }

theorem Sound.judge (sound : calls.Sound) (place : Nat) : (calls.judge policy place).Sound := by
  unfold JournalCalls.judge
  split
  · exact sound
  · dsimp only
    split <;> exact { sound with }

theorem Sound.write (sound : calls.Sound) {place : Nat}
    (apart : ∀ compaction ∈ calls.compactions, compaction.stage = .renamed) :
    (calls.write place).Sound := by
  unfold JournalCalls.write
  split
  · exact sound
  · rename_i pending waits
    obtain ⟨row, same, line⟩ := row_of_serialize pending.serialized
    obtain ⟨rows, file, covers⟩ := sound.file
    refine ⟨sound.memory, ⟨rows ++ [row], ?_, ?_⟩, sound.plans, sound.kept, ?_, ?_⟩
    · rw [file, fileBytes_append, ← line]
      simp [fileBytes, fileText]
    · rw [List.map_append, List.map_append, List.map_singleton, List.map_singleton, same,
        ← List.append_assoc]
      exact covers.concat pending.entry
    · intro compaction member stored
      rw [apart compaction member] at stored
      cases stored
    · intro compaction member busy
      exact absurd (apart compaction member) busy

theorem Sound.record (sound : calls.Sound) {place : Nat}
    (apart : calls.KeepsApart policy (.record place)) : (calls.record place).Sound := by
  unfold JournalCalls.record
  split
  · exact sound
  · rename_i pending waits
    obtain ⟨none_running, order⟩ := apart
    refine ⟨?_, ?_, by simp [none_running], by simp [none_running], by simp [none_running],
      by simp [none_running]⟩
    · intro operationId entry found
      rw [lastOf_concat] at found
      rw [InsertionMap.get?_set]
      split
      · rename_i here
        rwa [if_pos here] at found
      · rename_i elsewhere
        rw [if_neg elsewhere] at found
        exact sound.memory operationId entry found
    · obtain ⟨rows, file, covers⟩ := sound.file
      obtain ⟨within, here⟩ := List.getElem?_eq_some_iff.mp waits
      have parts : calls.landed = calls.landed.take place ++ pending :: calls.landed.drop (place + 1) := by
        rw [← here, ← List.drop_eq_getElem_cons within, List.take_append_drop]
      have others : ∀ other ∈ (calls.landed.take place).map PendingAppend.entry,
          other.operationId ≠ pending.entry.operationId := by
        intro other member
        obtain ⟨earlier, inside, rfl⟩ := List.mem_map.mp member
        exact order pending waits earlier inside
      refine ⟨rows, file, ?_⟩
      intro operationId entry found
      apply covers operationId entry
      rw [parts, List.map_append, List.map_cons, ← lastOf_move others]
      rw [List.eraseIdx_eq_take_drop_succ, List.map_append, List.append_assoc,
        List.singleton_append] at found
      exact found

theorem Sound.erase (sound : calls.Sound) (place : Nat) :
    Sound { calls with compactions := calls.compactions.eraseIdx place } := by
  have fewer : ∀ {other}, other ∈ calls.compactions.eraseIdx place → other ∈ calls.compactions :=
    List.mem_of_mem_eraseIdx
  exact ⟨sound.memory, sound.file, fun other member => sound.plans other (fewer member),
    fun other member => sound.kept other (fewer member),
    fun other member => sound.temporary other (fewer member),
    fun other member => sound.still other (fewer member)⟩

theorem Sound.storeTemporary (sound : calls.Sound) (place : Nat) :
    (calls.storeTemporary place).Sound := by
  unfold JournalCalls.storeTemporary
  split
  · exact sound
  · rename_i compaction found
    have running := List.mem_of_getElem? found
    split
    · rename_i planned
      refine ⟨sound.memory, sound.file, ?_, ?_, ?_, ?_⟩
      · intro other member
        rcases List.mem_or_eq_of_mem_set member with earlier | rfl
        · exact sound.plans other earlier
        · exact sound.plans compaction running
      · intro other member
        rcases List.mem_or_eq_of_mem_set member with earlier | rfl
        · exact sound.kept other earlier
        · exact sound.kept compaction running
      · intro other member stored content inside
        cases inside
        exact sound.plans compaction running
      · intro other member busy
        exact sound.still compaction running (by rw [planned]; decide)
    · exact sound

theorem Sound.rename (sound : calls.Sound) (place : Nat) : (calls.rename place).Sound := by
  unfold JournalCalls.rename
  split
  · exact sound
  · rename_i compaction found
    have running := List.mem_of_getElem? found
    split
    · rename_i stored
      have none_landed := sound.still compaction running (by rw [stored]; decide)
      split
      · exact sound.erase place
      · rename_i content held
        refine ⟨sound.memory, ?_, ?_, ?_, by simp, fun _ _ _ => none_landed⟩
        · dsimp only
          rw [none_landed, List.map_nil, List.append_nil]
          exact sound.temporary compaction running stored content held
        · intro other member
          rcases List.mem_or_eq_of_mem_set member with earlier | rfl
          · exact sound.plans other earlier
          · exact sound.plans compaction running
        · intro other member
          rcases List.mem_or_eq_of_mem_set member with earlier | rfl
          · exact sound.kept other earlier
          · exact sound.kept compaction running
    · exact sound

theorem Sound.finish (sound : calls.Sound) (place : Nat) : (calls.finish place).Sound := by
  unfold JournalCalls.finish
  split
  · exact sound
  · rename_i compaction found
    have running := List.mem_of_getElem? found
    split
    · refine { sound.erase place with memory := ?_ }
      intro operationId entry last
      unfold CompactionPlan.store
      rw [InsertionMap.get?_ofList]
      exact sound.kept compaction running operationId entry last
    · exact sound

theorem Sound.step (sound : calls.Sound) {input : CallStep} (apart : calls.KeepsApart policy input) :
    (calls.step policy input).Sound := by
  cases input with
  | append entry nowMs => exact sound.append apart
  | compact nowMs => exact sound.beginCompaction none apart
  | judge place => exact sound.judge place
  | write place => exact sound.write apart
  | record place => exact sound.record apart
  | storeTemporary place => exact sound.storeTemporary place
  | rename place => exact sound.rename place
  | finish place => exact sound.finish place

/-- The last acknowledged record is read back from the file, or what an append under way has
written behind it. -/
theorem Sound.keepsAcknowledged (sound : calls.Sound) (filePath : String) :
    calls.KeepsAcknowledged filePath := by
  intro operationId entry last
  refine ⟨sound.memory operationId entry last, ?_⟩
  obtain ⟨rows, file, covers⟩ := sound.file
  have loaded := load_tail filePath rows .empty
  rw [List.append_nil, Option.toList_none, List.append_nil] at loaded
  cases behind : lastOf JournalEntry.operationId (calls.landed.map PendingAppend.entry) operationId with
  | none =>
    refine ⟨_, entry, file ▸ loaded, ?_, .inl rfl⟩
    rw [InsertionMap.get?_ofList]
    apply covers
    rw [lastOf_append, behind, Option.none_or]
    exact last
  | some found =>
    obtain ⟨member, -⟩ := lastOf_eq_some behind
    refine ⟨_, found, file ▸ loaded, ?_, .inr (List.mem_map.mp member)⟩
    rw [InsertionMap.get?_ofList]
    apply covers
    rw [lastOf_append, behind, Option.some_or]

/-- Over every interleaving of appends and compactions that keeps them apart in the file, no
acknowledged record is lost. -/
theorem keepsAcknowledged_run (policy : RetentionPolicy) (filePath : String) (rows : List Row)
    (temporary : Option Bytes) (steps : List CallStep)
    (apart : (machine policy).Meets (KeepsApart policy) (opened rows temporary) steps) :
    ((machine policy).after (opened rows temporary) steps).KeepsAcknowledged filePath :=
  ((machine policy).invariant_of_step Sound (fun _ _ sound meets => sound.step meets)
    (sound_opened rows temporary) apart).keepsAcknowledged filePath

def sampleRetention : RetentionPolicy where
  ttlMs := 1000
  maxBytes := 1000000

def expiredRow : Row where
  entry := { sampleEntry "old" with status := "cancelled" }
  acceptedAt := epoch
  dated := rfl

/-- An append waits while a compaction renames and finishes, and is written then. -/
theorem keepsAcknowledged_run_waiting : ((machine sampleRetention).after (opened [expiredRow] none)
      [.compact 5000, .append (sampleEntry "new") 5000, .storeTemporary 0, .rename 0, .write 0,
        .finish 0, .record 0]).KeepsAcknowledged "journal.jsonl" :=
  keepsAcknowledged_run sampleRetention "journal.jsonl" [expiredRow] none _
    (by decide +kernel)

def overtakenRun : List CallStep :=
  [.compact 5000, .append (sampleEntry "new") 5000, .write 0, .record 0, .storeTemporary 0, .rename 0,
    .finish 0]

/-- Its record is neither in memory nor in the file. -/
theorem acknowledged_record_lost :
    ¬ ((machine sampleRetention).after (opened [expiredRow] none) overtakenRun).KeepsAcknowledged
      "journal.jsonl" := by
  intro keeps
  have run : (lastOf JournalEntry.operationId ((machine sampleRetention).after
        (opened [expiredRow] none) overtakenRun).acknowledged "new").isSome = true ∧
      (((machine sampleRetention).after (opened [expiredRow] none)
        overtakenRun).store.entries.get? "new").isSome = false := by
    decide +kernel
  obtain ⟨acknowledged, missing⟩ := run
  obtain ⟨entry, last⟩ := Option.isSome_iff_exists.mp acknowledged
  rw [(keeps "new" entry last).1] at missing
  cases missing

end JournalCalls
end Refyard.HostNode
