import Refyard.Host.Invariant

/-! Two stores say that a repository may not be written to: the journal, whose record
still asks for a person, and the block the process holds. When they agree, and which
steps make them part. -/
namespace Refyard

namespace JournalRecord

theorem terminalRecord_blocksWrites {record : JournalRecord} (outcome : EffectOutcome) (nowMs : Int)
    (unconfirmed : record.acknowledgedAtMs = none) :
    (terminalRecord record outcome nowMs).blocksWrites = true ↔
      outcome.status = .unknown ∨ outcome.status = .needsAttention := by
  simp [blocksWrites_iff, unconfirmed]

end JournalRecord

def HostInput.settles : HostInput → Bool
  | .finish .. | .acknowledge .. | .restart .. => true
  | _ => false

namespace Host

def Blocked (host : Host) (key : String) : Prop := (host.engine.recovery.blockFor key).isSome = true

instance (host : Host) (key : String) : Decidable (host.Blocked key) :=
  inferInstanceAs (Decidable (_ = true))

def BlockedExactly (host : Host) : Prop :=
  ∀ key, host.Blocked key ↔ host.engine.journal.Has JournalRecord.blocksWrites key

/-- An acknowledgement that lifts a block confirms, durably, the last marked record of its
key. -/
def LiftsSafely (mark : JournalRecord → Bool) (host : Host) (id snapshotId : String)
    (registries : Registries) (fault : Option WriteFault) : Prop :=
  host.engine.lifts registries id snapshotId = true →
    ∀ record ∈ host.engine.journal.get id, ∀ other ∈ host.engine.journal.state.records.values,
      other.writeKey = record.writeKey → mark other = true →
        other.operationId = id ∧ host.engine.journal.takesRecord fault id = true

/-- The steps after which block and journal still agree: a needs-attention outcome is not
recorded, or finds its key blocked already; a lifted block was the last record's. -/
def KeepsBlocks (host : Host) : HostInput → Prop
  | .finish id outcome fault _ _ =>
      outcome.status = .needsAttention → ∀ task ∈ host.tasks.get? id, task.effectRunning = true →
        ∀ record ∈ host.engine.journal.get id, record.status = .running →
          host.engine.journal.takesRecord fault id = true → host.Blocked record.writeKey
  | .acknowledge id snapshotId registries fault _ =>
      host.LiftsSafely JournalRecord.blocksWrites id snapshotId registries fault
  | _ => True

instance (mark : JournalRecord → Bool) (host : Host) (id snapshotId : String)
    (registries : Registries) (fault : Option WriteFault) :
    Decidable (host.LiftsSafely mark id snapshotId registries fault) := by
  unfold LiftsSafely
  infer_instance

instance (host : Host) : DecidablePred host.KeepsBlocks
  | .finish .. | .acknowledge .. => by unfold KeepsBlocks; infer_instance
  | .submit .. | .resume .. | .drop .. | .start .. | .abandon .. | .cancel .. | .restart .. =>
      inferInstanceAs (Decidable True)

section
variable {digest : MutationRequest → String} {host next : Host}

/-- Until an outcome settles, blocks stay and no record gains or loses a mark that only an
unresolved outcome carries. -/
theorem Move.quiet {input : HostInput} (move : Move digest host input next)
    (h : input.settles = false) : next.engine.recovery = host.engine.recovery ∧
      ∀ mark : JournalRecord → Bool, (∀ record, mark record = true → record.blocksWrites = true) →
        ∀ key, next.engine.journal.Has mark key ↔ host.engine.journal.Has mark key := by
  have appended {mark : JournalRecord → Bool}
      (blocking : ∀ record, mark record = true → record.blocksWrites = true)
      (submission : Submission) (fault : Option WriteFault) (nowMs : Int) (key : String) :
      (host.engine.appended submission fault nowMs).journal.Has mark key ↔
        host.engine.journal.Has mark key :=
    Journal.has_append fault (Journal.unmarked_of_unfinished blocking (.inl rfl))
  have begun {mark : JournalRecord → Bool}
      (blocking : ∀ record, mark record = true → record.blocksWrites = true) {id : String}
      {nowMs : Int} {record : JournalRecord} (held : host.engine.journal.get id = some record)
      (accepted : record.status = .accepted) (key : String) :
      (host.engine.journal.store (Journal.startedRecord nowMs record)).Has mark key ↔
        host.engine.journal.Has mark key := by
    obtain rfl : record.operationId = id := Table.key_of_get? held
    have running : mark (Journal.startedRecord nowMs record) = false :=
      Journal.unmarked_of_unfinished blocking (.inr rfl)
    rw [Journal.has_store held (startedRecord_sameRequest nowMs record).operationId
      (Journal.unmarked_of_unfinished blocking (.inl accepted)), running]
    simp
  cases move with
  | still | waits | gone | refused => exact ⟨rfl, fun _ _ _ => .rfl⟩
  | unrecorded => exact ⟨rfl, fun mark blocking key => appended blocking _ _ _ key⟩
  | @crowded position facts fault nowMs laterMs submission =>
    refine ⟨rfl, fun mark blocking key => .trans ?_ (appended blocking submission fault nowMs key)⟩
    refine Journal.has_transition _ _ (neverStartedRecord_sameRequest _ _) ?_ ?_
    · exact fun record accepted => Journal.unmarked_of_unfinished blocking (.inl accepted)
    · exact fun record _ =>
        Journal.unmarked_of_settled blocking (by simp [Journal.neverStartedRecord])
  | queued => exact ⟨rfl, fun mark blocking key => appended blocking _ _ _ key⟩
  | unstarted => exact ⟨rfl, fun _ _ _ => .rfl⟩
  | started task record held accepted takes =>
    exact ⟨rfl, fun mark blocking key => begun blocking held accepted key⟩
  | unrunnable task record held accepted takes =>
    exact ⟨rfl, fun mark blocking key => begun blocking held accepted key⟩
  | unfinished => contradiction
  | finished => contradiction
  | abandoned => exact ⟨rfl, fun _ _ _ => .rfl⟩
  | cancelled =>
    refine ⟨rfl, fun mark blocking key => ?_⟩
    refine Journal.has_transition _ _ (cancelledRecord_sameRequest _) ?_ ?_
    · exact fun record accepted => Journal.unmarked_of_unfinished blocking (.inl accepted)
    · exact fun record _ =>
        Journal.unmarked_of_settled blocking (by simp [Journal.cancelledRecord])
  | acknowledged => contradiction
  | restarted => contradiction

variable {mark : JournalRecord → Bool} {id key : String} {record : JournalRecord}

theorem has_finished (blocking : ∀ record, mark record = true → record.blocksWrites = true)
    (held : host.engine.journal.get id = some record) (running : record.status = .running)
    (outcome : EffectOutcome) (nowMs : Int) (key : String) :
    (host.engine.journal.store (terminalRecord record outcome nowMs)).Has mark key ↔
      (record.writeKey = key ∧ mark (terminalRecord record outcome nowMs) = true) ∨
        host.engine.journal.Has mark key := by
  obtain rfl : record.operationId = id := Table.key_of_get? held
  have same := terminalRecord_sameRequest record outcome nowMs
  rw [Journal.has_store held same.operationId
    (Journal.unmarked_of_unfinished blocking (.inr running)), same.writeKey]

theorem has_acknowledged_other
    (blocking : ∀ record, mark record = true → record.blocksWrites = true)
    (held : host.engine.journal.get id = some record) (fault : Option WriteFault) (nowMs : Int)
    (other : key ≠ record.writeKey) :
    (host.engine.journal.acknowledge fault id nowMs).2.Has mark key ↔
      host.engine.journal.Has mark key := by
  rw [Journal.has_acknowledge blocking]
  constructor
  · rintro ⟨name, found, hfound, hkey, marked, -⟩
    exact ⟨name, found, hfound, hkey, marked⟩
  · rintro ⟨name, found, hfound, hkey, marked⟩
    refine ⟨name, found, hfound, hkey, marked, fun same => other ?_⟩
    rw [same.1, held] at hfound
    cases Option.some.inj hfound
    exact hkey.symm

theorem not_has_acknowledged_iff
    (blocking : ∀ record, mark record = true → record.blocksWrites = true) (id : String)
    (fault : Option WriteFault) (nowMs : Int) (key : String) :
    ¬(host.engine.journal.acknowledge fault id nowMs).2.Has mark key ↔
      ∀ other ∈ host.engine.journal.state.records.values, other.writeKey = key → mark other = true →
        other.operationId = id ∧ host.engine.journal.takesRecord fault id = true := by
  rw [Journal.has_acknowledge blocking]
  constructor
  · intro none other member hkey marked
    refine of_not_not fun kept => ?_
    exact none ⟨other.operationId, other, Table.mem_values.mp member, hkey, marked, kept⟩
  · rintro sole ⟨name, other, held, hkey, marked, kept⟩
    obtain rfl : other.operationId = name := Table.key_of_get? held
    exact kept (sole other (Table.mem_values_of_get? held) hkey marked)

theorem blocked_lifted {recovery : Recovery} {lifted : String} :
    (((recovery.resolveBlock lifted).2.blockFor key).isSome = true) ↔
      key ≠ lifted ∧ (recovery.blockFor key).isSome = true := by
  rw [Recovery.blockFor_resolveBlock]
  split <;> simp_all

theorem blocked_finished {recovery : Recovery} {outcome : EffectOutcome} {nowMs laterMs : Int} :
    ((if outcome.status = .unknown then recovery.block (terminalRecord record outcome nowMs) laterMs
      else recovery).blockFor key).isSome = true ↔
      (outcome.status = .unknown ∧ record.writeKey = key) ∨
        (recovery.blockFor key).isSome = true := by
  split
  · rename_i unknown
    rw [Recovery.isSome_blockFor_block, (terminalRecord_sameRequest record outcome nowMs).writeKey,
      eq_comm, and_iff_right unknown]
  · rename_i known
    simp [known]

/-- A recorded outcome leaves the two stores in agreement unless it asks for attention under
a key nobody blocked. -/
theorem blockedExactly_finished_iff (agree : host.BlockedExactly)
    (held : host.engine.journal.get id = some record) (running : record.status = .running)
    (unconfirmed : record.acknowledgedAtMs = none) (outcome : EffectOutcome) (nowMs laterMs : Int) :
    (∀ key, ((if outcome.status = .unknown then
          host.engine.recovery.block (terminalRecord record outcome nowMs) laterMs
        else host.engine.recovery).blockFor key).isSome = true ↔
      (host.engine.journal.store (terminalRecord record outcome nowMs)).Has
        JournalRecord.blocksWrites key) ↔
      (outcome.status = .needsAttention → host.Blocked record.writeKey) := by
  have marks (key : String) := has_finished (fun _ h => h) held running outcome nowMs key
  have asks := JournalRecord.terminalRecord_blocksWrites outcome nowMs unconfirmed
  constructor
  · intro h attention
    have blocked := (h record.writeKey).mpr ((marks _).mpr (.inl ⟨rfl, asks.mpr (.inr attention)⟩))
    obtain ⟨unknown, -⟩ | blocked := blocked_finished.mp blocked
    · rw [attention] at unknown
      contradiction
    · exact blocked
  · intro h key
    rw [blocked_finished, marks, asks, show (host.engine.recovery.blockFor key).isSome = true ↔
      host.engine.journal.Has JournalRecord.blocksWrites key from agree key]
    constructor
    · rintro (⟨unknown, rfl⟩ | has)
      · exact .inl ⟨rfl, .inl unknown⟩
      · exact .inr has
    · rintro (⟨rfl, unknown | attention⟩ | has)
      · exact .inl ⟨unknown, rfl⟩
      · exact .inr ((agree _).mp (h attention))
      · exact .inr has

/-- A lifted block leaves the two stores in agreement exactly when the confirmation took the
last mark off its key. -/
theorem blockedExactly_lifted_iff (agree : host.BlockedExactly)
    (held : host.engine.journal.get id = some record) (fault : Option WriteFault) (nowMs : Int) :
    (∀ key, ((host.engine.recovery.resolveBlock record.writeKey).2.blockFor key).isSome = true ↔
      (host.engine.journal.acknowledge fault id nowMs).2.Has JournalRecord.blocksWrites key) ↔
      ∀ other ∈ host.engine.journal.state.records.values, other.writeKey = record.writeKey →
        other.blocksWrites = true →
          other.operationId = id ∧ host.engine.journal.takesRecord fault id = true := by
  rw [← not_has_acknowledged_iff (fun _ h => h) id fault nowMs record.writeKey]
  constructor
  · intro h has
    exact (blocked_lifted.mp ((h _).mpr has)).1 rfl
  · intro none key
    rw [blocked_lifted]
    by_cases same : key = record.writeKey
    · rw [same]
      exact iff_of_false (fun h => h.1 rfl) none
    · rw [has_acknowledged_other (fun _ h => h) held fault nowMs same, ← agree key]
      exact and_iff_right same

theorem blockedExactly_next_iff (wired : host.Wired) (agree : host.BlockedExactly)
    (input : HostInput) :
    ((machine digest).next host input).BlockedExactly ↔ host.KeepsBlocks input := by
  have move := move_next digest wired input
  generalize (machine digest).next host input = next at move
  by_cases settles : input.settles = true
  · cases move with
    | still idle =>
      refine iff_of_true agree ?_
      cases input with
      | finish id outcome fault nowMs laterMs =>
        rintro - ⟨ticket, effectRunning⟩ task running
        obtain rfl : effectRunning = true := running
        exact absurd task (idle ticket)
      | acknowledge id snapshotId registries fault nowMs =>
        intro lifts
        rw [idle] at lifts
        contradiction
      | _ => trivial
    | unfinished task why =>
      refine iff_of_true agree ?_
      rintro - - - - record held running takes
      rw [why record held running] at takes
      contradiction
    | @finished id outcome fault nowMs laterMs ticket task record held running takes recovery blocks =>
      have unconfirmed := wired.trusted.unconfirmed id record held
        (JournalRecord.isUnfinished_iff.mpr (.inr running))
      subst blocks
      refine (blockedExactly_finished_iff agree held running unconfirmed outcome nowMs
        laterMs).trans ⟨?_, fun h attention => h attention _ task rfl record held running takes⟩
      rintro h attention - - - other hother - -
      cases Option.some.inj (held.symm.trans hother)
      exact h attention
    | @acknowledged id snapshotId registries fault nowMs lifts record confirmed blocked =>
      obtain ⟨held, -⟩ := MutationEngine.confirmable_ok confirmed
      refine (blockedExactly_lifted_iff agree held fault nowMs).trans ⟨?_, fun h =>
        h lifts record held⟩
      rintro h - other hother
      cases Option.some.inj (held.symm.trans hother)
      exact h
    | restarted final recovery trusted inherits ends blocks => exact iff_of_true blocks trivial
    | _ => contradiction
  · obtain ⟨same, marks⟩ := move.quiet (Bool.eq_false_iff.mpr settles)
    refine iff_of_true (fun key => ?_) ?_
    · unfold Blocked
      rw [same, marks _ (fun _ h => h)]
      exact agree key
    · cases input <;> trivial

theorem blockedExactly_fresh (path : Option String) (effects : List MutationKind) :
    (fresh path effects).BlockedExactly := by
  intro key
  refine iff_of_false ?_ ?_
  · simp [Blocked, fresh, MutationEngine.build]
  · rintro ⟨id, record, held, -⟩
    simp [fresh, MutationEngine.build] at held

/-- As long as every step keeps the blocks, whatever the interleaving, a key is blocked
exactly when its journal says so; and the first other step parts them. -/
theorem blocks_match_journal (digest : MutationRequest → String) (path : Option String)
    (effects : List MutationKind) (inputs : List HostInput)
    (keeps : (machine digest).Meets KeepsBlocks (fresh path effects) inputs) :
    ((machine digest).after (fresh path effects) inputs).BlockedExactly ∧
      ∀ input, ((machine digest).next ((machine digest).after (fresh path effects) inputs)
          input).BlockedExactly ↔
        ((machine digest).after (fresh path effects) inputs).KeepsBlocks input := by
  have wired := wired_after digest (wired_fresh path effects) inputs
  have agree : ((machine digest).after (fresh path effects) inputs).Wired ∧
      ((machine digest).after (fresh path effects) inputs).BlockedExactly :=
    (machine digest).invariant_of_step (fun host => host.Wired ∧ host.BlockedExactly)
      (fun host input held kept => ⟨held.1.move digest (move_next digest held.1 input),
        (blockedExactly_next_iff held.1 held.2 input).mpr kept⟩)
      ⟨wired_fresh path effects, blockedExactly_fresh path effects⟩ keeps
  exact ⟨agree.2, blockedExactly_next_iff wired agree.2⟩

/-- An unknown outcome, its confirmation, an operation in flight at a restart. -/
theorem blocks_match_journal_restart :
    ((machine sampleDigest).after (fresh (some "state") [.unstagePaths])
      (accept "a" "repo_1" ++ run "op_1" (.unknown "killed" failure) ++
        [.acknowledge "op_1" "snap_1" sampleRegistries none 9] ++ accept "b" "repo_1" ++
        [.start "op_2" none 10, .restart [(some ⟨0, .create, "full"⟩, 11)] 12])).BlockedExactly :=
  (blocks_match_journal sampleDigest (some "state") [.unstagePaths] _ (by decide)).1

/-- A live needs-attention outcome blocks in the journal and not in the process. -/
theorem blocks_part_on_needs_attention :
    ¬∀ inputs, ((machine sampleDigest).after sampleHost inputs).BlockedExactly := by
  intro agree
  have key := agree (accept "a" "repo_1" ++ run "op_1" (.needsAttention failure)) sampleKey
  exact absurd key (by decide)

end

end Host
end Refyard
