import Refyard.Host.Lineage
import Refyard.Host.WriteBlocks

/-! Which blocks a person can lift. An acknowledgement needs an unknown outcome and a
snapshot of the repository; a block has neither when it stands for an outcome that needs
attention, or for a workspace. -/
namespace Refyard

def MutationTarget.isWorkspace : MutationTarget → Bool
  | .workspace .. => true
  | _ => false

def IsRepositoryKey (key : String) : Prop :=
  ∃ targetId repository, key = repositoryWriteKey targetId repository

theorem Registries.isRepositoryKey {registries : Registries} {repositoryId key : String}
    (h : registries.writeKeyForRepository repositoryId = .ok key) : IsRepositoryKey key := by
  unfold writeKeyForRepository at h
  split at h
  · contradiction
  · rename_i record _
    cases h
    exact ⟨record.targetId, record, rfl⟩

theorem Registries.isRepositoryKey_of_writeKey {registries : Registries} {request : MutationRequest}
    {key : String} (h : registries.writeKey request = .ok key)
    (repository : request.target.isWorkspace = false) : IsRepositoryKey key := by
  unfold writeKey at h
  split at h
  · rename_i target
    rw [target] at repository
    contradiction
  · exact isRepositoryKey h
  · exact isRepositoryKey h

def Registries.single (targetId : String) (repository : RepositoryRecord) (createdAtMs : Nat) :
    Registries where
  repositories _ := some { repository with targetId := targetId }
  snapshots _ := some ⟨"", createdAtMs⟩

theorem Registries.writeKeyForRepository_single (targetId : String) (repository : RepositoryRecord)
    (createdAtMs : Nat) (repositoryId : String) :
    (single targetId repository createdAtMs).writeKeyForRepository repositoryId =
      .ok (repositoryWriteKey targetId repository) := rfl

theorem Journal.acknowledge_succeeds {journal : Journal} (trusted : journal.Trusted) {id : String}
    {record : JournalRecord} (held : journal.get id = some record)
    (blocks : record.blocksWrites = true) (nowMs : Int) :
    ∃ new, (journal.acknowledge none id nowMs).1 = .ok new := by
  refine (acknowledge_ok_iff held none nowMs).mpr ⟨blocks, takesRecord_none trusted held, ?_⟩
  simp [takesIndex, nextWrite, diskTakes]

namespace Host

/-- One call to lift the block of a key, on a disk that takes its writes: it names a record
of the key that still asks for a person, carries a snapshot of that repository no older
than the outcome, and succeeds. -/
def Confirms (digest : MutationRequest → String) (key : String) (host : Host)
    (input : HostInput) : Prop :=
  ∃ id snapshotId registries nowMs record snapshot answer,
    input = .acknowledge id snapshotId registries none nowMs ∧
      host.engine.journal.get id = some record ∧ record.writeKey = key ∧
      record.blocksWrites = true ∧ registries.snapshots snapshotId = some snapshot ∧
      (∀ finishedAt, record.finishedAtMs = some finishedAt →
        finishedAt ≤ (snapshot.createdAtMs : Int)) ∧
      registries.writeKeyForRepository snapshot.repositoryId = .ok key ∧
      (machine digest).output host input = .operation (.ok answer)

def Releasable (digest : MutationRequest → String) (host : Host) (key : String) : Prop :=
  ∃ calls, (machine digest).Meets (Confirms digest key) host calls ∧
    ¬((machine digest).after host calls).Blocked key

section
variable {digest : MutationRequest → String} {host next : Host} {key : String}
variable {input : HostInput}

theorem uncertain_of_confirms (h : Confirms digest key host input) :
    IsRepositoryKey key ∧ host.engine.journal.Has JournalRecord.isUncertain key := by
  obtain ⟨id, snapshotId, registries, nowMs, record, snapshot, answer, rfl, held, hkey, blocks, -, -,
    repository, done⟩ := h
  refine ⟨Registries.isRepositoryKey repository, id, record, held, hkey, ?_⟩
  rw [JournalRecord.isUncertain_iff]
  refine ⟨?_, (JournalRecord.blocksWrites_iff.mp blocks).2⟩
  unfold Machine.output machine at done
  obtain ⟨-, problem, refused⟩ | ⟨-, other, confirmed, -⟩ :=
    host.engine.acknowledgeUncertainOperation_cases registries id snapshotId none nowMs
  · simp only [step, refused] at done
    cases done
  · obtain ⟨found, unknown, -⟩ := MutationEngine.confirmable_ok confirmed
    rw [held] at found
    cases Option.some.inj found
    exact unknown

theorem uncertain_of_releasable (blocked : host.Blocked key)
    (released : host.Releasable digest key) :
    IsRepositoryKey key ∧ host.engine.journal.Has JournalRecord.isUncertain key := by
  obtain ⟨calls, confirm, lifted⟩ := released
  cases calls with
  | nil => exact absurd blocked lifted
  | cons first rest => exact uncertain_of_confirms confirm.1

theorem releasable_of_uncertain (wired : host.Wired) (blocked : host.Blocked key)
    (repository : IsRepositoryKey key)
    (uncertain : host.engine.journal.Has JournalRecord.isUncertain key) :
    host.Releasable digest key := by
  obtain ⟨targetId, repository, hrepository⟩ := repository
  obtain ⟨id, record, held, hkey, marked⟩ := uncertain
  obtain ⟨unknown, -⟩ := JournalRecord.isUncertain_iff.mp marked
  let registries := Registries.single targetId repository (record.finishedAtMs.getD 0).toNat
  have current : ∀ finishedAt, record.finishedAtMs = some finishedAt →
      finishedAt ≤ ((record.finishedAtMs.getD 0).toNat : Int) := by
    intro finishedAt finished
    simp [finished]
  have repositoryKey : registries.writeKeyForRepository "" = .ok key := by
    rw [hrepository]
    exact Registries.writeKeyForRepository_single _ _ _ _
  have confirmed : host.engine.confirmable registries id "" = .ok record :=
    MutationEngine.confirmable_of held unknown rfl current (hkey ▸ repositoryKey)
  have blocks := JournalRecord.blocksWrites_of_isUncertain marked
  have done := MutationEngine.acknowledgeUncertainOperation_of confirmed (hkey ▸ blocked) none 0
  obtain ⟨new, acknowledged⟩ := Journal.acknowledge_succeeds wired.trusted held blocks 0
  refine ⟨[.acknowledge id "" registries none 0],
    ⟨⟨id, "", registries, 0, record, _, new.toOperationRecord, rfl, held, hkey, blocks, rfl,
      current, repositoryKey, ?_⟩, trivial⟩, ?_⟩
  · unfold Machine.output machine
    simp only [step, done, acknowledged]
    rfl
  · intro still
    unfold Blocked Machine.after Machine.next machine at still
    simp only [List.foldl_cons, List.foldl_nil, step, done] at still
    exact (blocked_lifted.mp still).1 hkey.symm

/-- A blocked key has a record that still asks for a person, whatever was acknowledged. -/
def BlockedJustly (host : Host) : Prop :=
  ∀ key, host.Blocked key → host.engine.journal.Has JournalRecord.blocksWrites key

theorem blockedJustly_fresh (path : Option String) (effects : List MutationKind) :
    (fresh path effects).BlockedJustly := by
  intro key blocked
  simp [Blocked, fresh, MutationEngine.build] at blocked

theorem BlockedJustly.move (just : host.BlockedJustly) (wired : host.Wired)
    (move : Move digest host input next) : next.BlockedJustly := by
  intro key blocked
  by_cases settles : input.settles = true
  · cases move with
    | still => exact just key blocked
    | unfinished => exact just key blocked
    | @finished id outcome fault nowMs laterMs ticket task record held running takes recovery blocks =>
      have unconfirmed := wired.trusted.unconfirmed id record held
        (JournalRecord.isUnfinished_iff.mpr (.inr running))
      refine (has_finished (fun _ h => h) held running outcome nowMs key).mpr ?_
      have asks := JournalRecord.terminalRecord_blocksWrites outcome nowMs unconfirmed
      subst blocks
      obtain ⟨unknown, same⟩ | before := blocked_finished.mp blocked
      · exact .inl ⟨same, asks.mpr (.inl unknown)⟩
      · exact .inr (just key before)
    | @acknowledged id snapshotId registries fault nowMs lifts record confirmed found =>
      obtain ⟨held, -⟩ := MutationEngine.confirmable_ok confirmed
      obtain ⟨other, still⟩ := blocked_lifted.mp blocked
      exact (has_acknowledged_other (fun _ h => h) held fault nowMs other).mpr (just key still)
    | restarted final recovery trusted inherits ends blocks => exact (blocks key).mp blocked
    | _ => contradiction
  · obtain ⟨same, marks⟩ := move.quiet (Bool.eq_false_iff.mpr settles)
    unfold Blocked at blocked
    rw [same] at blocked
    exact (marks _ (fun _ h => h) key).mpr (just key blocked)

/-- The steps that leave every block within reach of a person: no workspace is written to,
and no needs-attention outcome is recorded. -/
def StaysReleasable (host : Host) : HostInput → Prop
  | .submit _ request _ => request.target.isWorkspace = false
  | .finish id outcome fault _ _ =>
      outcome.status = .needsAttention → ∀ task ∈ host.tasks.get? id, task.effectRunning = true →
        ∀ record ∈ host.engine.journal.get id, record.status = .running →
          host.engine.journal.takesRecord fault id = false
  | _ => True

instance (host : Host) : DecidablePred host.StaysReleasable
  | .submit .. | .finish .. => by unfold StaysReleasable; infer_instance
  | .resume .. | .drop .. | .start .. | .abandon .. | .cancel .. | .acknowledge .. | .restart .. =>
      inferInstanceAs (Decidable True)

/-- Nothing here stands for a workspace or for an outcome that needs attention. -/
structure Plain (host : Host) : Prop where
  settled : ∀ id record, host.engine.journal.get id = some record → record.status ≠ .needsAttention
  recorded : ∀ id record, host.engine.journal.get id = some record → IsRepositoryKey record.writeKey
  waiting : ∀ submission ∈ host.submissions, IsRepositoryKey submission.writeKey

theorem Plain.settled_move (plain : host.Plain) (stays : host.StaysReleasable input)
    (move : Move digest host input next) (id : String) (new : JournalRecord)
    (held : next.engine.journal.get id = some new) : new.status ≠ .needsAttention := by
  intro attention
  obtain ⟨old, hold, -, same | moved⟩ | ⟨-, -, -, -, -, -, -, -, -, -, -, accepted | failed⟩ :=
    move.origin held
  · exact plain.settled id old hold (same.symm.trans attention)
  · rw [attention] at moved
    cases input with
    | finish name outcome fault nowMs laterMs =>
      cases move with
      | still => exact plain.settled id new held attention
      | unfinished => exact plain.settled id new held attention
      | finished task record found running takes =>
        have asks : outcome.status = .needsAttention := by
          cases hold : old.status <;> simp_all [HostInput.moves]
        rw [stays asks _ task rfl record found running] at takes
        contradiction
    | _ => cases hold : old.status <;> simp [hold, HostInput.moves] at moved
  · rw [attention] at accepted
    contradiction
  · rw [attention] at failed
    contradiction

theorem Plain.move (plain : host.Plain) (stays : host.StaysReleasable input)
    (move : Move digest host input next) : next.Plain where
  settled := plain.settled_move stays move
  recorded := by
    intro id new held
    obtain ⟨old, hold, same, -⟩ | ⟨-, -, position, -, -, nowMs, -, submission, -, waits, same, -⟩ :=
      move.origin held
    · exact same.writeKey ▸ plain.recorded id old hold
    · exact same.writeKey ▸ plain.waiting submission (List.mem_of_getElem? waits)
  waiting := by
    intro submission member
    obtain before | ⟨actor, request, registries, rfl, -, -, -, -, hkey⟩ := move.submitted member
    · exact plain.waiting submission before
    · exact Registries.isRepositoryKey_of_writeKey hkey stays

theorem plain_fresh (path : Option String) (effects : List MutationKind) :
    (fresh path effects).Plain := by
  refine ⟨?_, ?_, ?_⟩ <;> simp [fresh, MutationEngine.build]

theorem Plain.uncertain (plain : host.Plain) (just : host.BlockedJustly) (blocked : host.Blocked key) :
    IsRepositoryKey key ∧ host.engine.journal.Has JournalRecord.isUncertain key := by
  obtain ⟨id, record, held, rfl, blocks⟩ := just key blocked
  obtain ⟨unknown | attention, unconfirmed⟩ := JournalRecord.blocksWrites_iff.mp blocks
  · exact ⟨plain.recorded id record held, id, record, held, rfl,
      JournalRecord.isUncertain_iff.mpr ⟨unknown, unconfirmed⟩⟩
  · exact absurd attention (plain.settled id record held)

/-- In every state a host reaches, a block can be lifted exactly when it is a repository's
and an unknown outcome of it is still open. While no workspace is written to and no
needs-attention outcome is recorded, that is every block. -/
theorem block_releasable (digest : MutationRequest → String) (path : Option String)
    (effects : List MutationKind) (inputs : List HostInput) (key : String)
    (blocked : ((machine digest).after (fresh path effects) inputs).Blocked key) :
    (((machine digest).after (fresh path effects) inputs).Releasable digest key ↔
      IsRepositoryKey key ∧ ((machine digest).after (fresh path effects) inputs).engine.journal.Has
        JournalRecord.isUncertain key) ∧
    ((machine digest).Meets StaysReleasable (fresh path effects) inputs →
      ((machine digest).after (fresh path effects) inputs).Releasable digest key) := by
  have wired := wired_after digest (wired_fresh path effects) inputs
  refine ⟨⟨uncertain_of_releasable blocked, fun h => releasable_of_uncertain wired blocked h.1 h.2⟩,
    fun stays => ?_⟩
  have held : ((machine digest).after (fresh path effects) inputs).Wired ∧
      ((machine digest).after (fresh path effects) inputs).BlockedJustly ∧
      ((machine digest).after (fresh path effects) inputs).Plain :=
    (machine digest).invariant_of_step (fun host => host.Wired ∧ host.BlockedJustly ∧ host.Plain)
      (fun _ input held met =>
        let move := move_next digest held.1 input
        ⟨held.1.move digest move, held.2.1.move held.1 move, held.2.2.move met move⟩)
      ⟨wired_fresh path effects, blockedJustly_fresh path effects, plain_fresh path effects⟩ stays
  obtain ⟨repository, uncertain⟩ := held.2.2.uncertain held.2.1 blocked
  exact releasable_of_uncertain wired blocked repository uncertain

/-- Two operations in flight at a restart, one block, one confirmation. -/
theorem block_releasable_restart :
    ((machine sampleDigest).after (fresh (some "state") [.unstagePaths])
      (accept "a" "repo_1" ++ accept "b" "repo_1" ++ [.start "op_1" none 2, .restart [] 9])).Releasable
        sampleDigest sampleKey :=
  (block_releasable sampleDigest (some "state") [.unstagePaths] _ sampleKey (by decide)).2 (by decide)

/-- A restart rebuilds the block of a needs-attention outcome, and no call lifts it. -/
theorem block_of_attention_is_permanent :
    ¬∀ inputs key, ((machine sampleDigest).after sampleHost inputs).Blocked key →
      ((machine sampleDigest).after sampleHost inputs).Releasable sampleDigest key := by
  intro releasable
  let inputs := accept "a" "repo_1" ++ run "op_1" (.needsAttention failure) ++ [.restart [] 9]
  have blocked : ((machine sampleDigest).after sampleHost inputs).Blocked sampleKey := by decide
  have none : ¬((machine sampleDigest).after sampleHost inputs).engine.journal.Has
      JournalRecord.isUncertain sampleKey := by decide
  exact none (uncertain_of_releasable blocked (releasable inputs sampleKey blocked)).2

end

end Host
end Refyard
