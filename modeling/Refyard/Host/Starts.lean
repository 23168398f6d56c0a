import Refyard.Host.Lineage
import Refyard.Host.WriteBlocks

/-! Whether an effect may start while an earlier outcome under its key is still open. The
block is looked at when an operation is submitted; the queue starts it later, and does not
look again. -/
namespace Refyard

namespace Host

/-- No effect starts under a key while an unknown outcome of it is unacknowledged. -/
def StartsSafely (digest : MutationRequest → String) (host : Host) (input : HostInput) : Prop :=
  ∀ ticket, (machine digest).output host input = .effectStarted ticket →
    ¬host.engine.journal.Has JournalRecord.isUncertain ticket.repositoryId

def Enters (host : Host) (key : String) : Prop :=
  host.engine.queue.running.size < host.engine.queue.limits.maxGlobalGitProcesses ∧
    key ∉ host.engine.queue.writers

instance (host : Host) (key : String) : Decidable (host.Enters key) :=
  inferInstanceAs (Decidable (_ ∧ _))

/-- The steps that let no blocked key through: an accepted submission, which starts what
the queue has room for, finds none of those keys blocked; and a lifted block was the last
unknown outcome's. -/
def StartsUnblocked (host : Host) : HostInput → Prop
  | .resume position facts _ _ _ =>
      ∀ submission ∈ host.submissions[position]?, submission.passes facts = true →
        ∀ key ∈ submission.writeKey :: host.engine.queue.pending.map QueueTicket.repositoryId,
          host.Enters key → ¬host.Blocked key
  | .acknowledge id snapshotId registries fault _ =>
      host.LiftsSafely JournalRecord.isUncertain id snapshotId registries fault
  | _ => True

instance (host : Host) : DecidablePred host.StartsUnblocked
  | .resume .. | .acknowledge .. => by unfold StartsUnblocked; infer_instance
  | .submit .. | .drop .. | .start .. | .finish .. | .abandon .. | .cancel .. | .restart .. =>
      inferInstanceAs (Decidable True)

/-- Open unknown outcomes are covered by a block, and nothing that is about to start has
one. -/
structure Guarded (host : Host) : Prop where
  covered : ∀ key, host.engine.journal.Has JournalRecord.isUncertain key → host.Blocked key
  spawned : ∀ id ticket, host.tasks.get? id = some ⟨ticket, false⟩ →
    ¬host.engine.journal.Has JournalRecord.isUncertain ticket.repositoryId

section
variable {digest : MutationRequest → String} {host next : Host}

theorem guarded_fresh (path : Option String) (effects : List MutationKind) :
    (fresh path effects).Guarded := by
  refine ⟨?_, by simp [fresh]⟩
  rintro key ⟨id, record, held, -⟩
  simp [fresh, MutationEngine.build] at held

theorem spawned_cases {tasks : Table Task.id} {started : List (QueueTicket MutationRequest)}
    (distinct : (started.map QueueTicket.id).Nodup) {id : String}
    {ticket : QueueTicket MutationRequest}
    (h : (spawn tasks started).get? id = some ⟨ticket, false⟩) :
    ticket ∈ started ∨ tasks.get? id = some ⟨ticket, false⟩ := by
  by_cases now : ∃ other ∈ started, other.id = id
  · obtain ⟨other, member, rfl⟩ := now
    rw [spawn_started _ distinct member] at h
    cases Option.some.inj h
    exact .inl member
  · rw [spawn_other _ fun other member same => now ⟨other, member, same⟩] at h
    exact .inr h

theorem Guarded.quiet (guarded : host.Guarded) {input : HostInput}
    (move : Move digest host input next) (quiet : input.settles = false)
    (spawns : ∀ id ticket, next.tasks.get? id = some ⟨ticket, false⟩ →
      ¬host.engine.journal.Has JournalRecord.isUncertain ticket.repositoryId) : next.Guarded := by
  obtain ⟨same, marks⟩ := move.quiet quiet
  have uncertain := marks JournalRecord.isUncertain fun _ => JournalRecord.blocksWrites_of_isUncertain
  refine ⟨fun key has => ?_, fun id ticket task has => ?_⟩
  · unfold Blocked
    rw [same]
    exact guarded.covered key ((uncertain key).mp has)
  · exact spawns id ticket task ((uncertain _).mp has)

theorem Guarded.queued (guarded : host.Guarded) (wired : host.Wired) {position : Nat}
    {facts : Except Problem PreconditionContext} {fault : Option WriteFault} {nowMs laterMs : Int}
    {submission : Submission}
    (unblocked : host.StartsUnblocked (.resume position facts fault nowMs laterMs))
    (waiting : host.submissions[position]? = some submission)
    (passed : submission.passes facts = true) (joined : QueueTicket MutationRequest)
    (hkey : joined.repositoryId = submission.writeKey)
    (idle : host.engine.queue.running.get? joined.id = none)
    (absent : ∀ other ∈ host.engine.queue.pending, other.id ≠ joined.id) (id : String)
    (ticket : QueueTicket MutationRequest)
    (task : (host.queuedHost position submission fault nowMs joined).tasks.get? id =
      some ⟨ticket, false⟩) :
    ¬host.engine.journal.Has JournalRecord.isUncertain ticket.repositoryId := by
  have sound := wired.sound.joined idle absent
  have taken := Queue.takeStartable_spec sound
  rcases spawned_cases (taken.distinct sound) task with now | before
  · obtain ⟨room, free, -⟩ := Queue.canStart_iff.mp (taken.startable ticket now)
    have known : ticket.repositoryId ∈
        submission.writeKey :: host.engine.queue.pending.map QueueTicket.repositoryId := by
      rcases List.mem_append.mp (taken.parts.subset (List.mem_append_left _ now)) with waits | last
      · exact List.mem_cons_of_mem _ (List.mem_map_of_mem waits)
      · rw [List.mem_singleton.mp last, hkey]
        exact List.mem_cons_self
    exact fun has => unblocked submission waiting passed _ known ⟨room, free⟩
      (guarded.covered _ has)
  · exact guarded.spawned id ticket before

theorem Guarded.finished (guarded : host.Guarded) (wired : host.Wired) {id : String}
    {outcome : EffectOutcome} {nowMs laterMs : Int} {ticket : QueueTicket MutationRequest}
    (task : host.tasks.get? id = some ⟨ticket, true⟩) {record : JournalRecord}
    (held : host.engine.journal.get id = some record) (running : record.status = .running) :
    Guarded (ended { host with
      engine := { host.engine with
        journal := host.engine.journal.store (terminalRecord record outcome nowMs),
        recovery := if outcome.status = .unknown then
            host.engine.recovery.block (terminalRecord record outcome nowMs) laterMs
          else host.engine.recovery } } id) := by
  have marks (key : String) := has_finished
    (fun _ => JournalRecord.blocksWrites_of_isUncertain) held running outcome nowMs key
  have asks (h : (terminalRecord record outcome nowMs).isUncertain = true) :
      outcome.status = .unknown := by
    rw [JournalRecord.isUncertain_iff, terminalRecord_status] at h
    exact h.1
  constructor
  · intro key has
    refine blocked_finished.mpr ?_
    obtain ⟨same, uncertain⟩ | before := (marks key).mp has
    · exact .inl ⟨asks uncertain, same⟩
    · exact .inr (guarded.covered key before)
  · intro name other spawned has
    change (host.tasks.erase id).get? name = _ at spawned
    rw [Table.get?_erase] at spawned
    split at spawned
    · contradiction
    rename_i differ
    obtain ⟨same, -⟩ | before := (marks other.repositoryId).mp has
    · -- the queue runs one writer per key, and it is the one that ends
      obtain ⟨hid, runs⟩ := wired.running task
      obtain ⟨hname, also⟩ := wired.running spawned
      obtain ⟨found, hfound, key⟩ := wired.recorded ticket (.inr runs)
      rw [hid, held] at hfound
      cases Option.some.inj hfound
      have one := wired.sound.toValid.writer_unique runs also (wired.writes ticket (.inr runs))
        (wired.writes other (.inr also)) (same.symm.trans key)
      exact differ (hname.symm.trans (one ▸ hid))
    · exact guarded.spawned name other spawned before

theorem Guarded.move (guarded : host.Guarded) (wired : host.Wired) {input : HostInput}
    (unblocked : host.StartsUnblocked input) (move : Move digest host input next) :
    next.Guarded := by
  have quiet := fun h => guarded.quiet move h
  have erased (id : String) : ∀ name ticket, (host.tasks.erase id).get? name = some ⟨ticket, false⟩ →
      ¬host.engine.journal.Has JournalRecord.isUncertain ticket.repositoryId := by
    intro name ticket task
    rw [Table.get?_erase] at task
    split at task
    · contradiction
    · exact guarded.spawned name ticket task
  cases move with
  | still => exact guarded
  | waits | gone | refused | unrecorded | crowded => exact quiet rfl guarded.spawned
  | queued waiting passed recorded joined hid hactor hkey hmode hjob absent =>
    have idle := mintedId_idle wired (append_ok recorded).1
    rw [← hid] at idle absent
    exact quiet rfl (guarded.queued wired unblocked waiting passed joined hkey idle absent)
  | unstarted => exact quiet rfl (erased _)
  | @started id fault nowMs ticket task =>
    refine quiet rfl fun name other spawned => ?_
    rw [Table.get?_insert] at spawned
    split at spawned
    · cases spawned
    · exact guarded.spawned name other spawned
  | unrunnable => exact quiet rfl (erased _)
  | unfinished => exact ⟨guarded.covered, erased _⟩
  | finished task record held running takes recovery blocks =>
    subst blocks
    exact guarded.finished wired task held running
  | abandoned => exact quiet rfl (erased _)
  | cancelled => exact quiet rfl guarded.spawned
  | @acknowledged id snapshotId registries fault nowMs lifts record confirmed blocked =>
    obtain ⟨held, -⟩ := MutationEngine.confirmable_ok confirmed
    have blocking : ∀ record : JournalRecord, record.isUncertain = true →
        record.blocksWrites = true := fun _ => JournalRecord.blocksWrites_of_isUncertain
    have none := (not_has_acknowledged_iff blocking id fault nowMs record.writeKey).mpr
      (unblocked lifts record held)
    refine ⟨fun key has => ?_, fun name ticket task has => ?_⟩
    · have other : key ≠ record.writeKey := fun same => none (same ▸ has)
      rw [has_acknowledged_other blocking held fault nowMs other] at has
      exact blocked_lifted.mpr ⟨other, guarded.covered key has⟩
    · obtain ⟨id, found, hfound, hkey, marked, -⟩ :=
        (Journal.has_acknowledge blocking _ _ _ _ _).mp has
      exact guarded.spawned name ticket task ⟨id, found, hfound, hkey, marked⟩
  | restarted final recovery trusted inherits ends blocks =>
    refine ⟨fun key => ?_, by simp⟩
    rintro ⟨id, record, held, hkey, marked⟩
    exact (blocks key).mpr
      ⟨id, record, held, hkey, JournalRecord.blocksWrites_of_isUncertain marked⟩

/-- While every step lets no blocked key through, no effect starts under a key whose
uncertainty nobody has acknowledged, whatever the interleaving. -/
theorem starts_wait_for_confirmation (digest : MutationRequest → String) (path : Option String)
    (effects : List MutationKind) (inputs : List HostInput)
    (unblocked : (machine digest).Meets StartsUnblocked (fresh path effects) inputs) :
    (machine digest).Meets (StartsSafely digest) (fresh path effects) inputs := by
  refine (machine digest).meets_of_step (fun host => host.Wired ∧ host.Guarded)
    (fun host input held met => ?_) (fun host input held _ ticket starts => ?_)
    ⟨wired_fresh path effects, guarded_fresh path effects⟩ unblocked
  · have move := move_next digest held.1 input
    exact ⟨held.1.move digest move, held.2.move held.1 met move⟩
  · obtain ⟨fault, nowMs, record, -, task, -⟩ := started_of_output held.1 starts
    exact held.2.spawned _ ticket task

/-- Two keys, an unknown outcome, its confirmation, and a second operation that waits for
both. -/
theorem starts_wait_for_confirmation_two_keys :
    (machine sampleDigest).Meets (StartsSafely sampleDigest) (fresh (some "state") [.unstagePaths])
      (accept "a" "repo_1" ++ run "op_1" (.unknown "killed" failure) ++ accept "b" "repo_1" ++
        accept "c" "repo_2" ++ [.acknowledge "op_1" "snap_1" sampleRegistries none 9] ++
        accept "d" "repo_1" ++ [.start "op_3" none 10]) :=
  starts_wait_for_confirmation sampleDigest (some "state") [.unstagePaths] _ (by decide)

/-- An operation that waits behind an unknown outcome starts with the next submission for
any other repository. -/
theorem starts_behind_unknown_outcome :
    ¬∀ inputs, (machine sampleDigest).Meets (StartsSafely sampleDigest) sampleHost inputs := by
  intro safe
  let before := accept "a" "repo_1" ++ accept "b" "repo_1" ++
    run "op_1" (.unknown "killed" failure) ++ accept "c" "repo_2"
  have last := ((machine sampleDigest).meets_append.mp (safe (before ++ [.start "op_2" none 9]))).2.1
  have uncertain : ((machine sampleDigest).after sampleHost before).engine.journal.Has
      JournalRecord.isUncertain sampleKey := by decide
  exact last ⟨"op_2", "owner", sampleKey, .write, 0, sampleRequest "b" "repo_1"⟩ rfl uncertain

end

end Host
end Refyard
