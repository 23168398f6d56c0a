import Refyard.Host.Restart

/-! What holds of the host in every state it reaches, whatever its clients, its effects
and its disk do. -/
namespace Refyard

namespace Queue

variable {J : Type}

def Holds (queue : Queue J) (ticket : QueueTicket J) : Prop :=
  ticket ∈ queue.pending ∨ queue.running.get? ticket.id = some ticket

variable {queue next : Queue J}
variable {id : String} {ticket : QueueTicket J}

theorem Holds.release (held : (queue.release id).Holds ticket) : queue.Holds ticket := by
  unfold Holds at held
  rw [release_pending, release_running, Table.get?_erase] at held
  rcases held with waits | runs
  · exact .inl waits
  · split at runs
    · contradiction
    · exact .inr runs

theorem Taken.started {queue next : Queue J} {started : List (QueueTicket J)}
    (taken : Taken queue started next) {ticket : QueueTicket J} (h : ticket ∈ started) :
    next.running.get? ticket.id = some ticket :=
  Table.mem_values.mp (taken.running.symm.subset (List.mem_append_left _ h))

theorem Taken.kept {started : List (QueueTicket J)} (taken : Taken queue started next)
    (h : ∀ ticket ∈ started, ticket.id ≠ id) : next.running.get? id = queue.running.get? id := by
  refine Option.ext fun ticket => ⟨fun held => ?_, fun held => ?_⟩
  · obtain rfl : ticket.id = id := Table.key_of_get? held
    rcases List.mem_append.mp (taken.running.subset (Table.mem_values_of_get? held)) with now | before
    · exact absurd rfl (h ticket now)
    · exact Table.mem_values.mp before
  · obtain rfl : ticket.id = id := Table.key_of_get? held
    exact Table.mem_values.mp
      (taken.running.symm.subset (List.mem_append_right _ (Table.mem_values_of_get? held)))

theorem Taken.holds {started : List (QueueTicket J)} (taken : Taken queue started next)
    (held : next.Holds ticket) : queue.Holds ticket := by
  rcases held with waits | runs
  · exact .inl (taken.waits.subset waits)
  · by_cases now : ∃ other ∈ started, other.id = ticket.id
    · obtain ⟨other, member, same⟩ := now
      have found := taken.started member
      rw [same, runs] at found
      cases Option.some.inj found
      exact .inl (taken.parts.subset (List.mem_append_left _ member))
    · rw [taken.kept fun other member same => now ⟨other, member, same⟩] at runs
      exact .inr runs

theorem Taken.distinct {started : List (QueueTicket J)} (sound : queue.Sound)
    (taken : Taken queue started next) : (started.map QueueTicket.id).Nodup := by
  have distinct := ((taken.parts.map QueueTicket.id).nodup_iff).mpr sound.fresh.distinct
  rw [List.map_append, List.nodup_append] at distinct
  exact distinct.1

end Queue

namespace Host

variable (tasks : Table Task.id) {id : String} {ticket : QueueTicket MutationRequest} {host : Host}

theorem spawn_cons (ticket : QueueTicket MutationRequest)
    (rest : List (QueueTicket MutationRequest)) :
    spawn tasks (ticket :: rest) = spawn (tasks.insert ⟨ticket, false⟩) rest := rfl

variable {tickets : List (QueueTicket MutationRequest)}

theorem spawn_other (h : ∀ ticket ∈ tickets, ticket.id ≠ id) :
    (spawn tasks tickets).get? id = tasks.get? id := by
  induction tickets generalizing tasks with
  | nil => rfl
  | cons ticket rest ih =>
    rw [spawn_cons, ih _ fun other member => h other (List.mem_cons_of_mem _ member)]
    exact Table.get?_insert_of_ne (h ticket List.mem_cons_self).symm

theorem spawn_started (distinct : (tickets.map QueueTicket.id).Nodup) (h : ticket ∈ tickets) :
    (spawn tasks tickets).get? ticket.id = some ⟨ticket, false⟩ := by
  induction tickets generalizing tasks with
  | nil => contradiction
  | cons first rest ih =>
    obtain ⟨absent, distinct⟩ := List.nodup_cons.mp distinct
    rw [spawn_cons]
    rcases List.mem_cons.mp h with rfl | later
    · have differ : ∀ other ∈ rest, other.id ≠ ticket.id := fun other member same =>
        absent (same ▸ List.mem_map_of_mem member)
      rw [spawn_other _ differ]
      exact Table.get?_insert_self _ (⟨ticket, false⟩ : Task)
    · exact ih _ distinct later

structure Wired (host : Host) : Prop where
  trusted : host.engine.journal.Trusted
  sound : host.engine.queue.Sound
  limits : host.engine.queue.limits = {}
  tasks : ∀ id, (host.tasks.get? id).map Task.ticket = host.engine.queue.running.get? id
  writes : ∀ ticket, host.engine.queue.Holds ticket → ticket.mode = .write
  recorded : ∀ ticket, host.engine.queue.Holds ticket →
    ∃ record, host.engine.journal.get ticket.id = some record ∧
      record.writeKey = ticket.repositoryId

theorem wired_fresh (path : Option String) (effects : List MutationKind) :
    (fresh path effects).Wired := by
  have idle : ∀ ticket, ¬(fresh path effects).engine.queue.Holds ticket := by
    simp [Queue.Holds, fresh, MutationEngine.build, Queue.new]
  exact ⟨Journal.trusted_fresh path, Queue.sound_new {}, rfl, fun id => by
    simp [fresh, MutationEngine.build, Queue.new], fun ticket held => absurd held (idle ticket),
    fun ticket held => absurd held (idle ticket)⟩

theorem Wired.withJournal (wired : host.Wired) {call : JournalCall} {journal : Journal}
    (asked : ∀ record, call = .append record → record.acknowledgedAtMs = none)
    (changes : Journal.Changes call host.engine.journal journal) :
    Wired { host with engine := { host.engine with journal := journal } } := by
  refine { wired with
    trusted := wired.trusted.changes asked changes
    recorded := fun ticket held => ?_ }
  obtain ⟨record, hrecord, key⟩ := wired.recorded ticket held
  obtain ⟨new, hnew, same, -⟩ := Journal.keeps_of_changes changes _ record hrecord
  exact ⟨new, hnew, same.writeKey.trans key⟩

theorem Wired.withRecovery (wired : host.Wired) (recovery : Recovery) :
    Wired { host with engine := { host.engine with recovery := recovery } } :=
  { wired with }

theorem Wired.withSubmissions (wired : host.Wired) (submissions : List Submission) :
    Wired { host with submissions := submissions } :=
  { wired with }

theorem Wired.withCounter (wired : host.Wired) (nextOperation : Nat) :
    Wired { host with engine := { host.engine with nextOperation := nextOperation } } :=
  { wired with }

theorem Wired.ended (wired : host.Wired) (id : String) : Wired { host with
      engine := host.engine.queueRelease id, tasks := host.tasks.erase id } := by
  refine ⟨wired.trusted, wired.sound.release id, (Queue.release_limits _ _).trans wired.limits,
    fun name => ?_, fun ticket held => wired.writes ticket held.release,
    fun ticket held => wired.recorded ticket held.release⟩
  unfold MutationEngine.queueRelease
  rw [Queue.release_running, Table.get?_erase, Table.get?_erase]
  split
  · rfl
  · exact wired.tasks name

theorem Wired.running (wired : host.Wired) {effectRunning : Bool}
    (h : host.tasks.get? id = some ⟨ticket, effectRunning⟩) :
    ticket.id = id ∧ host.engine.queue.running.get? ticket.id = some ticket := by
  have hid : Task.id ⟨ticket, effectRunning⟩ = id := Table.key_of_get? h
  have agree := wired.tasks id
  rw [h] at agree
  refine ⟨hid, ?_⟩
  rw [show ticket.id = id from hid]
  exact agree.symm

theorem Wired.began (wired : host.Wired) (h : host.tasks.get? id = some ⟨ticket, false⟩) :
    Wired { host with tasks := host.tasks.insert ⟨ticket, true⟩ } := by
  refine { wired with tasks := fun name => ?_ }
  obtain ⟨-, runs⟩ := wired.running h
  rw [Table.get?_insert]
  split
  · rename_i same
    rw [same]
    exact runs.symm
  · exact wired.tasks name

theorem Wired.pumped (wired : host.Wired) : Wired { host with
      engine := { host.engine with queue := host.engine.queue.takeStartable.2 },
      tasks := spawn host.tasks host.engine.queue.takeStartable.1 } := by
  have taken := Queue.takeStartable_spec wired.sound
  refine ⟨wired.trusted, taken.sound, taken.limits.trans wired.limits, fun id => ?_,
    fun ticket held => wired.writes ticket (taken.holds held),
    fun ticket held => wired.recorded ticket (taken.holds held)⟩
  by_cases now : ∃ ticket ∈ host.engine.queue.takeStartable.1, ticket.id = id
  · obtain ⟨ticket, member, rfl⟩ := now
    rw [spawn_started _ (taken.distinct wired.sound) member, taken.started member]
    rfl
  · have other : ∀ ticket ∈ host.engine.queue.takeStartable.1, ticket.id ≠ id :=
      fun ticket member same => now ⟨ticket, member, same⟩
    rw [spawn_other _ other, taken.kept other]
    exact wired.tasks id

theorem Wired.joined (wired : host.Wired) {record : JournalRecord} (write : ticket.mode = .write)
    (idle : host.engine.queue.running.get? ticket.id = none)
    (absent : ∀ other ∈ host.engine.queue.pending, other.id ≠ ticket.id)
    (held : host.engine.journal.get ticket.id = some record)
    (key : record.writeKey = ticket.repositoryId) : Wired { host with
      engine := { host.engine with
        queue := { host.engine.queue with pending := host.engine.queue.pending ++ [ticket] } } } := by
  have known {other : QueueTicket MutationRequest}
      (h : Queue.Holds { host.engine.queue with
        pending := host.engine.queue.pending ++ [ticket] } other) :
      host.engine.queue.Holds other ∨ other = ticket := by
    rcases h with waits | runs
    · rcases List.mem_append.mp waits with before | now
      · exact .inl (.inl before)
      · exact .inr (List.mem_singleton.mp now)
    · exact .inl (.inr runs)
  refine { wired with
    sound := wired.sound.joined idle absent
    writes := fun other holds => ?_
    recorded := fun other holds => ?_ }
  · rcases known holds with before | rfl
    · exact wired.writes other before
    · exact write
  · rcases known holds with before | rfl
    · exact wired.recorded other before
    · exact ⟨record, held, key⟩

theorem Wired.fewer (wired : host.Wired) {pending : List (QueueTicket MutationRequest)}
    (h : pending.Sublist host.engine.queue.pending) : Wired { host with
      engine := { host.engine with queue := { host.engine.queue with pending := pending } } } := by
  have known {ticket : QueueTicket MutationRequest}
      (holds : Queue.Holds { host.engine.queue with pending := pending } ticket) :
      host.engine.queue.Holds ticket :=
    holds.imp (fun waits => h.subset waits) id
  exact { wired with
    sound := wired.sound.fewer h
    writes := fun ticket holds => wired.writes ticket (known holds)
    recorded := fun ticket holds => wired.recorded ticket (known holds) }

def queuedHost (host : Host) (position : Nat) (submission : Submission)
    (fault : Option WriteFault) (nowMs : Int) (ticket : QueueTicket MutationRequest) : Host :=
  let joined : Queue MutationRequest :=
    { host.engine.queue with pending := host.engine.queue.pending ++ [ticket] }
  { engine := { host.engine.appended submission fault nowMs with queue := joined.takeStartable.2 }
    submissions := host.submissions.eraseIdx position
    tasks := spawn host.tasks joined.takeStartable.1 }

def stored (host : Host) (record : JournalRecord) : Host :=
  { host with engine := { host.engine with journal := host.engine.journal.store record } }

def ended (host : Host) (id : String) : Host :=
  { host with engine := host.engine.queueRelease id, tasks := host.tasks.erase id }

def Idle (host : Host) : HostInput → Prop
  | .start id _ _ => ∀ ticket, host.tasks.get? id ≠ some ⟨ticket, false⟩
  | .finish id _ _ _ _ | .abandon id => ∀ ticket, host.tasks.get? id ≠ some ⟨ticket, true⟩
  | .acknowledge id snapshotId registries _ _ => host.engine.lifts registries id snapshotId = false
  | _ => True

section
variable (digest : MutationRequest → String)

inductive Move (host : Host) : HostInput → Host → Prop
  | still {input : HostInput} (idle : host.Idle input) : Move host input host
  | waits {actor : String} {request : MutationRequest} {registries : Registries}
      (submission : Submission)
      (unknown : host.engine.journal.findClientRequest actor request.clientRequestId = none)
      (hactor : submission.actor = actor) (hrequest : submission.request = request)
      (hdigest : submission.digest = digest request)
      (hkey : registries.writeKey request = .ok submission.writeKey) :
      Move host (.submit actor request registries)
        { host with submissions := host.submissions ++ [submission] }
  | gone (position : Nat) :
      Move host (.drop position) { host with submissions := host.submissions.eraseIdx position }
  | refused {position : Nat} {facts : Except Problem PreconditionContext}
      {fault : Option WriteFault} {nowMs laterMs : Int} {submission : Submission}
      (waiting : host.submissions[position]? = some submission) :
      Move host (.resume position facts fault nowMs laterMs)
        { host with submissions := host.submissions.eraseIdx position }
  | unrecorded {position : Nat} {facts : Except Problem PreconditionContext}
      {fault : Option WriteFault} {nowMs laterMs : Int} {submission : Submission}
      (waiting : host.submissions[position]? = some submission) (problem : Problem)
      (failed : (host.engine.journal.append fault (MutationEngine.acceptedRecord submission
        host.engine.mintedId nowMs)).1 = .error problem) :
      Move host (.resume position facts fault nowMs laterMs)
        { host with
          engine := host.engine.appended submission fault nowMs,
          submissions := host.submissions.eraseIdx position }
  | crowded {position : Nat} {facts : Except Problem PreconditionContext}
      {fault : Option WriteFault} {nowMs laterMs : Int} {submission : Submission}
      (waiting : host.submissions[position]? = some submission)
      (recorded : (host.engine.journal.append fault (MutationEngine.acceptedRecord submission
        host.engine.mintedId nowMs)).1 = .ok ()) (refusal : EnqueueRefusal)
      (full : (host.engine.queue.enqueue host.engine.mintedId submission.actor
        submission.writeKey .write submission.request).1 = .error refusal) :
      Move host (.resume position facts fault nowMs laterMs)
        { host with
          engine := { host.engine.appended submission fault nowMs with
            journal := ((host.engine.appended submission fault nowMs).journal.finishWithoutStart
              (nextWrite (nextWrite fault)) host.engine.mintedId
              (MutationEngine.refusalProblem refusal) laterMs).2 },
          submissions := host.submissions.eraseIdx position }
  | queued {position : Nat} {facts : Except Problem PreconditionContext}
      {fault : Option WriteFault} {nowMs laterMs : Int} {submission : Submission}
      (waiting : host.submissions[position]? = some submission)
      (passed : submission.passes facts = true)
      (recorded : (host.engine.journal.append fault (MutationEngine.acceptedRecord submission
        host.engine.mintedId nowMs)).1 = .ok ()) (ticket : QueueTicket MutationRequest)
      (hid : ticket.id = host.engine.mintedId) (hactor : ticket.actor = submission.actor)
      (hkey : ticket.repositoryId = submission.writeKey) (hmode : ticket.mode = .write)
      (hjob : ticket.job = submission.request)
      (absent : ∀ other ∈ host.engine.queue.pending, other.id ≠ host.engine.mintedId) :
      Move host (.resume position facts fault nowMs laterMs)
        (host.queuedHost position submission fault nowMs ticket)
  | unstarted {id : String} {fault : Option WriteFault} {nowMs : Int}
      {ticket : QueueTicket MutationRequest} (task : host.tasks.get? id = some ⟨ticket, false⟩)
      (why : ∀ record, host.engine.journal.get id = some record → record.status = .accepted →
        host.engine.journal.takesRecord fault id = false) :
      Move host (.start id fault nowMs) (host.ended id)
  | started {id : String} {fault : Option WriteFault} {nowMs : Int}
      {ticket : QueueTicket MutationRequest} (task : host.tasks.get? id = some ⟨ticket, false⟩)
      (record : JournalRecord) (held : host.engine.journal.get id = some record)
      (accepted : record.status = .accepted)
      (takes : host.engine.journal.takesRecord fault id = true)
      (implemented : ticket.job.operation.kind ∈ host.engine.effects) :
      Move host (.start id fault nowMs)
        { host.stored (Journal.startedRecord nowMs record) with
          tasks := host.tasks.insert ⟨ticket, true⟩ }
  | unrunnable {id : String} {fault : Option WriteFault} {nowMs : Int}
      {ticket : QueueTicket MutationRequest} (task : host.tasks.get? id = some ⟨ticket, false⟩)
      (record : JournalRecord) (held : host.engine.journal.get id = some record)
      (accepted : record.status = .accepted)
      (takes : host.engine.journal.takesRecord fault id = true)
      (missing : ticket.job.operation.kind ∉ host.engine.effects) :
      Move host (.start id fault nowMs)
        ((host.stored (Journal.startedRecord nowMs record)).ended id)
  | unfinished {id : String} {outcome : EffectOutcome} {fault : Option WriteFault}
      {nowMs laterMs : Int} {ticket : QueueTicket MutationRequest}
      (task : host.tasks.get? id = some ⟨ticket, true⟩)
      (why : ∀ record, host.engine.journal.get id = some record → record.status = .running →
        host.engine.journal.takesRecord fault id = false) :
      Move host (.finish id outcome fault nowMs laterMs) (host.ended id)
  | finished {id : String} {outcome : EffectOutcome} {fault : Option WriteFault}
      {nowMs laterMs : Int} {ticket : QueueTicket MutationRequest}
      (task : host.tasks.get? id = some ⟨ticket, true⟩) (record : JournalRecord)
      (held : host.engine.journal.get id = some record) (running : record.status = .running)
      (takes : host.engine.journal.takesRecord fault id = true) (recovery : Recovery)
      (blocks : recovery = if outcome.status = .unknown then
          host.engine.recovery.block (terminalRecord record outcome nowMs) laterMs
        else host.engine.recovery) :
      Move host (.finish id outcome fault nowMs laterMs)
        (ended { host with
          engine := { host.engine with
            journal := host.engine.journal.store (terminalRecord record outcome nowMs),
            recovery := recovery } } id)
  | abandoned {id : String} {ticket : QueueTicket MutationRequest}
      (task : host.tasks.get? id = some ⟨ticket, true⟩) :
      Move host (.abandon id) (host.ended id)
  | cancelled {actor id : String} {fault : Option WriteFault} {nowMs : Int}
      (before : List (QueueTicket MutationRequest)) (ticket : QueueTicket MutationRequest)
      (after : List (QueueTicket MutationRequest))
      (parts : host.engine.queue.pending = before ++ ticket :: after) (hid : ticket.id = id) :
      Move host (.cancel actor id fault nowMs)
        { host with
          engine := { host.engine with
            queue := { host.engine.queue with pending := before ++ after },
            journal := (host.engine.journal.markCancelled fault id nowMs).2 } }
  | acknowledged {id snapshotId : String} {registries : Registries} {fault : Option WriteFault}
      {nowMs : Int} (lifts : host.engine.lifts registries id snapshotId = true)
      (record : JournalRecord)
      (confirmed : host.engine.confirmable registries id snapshotId = .ok record)
      (blocked : (host.engine.recovery.blockFor record.writeKey).isSome = true) :
      Move host (.acknowledge id snapshotId registries fault nowMs)
        { host with
          engine := { host.engine with
            recovery := (host.engine.recovery.resolveBlock record.writeKey).2,
            journal := (host.engine.journal.acknowledge fault id nowMs).2 } }
  | restarted {failedStarts : List (Option WriteFault × Int)} {nowMs : Int} (final : Journal)
      (recovery : Recovery) (trusted : final.Trusted)
      (inherits : host.engine.journal.Inherits final)
      (ends : ∀ id record, final.get id = some record → record.isUnfinished = false)
      (blocks : ∀ key,
        (recovery.blockFor key).isSome = true ↔ final.Has JournalRecord.blocksWrites key) :
      Move host (.restart failedStarts nowMs)
        { engine := .build final recovery host.engine.effects, submissions := [], tasks := .empty }

variable {host : Host} {fault : Option WriteFault} {record : JournalRecord} {nowMs : Int}

theorem move_next (wired : host.Wired) (input : HostInput) :
    Move digest host input ((machine digest).next host input) := by
  unfold Machine.next machine
  cases input with
  | submit actor request registries =>
    simp only [step]
    cases began : host.engine.beginSubmit actor request (digest request)
        (registries.writeKey request) with
    | answered answer => exact .still trivial
    | awaiting submission =>
      obtain ⟨unknown, hactor, hrequest, hdigest, hkey⟩ := MutationEngine.beginSubmit_awaiting began
      exact .waits submission unknown hactor hrequest hdigest hkey
  | resume position facts fault nowMs laterMs =>
    simp only [step]
    cases waiting : host.submissions[position]? with
    | none => exact .still trivial
    | some submission =>
      obtain ⟨-, problem, h⟩ | ⟨-, ⟨problem, failed⟩, answer, h⟩ |
          ⟨passed, recorded, crowd | queue⟩ :=
        host.engine.resumeSubmit_cases submission facts fault nowMs laterMs
      · simp only [h]
        exact .refused waiting
      · simp only [h]
        exact .unrecorded waiting problem failed
      · obtain ⟨refusal, problem, full, h⟩ := crowd
        simp only [h]
        exact .crowded waiting recorded refusal full
      · obtain ⟨ticket, hid, hactor, hkey, hmode, hjob, absent, answer, h, -⟩ := queue
        simp only [h]
        exact .queued waiting passed recorded ticket hid hactor hkey hmode hjob absent
  | drop position => exact .gone position
  | start id fault nowMs =>
    simp only [step]
    split
    · rename_i ticket task
      obtain ⟨hid, -⟩ := wired.running task
      obtain ⟨h, why⟩ | ⟨record, held, accepted, takes, ⟨h, implemented⟩ | ⟨h, missing⟩⟩ :=
        host.engine.startTicket_cases ticket fault nowMs
      · simp only [h, hid]
        exact .unstarted task (hid ▸ why)
      · simp only [h]
        exact .started task record (hid ▸ held) accepted (hid ▸ takes) implemented
      · simp only [h, hid]
        exact .unrunnable task record (hid ▸ held) accepted (hid ▸ takes) missing
    · rename_i idle
      exact .still idle
  | finish id outcome fault nowMs laterMs =>
    simp only [step]
    split
    · rename_i ticket task
      obtain ⟨hid, -⟩ := wired.running task
      obtain ⟨h, why⟩ | ⟨record, held, running, takes, h⟩ :=
        host.engine.finishTicket_cases ticket outcome fault nowMs laterMs
      · simp only [h, hid]
        exact .unfinished task (hid ▸ why)
      · simp only [h, hid]
        exact .finished task record (hid ▸ held) running (hid ▸ takes) _ rfl
    · rename_i idle
      exact .still idle
  | abandon id =>
    simp only [step]
    split
    · rename_i ticket task
      obtain ⟨hid, -⟩ := wired.running task
      simp only [MutationEngine.abandonTicket, hid]
      exact .abandoned task
    · rename_i idle
      exact .still idle
  | cancel actor id fault nowMs =>
    simp only [step]
    obtain ⟨problem, h⟩ | ⟨before, ticket, after, parts, hid, h⟩ :=
      host.engine.cancel_cases actor id fault nowMs
    · simp only [h]
      exact .still trivial
    · simp only [h]
      exact .cancelled before ticket after parts hid
  | acknowledge id snapshotId registries fault nowMs =>
    simp only [step]
    obtain ⟨idle, problem, h⟩ | ⟨lifts, record, confirmed, blocked, h⟩ :=
      host.engine.acknowledgeUncertainOperation_cases registries id snapshotId fault nowMs
    · simp only [h]
      exact .still idle
    · simp only [h]
      exact .acknowledged lifts record confirmed blocked
  | restart failedStarts nowMs =>
    obtain ⟨final, recovery, booted, trusted, inherits, ends, blocks⟩ :=
      boot_spec wired.trusted failedStarts host.engine.effects nowMs
    simp only [step, booted]
    exact .restarted final recovery trusted inherits ends blocks

theorem mintedId_idle (wired : host.Wired)
    (free : host.engine.journal.get host.engine.mintedId = none) :
    host.engine.queue.running.get? host.engine.mintedId = none := by
  refine Option.eq_none_iff_forall_ne_some.mpr fun ticket runs => ?_
  have hid : ticket.id = host.engine.mintedId := Table.key_of_get? runs
  obtain ⟨record, held, -⟩ := wired.recorded ticket (.inr (by rw [hid, runs]))
  rw [hid, free] at held
  contradiction

theorem append_ok {journal : Journal} (h : (journal.append fault record).1 = .ok ()) :
    journal.get record.operationId = none ∧
      (journal.append fault record).2 = (journal.enrol record).publishIndex ∧
      journal.takesRecord fault record.operationId = true := by
  obtain ⟨problem, refused, -⟩ | ⟨problem, refused, -⟩ | ⟨done, fresh, takes, -⟩ :=
    journal.append_cases fault record
  · rw [refused] at h
    cases h
  · rw [refused] at h
    cases h
  · exact ⟨Journal.get_eq_none_of_fresh fresh, by rw [done], takes⟩

theorem get_appended {engine : MutationEngine} {submission : Submission}
    (recorded : (engine.journal.append fault
      (MutationEngine.acceptedRecord submission engine.mintedId nowMs)).1 = .ok ()) :
    (engine.appended submission fault nowMs).journal.get engine.mintedId =
      some (engine.journal.numbered
        (MutationEngine.acceptedRecord submission engine.mintedId nowMs)) := by
  unfold MutationEngine.appended
  rw [(append_ok recorded).2.1, Journal.get_publishIndex]
  exact Journal.get_enrol_self _ _

theorem Wired.appended (wired : host.Wired) (submission : Submission) (fault : Option WriteFault)
    (nowMs : Int) :
    Wired { host with engine := host.engine.appended submission fault nowMs } :=
  (wired.withJournal (by rintro record ⟨⟩; rfl)
    (host.engine.journal.append_changes fault _)).withCounter _

theorem Wired.stored (wired : host.Wired) (call : JournalCall) {old new : JournalRecord}
    (other : ∀ record, call ≠ .append record)
    (held : host.engine.journal.get old.operationId = some old) (updates : call.Updates old new)
    (takes : host.engine.journal.takesRecord fault old.operationId = true) :
    (host.stored new).Wired :=
  wired.withJournal (fun record same => absurd same (other record))
    (.single (.store old held updates (Journal.minted_of_takes takes)))

theorem started_updates (id : String) (accepted : record.status = .accepted) :
    JournalCall.Updates (.markStarted id nowMs) record (Journal.startedRecord nowMs record) :=
  ⟨startedRecord_sameRequest nowMs record, .inl ⟨by rw [accepted]; rfl, rfl⟩⟩

theorem terminal_updates (id : String) {outcome : EffectOutcome}
    (running : record.status = .running) :
    JournalCall.Updates (.finish id outcome nowMs) record (terminalRecord record outcome nowMs) :=
  ⟨terminalRecord_sameRequest record outcome nowMs,
    .inl ⟨by simp [running, JournalCall.moves], by simp⟩⟩

theorem Wired.queued {host : Host} (wired : host.Wired) {submission : Submission}
    {fault : Option WriteFault} {nowMs : Int} {ticket : QueueTicket MutationRequest}
    (recorded : (host.engine.journal.append fault (MutationEngine.acceptedRecord submission
      host.engine.mintedId nowMs)).1 = .ok ())
    (hid : ticket.id = host.engine.mintedId) (hkey : ticket.repositoryId = submission.writeKey)
    (hmode : ticket.mode = .write)
    (absent : ∀ other ∈ host.engine.queue.pending, other.id ≠ host.engine.mintedId)
    (position : Nat) : (host.queuedHost position submission fault nowMs ticket).Wired := by
  obtain ⟨free, -⟩ := append_ok recorded
  exact (((wired.appended submission fault nowMs).joined hmode (hid ▸ mintedId_idle wired free)
    (hid ▸ absent) (hid ▸ get_appended recorded) hkey.symm).pumped).withSubmissions _

theorem Wired.move {next : Host} {input : HostInput} (wired : host.Wired)
    (move : Move digest host input next) : next.Wired := by
  cases move with
  | still => exact wired
  | waits | gone | refused => exact wired.withSubmissions _
  | unrecorded => exact (wired.appended _ _ _).withSubmissions _
  | crowded =>
    exact ((wired.appended _ _ _).withJournal (by simp)
      ((JournalCall.finishWithoutStart _ _ _).run_changes _ _)).withSubmissions _
  | queued waiting passed recorded ticket hid hactor hkey hmode hjob absent =>
    exact wired.queued recorded hid hkey hmode absent _
  | unstarted => exact wired.ended _
  | @started id fault nowMs ticket task record held accepted takes =>
    obtain rfl : record.operationId = id := Table.key_of_get? held
    exact (wired.stored (.markStarted record.operationId nowMs) (by simp) held
      (started_updates _ accepted) takes).began task
  | @unrunnable id fault nowMs ticket task record held accepted takes =>
    obtain rfl : record.operationId = id := Table.key_of_get? held
    exact (wired.stored (.markStarted record.operationId nowMs) (by simp) held
      (started_updates _ accepted) takes).ended _
  | unfinished => exact wired.ended _
  | @finished id outcome fault nowMs laterMs ticket task record held running takes recovery blocks =>
    obtain rfl : record.operationId = id := Table.key_of_get? held
    exact ((wired.stored (.finish record.operationId outcome nowMs) (by simp) held
      (terminal_updates _ running) takes).withRecovery recovery).ended _
  | abandoned => exact wired.ended _
  | cancelled before ticket after parts hid =>
    have fewer : (before ++ after).Sublist host.engine.queue.pending := by
      rw [parts]
      exact (List.sublist_cons_self _ _).append_left _
    exact (wired.withJournal (by simp)
      ((JournalCall.markCancelled _ _).run_changes _ _)).fewer fewer
  | acknowledged =>
    exact (wired.withJournal (by simp)
      (host.engine.journal.acknowledge_changes _ _ _)).withRecovery _
  | restarted final recovery trusted inherits ends blocks =>
    have idle : ∀ ticket, ¬(MutationEngine.build final recovery host.engine.effects).queue.Holds
        ticket := by
      simp [Queue.Holds, MutationEngine.build, Queue.new]
    exact ⟨trusted, Queue.sound_new {}, rfl, fun id => by simp [MutationEngine.build, Queue.new],
      fun ticket held => absurd held (idle ticket), fun ticket held => absurd held (idle ticket)⟩

theorem wired_after (wired : host.Wired) (inputs : List HostInput) :
    ((machine digest).after host inputs).Wired :=
  (machine digest).invariant Wired (fun _ input held => held.move digest (move_next digest held input))
    wired inputs

end

end Host
end Refyard
