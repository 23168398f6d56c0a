import Refyard.Host.Invariant

/-! Where the records of a host come from, and when an effect starts. -/
namespace Refyard

namespace Journal

variable {call : JournalCall} {journal next : Journal} {id : String}
variable {new old : JournalRecord}

/-- Every record a call leaves is one it found, moved as the call allows, or the one it
appended. -/
theorem origin_of_changes (changes : Changes call journal next) (held : next.get id = some new) :
    (∃ old, journal.get id = some old ∧ old.SameRequest new ∧
      (new.status = old.status ∨ call.moves old.status new.status = true)) ∨
    (journal.get id = none ∧ ∃ record, call = .append record ∧ record.operationId = id ∧
      record.SameRequest new ∧ new.status = record.status) := by
  induction changes generalizing new with
  | refl => exact .inl ⟨new, held, .refl _, .inl rfl⟩
  | @tail middle last _ change ih =>
    cases change with
    | number => exact ih held
    | @store old stored hold updates minted =>
      rw [get_store] at held
      split at held
      · rename_i hid
        cases Option.some.inj held
        obtain rfl : old.operationId = id := updates.same.operationId.symm.trans hid.symm
        obtain ⟨first, hfirst, same, moved⟩ | ⟨free, record, asked, hrecord, same, status⟩ := ih hold
        · refine .inl ⟨first, hfirst, same.trans updates.same, ?_⟩
          obtain ⟨again, -⟩ | ⟨-, stays, -⟩ := updates.change
          · rcases moved with stays | moved
            · exact .inr (stays ▸ again)
            · -- a record that moved stays where it is
              rw [JournalCall.moves_once moved] at again
              contradiction
          · rwa [stays]
        · -- an append rewrites nothing
          subst asked
          obtain ⟨again, -⟩ | ⟨-, -, -, nowMs, other⟩ := updates.change
          · simp [JournalCall.moves] at again
          · contradiction
      · exact ih held
    | @enrol record asked fresh minted =>
      rw [get_enrol] at held
      split at held
      · rename_i hid
        cases Option.some.inj held
        subst asked
        refine .inr ⟨?_, record, rfl, hid.symm, ⟨rfl, rfl, rfl, rfl, rfl, rfl, rfl⟩, rfl⟩
        have free := get_eq_none_of_fresh fresh
        rw [← hid] at free
        refine Option.eq_none_iff_forall_ne_some.mpr fun old hold => ?_
        obtain ⟨later, hlater, -⟩ := keeps_of_changes ‹Changes _ journal middle› id old hold
        rw [hlater] at free
        contradiction
      · exact ih held
    | publishIndex => exact ih held

abbrev Evolves : Journal → Journal → Prop :=
  Relation.ReflTransGen fun journal next => ∃ call, Change call journal next

theorem Changes.evolves (changes : Changes call journal next) : journal.Evolves next :=
  changes.lift id fun _ _ change => ⟨call, change⟩

theorem evolves_of_store {fault : Option WriteFault} (held : journal.get id = some old)
    (updates : call.Updates old new) (takes : journal.takesRecord fault id = true) :
    journal.Evolves (journal.store new) := by
  obtain rfl : old.operationId = id := Table.key_of_get? held
  exact .single ⟨call, .store old held updates (minted_of_takes takes)⟩

theorem Evolves.keeps (evolves : journal.Evolves next) (held : journal.get id = some old) :
    ∃ new, next.get id = some new ∧ old.SameRequest new ∧
      (new.status = old.status ∨ new.status ≠ .accepted) := by
  induction evolves with
  | refl => exact ⟨old, held, .refl _, .inl rfl⟩
  | tail _ change ih =>
    obtain ⟨call, change⟩ := change
    obtain ⟨middle, hmiddle, first, before⟩ := ih
    obtain ⟨new, hnew, second, stays | moved⟩ := keeps_of_change change id middle hmiddle
    · exact ⟨new, hnew, first.trans second, stays ▸ before⟩
    · exact ⟨new, hnew, first.trans second, .inr (JournalCall.not_accepted_of_moves moved)⟩

end Journal

def HostInput.moves : HostInput → OperationStatus → OperationStatus → Bool
  | .start .., .accepted, .running => true
  | .finish _ outcome _ _ _, .running, ended => ended = outcome.status
  | .cancel .., .accepted, .cancelled => true
  | .restart .., .accepted, .unknown => true
  | .restart .., .running, .unknown => true
  | _, _, _ => false

namespace Host

section
variable {digest : MutationRequest → String} {host next : Host}

def Moved (host : Host) (input : HostInput) (id : String) (new : JournalRecord) : Prop :=
  ∃ old, host.engine.journal.get id = some old ∧ old.SameRequest new ∧
    (new.status = old.status ∨ input.moves old.status new.status = true)

def Enrolled (host : Host) (input : HostInput) (id : String) (new : JournalRecord) : Prop :=
  id = host.engine.mintedId ∧ host.engine.journal.get id = none ∧
    ∃ position facts fault nowMs laterMs submission,
      input = .resume position facts fault nowMs laterMs ∧
        host.submissions[position]? = some submission ∧
        (MutationEngine.acceptedRecord submission id nowMs).SameRequest new ∧
        (new.status = .accepted ∨ new.status = .failed)

variable {input : HostInput} {id : String} {new : JournalRecord} {nowMs : Int}
  {submission : Submission} {ticket : QueueTicket MutationRequest}

theorem moved_of_call (call : JournalCall) {journal : Journal}
    (other : ∀ record, call ≠ .append record)
    (changes : Journal.Changes call host.engine.journal journal)
    (moves : ∀ first second, call.moves first second = true → input.moves first second = true)
    (held : journal.get id = some new) : host.Moved input id new := by
  obtain ⟨old, hold, same, moved⟩ | ⟨-, record, asked, -⟩ := Journal.origin_of_changes changes held
  · exact ⟨old, hold, same, moved.imp_right (moves _ _)⟩
  · exact absurd asked (other record)

variable {position : Nat} {facts : Except Problem PreconditionContext} {fault : Option WriteFault}
  {laterMs : Int}

theorem origin_appended (waiting : host.submissions[position]? = some submission)
    (held : (host.engine.appended submission fault nowMs).journal.get id = some new) :
    host.Moved (.resume position facts fault nowMs laterMs) id new ∨
      host.Enrolled (.resume position facts fault nowMs laterMs) id new ∧ new.status = .accepted := by
  obtain ⟨old, hold, same, moved⟩ | ⟨free, record, asked, hid, same, status⟩ :=
    Journal.origin_of_changes (host.engine.journal.append_changes fault _) held
  · exact .inl ⟨old, hold, same, moved.imp_right fun moves => by simp [JournalCall.moves] at moves⟩
  · cases asked
    have accepted : new.status = .accepted := status
    refine .inr ⟨⟨hid.symm, free, position, facts, fault, nowMs, laterMs, submission, rfl, waiting,
      ?_, .inl accepted⟩, accepted⟩
    rw [← hid]
    exact same

theorem failed_of_finishWithoutStart {problem : Problem} {status : OperationStatus}
    (h : JournalCall.moves (.finishWithoutStart id problem nowMs) .accepted status = true) :
    status = .failed := by
  cases status <;> first | rfl | cases h

theorem origin_crowded (waiting : host.submissions[position]? = some submission)
    (recorded : (host.engine.journal.append fault (MutationEngine.acceptedRecord submission
      host.engine.mintedId nowMs)).1 = .ok ()) (problem : Problem) (last : Option WriteFault)
    (held : ((host.engine.appended submission fault nowMs).journal.finishWithoutStart last
      host.engine.mintedId problem laterMs).2.get id = some new) :
    host.Moved (.resume position facts fault nowMs laterMs) id new ∨
      host.Enrolled (.resume position facts fault nowMs laterMs) id new := by
  have unused : host.engine.journal.get host.engine.mintedId = none := (append_ok recorded).1
  by_cases mine : id = host.engine.mintedId
  · obtain ⟨middle, hmiddle, same, moved⟩ | ⟨-, record, asked, -⟩ := Journal.origin_of_changes
      ((JournalCall.finishWithoutStart host.engine.mintedId problem laterMs).run_changes last _) held
    · obtain ⟨old, hold, -⟩ | ⟨⟨hid, free, origin⟩, accepted⟩ :=
        origin_appended waiting hmiddle
      · rw [mine, unused] at hold
        contradiction
      · obtain ⟨position, facts, fault, nowMs, laterMs, submission, asked, waits, request, -⟩ :=
          origin
        refine .inr ⟨hid, free, position, facts, fault, nowMs, laterMs, submission, asked, waits,
          request.trans same, ?_⟩
        rw [accepted] at moved
        exact moved.imp_right failed_of_finishWithoutStart
    · contradiction
  · have kept : (host.engine.appended submission fault nowMs).journal.get id = some new := by
      rw [← held]
      exact (Journal.get_transition_of_ne (neverStartedRecord_sameRequest problem laterMs) mine).symm
    exact (origin_appended waiting kept).imp_right And.left

/-- Every record of the next state is an old one, moved as the input allows, or belongs to
the submission this input resumed. -/
theorem Move.origin (move : Move digest host input next)
    (held : next.engine.journal.get id = some new) :
    host.Moved input id new ∨ host.Enrolled input id new := by
  have kept {input : HostInput} (same : host.engine.journal.get id = some new) :
      host.Moved input id new ∨ host.Enrolled input id new :=
    .inl ⟨new, same, .refl _, .inl rfl⟩
  have begun {nowMs : Int} {fault : Option WriteFault} {name : String} {record : JournalRecord}
      (found : host.engine.journal.get name = some record) (accepted : record.status = .accepted)
      (takes : host.engine.journal.takesRecord fault name = true)
      (same : (host.engine.journal.store (Journal.startedRecord nowMs record)).get id = some new) :
      host.Moved (.start name fault nowMs) id new := by
    obtain rfl : record.operationId = name := Table.key_of_get? found
    refine moved_of_call (.markStarted record.operationId nowMs) (by simp)
      (.single (.store record found (started_updates _ accepted) (Journal.minted_of_takes takes)))
      (fun first second => ?_) same
    cases first <;> cases second <;> simp [JournalCall.moves, HostInput.moves]
  cases move with
  | still | waits | gone | refused => exact kept held
  | unrecorded waiting => exact (origin_appended waiting held).imp_right And.left
  | @crowded position facts fault nowMs laterMs submission waiting recorded refusal =>
    exact origin_crowded waiting recorded _ _ held
  | queued waiting => exact (origin_appended waiting held).imp_right And.left
  | unstarted => exact kept held
  | started task record found accepted takes => exact .inl (begun found accepted takes held)
  | unrunnable task record found accepted takes => exact .inl (begun found accepted takes held)
  | unfinished => exact kept held
  | @finished name outcome fault nowMs laterMs ticket task record found running takes =>
    obtain rfl : record.operationId = name := Table.key_of_get? found
    refine .inl (moved_of_call (.finish record.operationId outcome nowMs) (by simp)
      (.single (.store record found (terminal_updates _ running) (Journal.minted_of_takes takes)))
      (fun first second => ?_) held)
    cases first <;> simp [JournalCall.moves, HostInput.moves]
  | abandoned => exact kept held
  | @cancelled actor name fault nowMs =>
    refine .inl (moved_of_call (.markCancelled name nowMs) (by simp)
      ((JournalCall.markCancelled name nowMs).run_changes fault _) (fun first second => ?_) held)
    cases first <;> cases second <;> simp [JournalCall.moves, HostInput.moves]
  | @acknowledged name snapshotId registries fault nowMs =>
    refine .inl (moved_of_call (.acknowledge name nowMs) (by simp)
      (host.engine.journal.acknowledge_changes fault name nowMs) (fun first second => ?_) held)
    simp [JournalCall.moves]
  | restarted final recovery trusted inherits =>
    obtain ⟨old, hold, aged⟩ := inherits.back id new held
    refine .inl ⟨old, hold, aged.same, aged.status.imp_right ?_⟩
    rintro ⟨unfinished, unknown⟩
    rcases JournalRecord.isUnfinished_iff.mp unfinished with h | h <;> rw [h, unknown] <;> rfl

/-- An input changes the journal through journal calls; or it is a restart, and a process
that holds no ticket takes the directory over. -/
theorem Move.evolves_or_inherits (move : Move digest host input next) :
    host.engine.journal.Evolves next.engine.journal ∨
      (∃ starts nowMs, input = .restart starts nowMs) ∧
        host.engine.journal.Inherits next.engine.journal ∧
        ∀ ticket, ¬next.engine.queue.Holds ticket := by
  have appended (submission : Submission) (fault : Option WriteFault) (nowMs : Int) :
      host.engine.journal.Evolves (host.engine.appended submission fault nowMs).journal :=
    (host.engine.journal.append_changes fault _).evolves
  cases move with
  | unrecorded => exact .inl (appended _ _ _)
  | crowded =>
    exact .inl ((appended _ _ _).trans
      ((JournalCall.finishWithoutStart _ _ _).run_changes _ _).evolves)
  | queued => exact .inl (appended _ _ _)
  | @started id fault nowMs ticket task record held accepted takes =>
    exact .inl (Journal.evolves_of_store held (started_updates id accepted) takes)
  | @unrunnable id fault nowMs ticket task record held accepted takes =>
    exact .inl (Journal.evolves_of_store held (started_updates id accepted) takes)
  | @finished id outcome fault nowMs laterMs ticket task record held running takes =>
    exact .inl (Journal.evolves_of_store held (terminal_updates id running) takes)
  | cancelled => exact .inl ((JournalCall.markCancelled _ _).run_changes _ _).evolves
  | acknowledged => exact .inl (host.engine.journal.acknowledge_changes _ _ _).evolves
  | restarted final recovery trusted inherits =>
    refine .inr ⟨⟨_, _, rfl⟩, inherits, fun ticket held => ?_⟩
    simp [Queue.Holds, MutationEngine.build, Queue.new] at held
  | _ => exact .inl .refl

/-- A ticket the step queued belongs to the submission this input resumed, whose record is
journalled. -/
def Joined (host : Host) (input : HostInput) (journal : Journal)
    (ticket : QueueTicket MutationRequest) : Prop :=
  ticket.id = host.engine.mintedId ∧ host.engine.journal.get host.engine.mintedId = none ∧
    ∃ position facts fault nowMs laterMs submission,
      input = .resume position facts fault nowMs laterMs ∧
        host.submissions[position]? = some submission ∧ ticket.actor = submission.actor ∧
        ticket.repositoryId = submission.writeKey ∧ ticket.job = submission.request ∧
        journal = (host.engine.journal.enrol
          (MutationEngine.acceptedRecord submission host.engine.mintedId nowMs)).publishIndex

theorem holds_joined {queue : Queue MutationRequest} {joined : QueueTicket MutationRequest}
    (h : Queue.Holds { queue with pending := queue.pending ++ [joined] } ticket) :
    queue.Holds ticket ∨ ticket = joined := by
  rcases h with waits | runs
  · rcases List.mem_append.mp waits with before | now
    · exact .inl (.inl before)
    · exact .inr (List.mem_singleton.mp now)
  · exact .inl (.inr runs)

theorem Move.holds (wired : host.Wired) (move : Move digest host input next)
    (held : next.engine.queue.Holds ticket) :
    host.engine.queue.Holds ticket ∨ host.Joined input next.engine.journal ticket := by
  cases move with
  | @queued position facts fault nowMs laterMs submission waiting passed recorded joined hid hactor
      hkey hmode hjob absent =>
    obtain ⟨free, enrolled, -⟩ := append_ok recorded
    have idle := mintedId_idle wired free
    rw [← hid] at absent idle
    have taken := Queue.takeStartable_spec (wired.sound.joined idle absent)
    rcases holds_joined (taken.holds held) with before | rfl
    · exact .inl before
    · exact .inr ⟨hid, free, position, facts, fault, nowMs, laterMs, submission, rfl, waiting, hactor,
        hkey, hjob, enrolled⟩
  | unstarted | unrunnable | unfinished | finished | abandoned => exact .inl held.release
  | cancelled before cancelled after parts =>
    refine .inl (held.imp_left fun waits => ?_)
    rw [parts]
    exact ((List.sublist_cons_self _ _).append_left _).subset waits
  | restarted => simp [Queue.Holds, MutationEngine.build, Queue.new] at held
  | _ => exact .inl held

def Arrived (digest : MutationRequest → String) (host : Host) (input : HostInput)
    (submission : Submission) : Prop :=
  ∃ actor request registries, input = .submit actor request registries ∧
    host.engine.journal.findClientRequest actor request.clientRequestId = none ∧
    submission.actor = actor ∧ submission.request = request ∧
    submission.digest = digest request ∧ registries.writeKey request = .ok submission.writeKey

theorem Move.submitted (move : Move digest host input next) (member : submission ∈ next.submissions) :
    submission ∈ host.submissions ∨ host.Arrived digest input submission := by
  cases move with
  | @waits actor request registries arrived unknown hactor hrequest hdigest hkey =>
    rcases List.mem_append.mp member with before | now
    · exact .inl before
    · rw [List.mem_singleton.mp now]
      exact .inr ⟨actor, request, registries, rfl, unknown, hactor, hrequest, hdigest, hkey⟩
  | gone | refused | unrecorded | crowded | queued => exact .inl (List.eraseIdx_subset member)
  | restarted => contradiction
  | _ => exact .inl member

/-- The only step that starts an effect is the start of a spawned ticket whose record the
disk took as running. -/
theorem started_of_output (wired : host.Wired)
    (h : (machine digest).output host input = .effectStarted ticket) :
    ∃ fault nowMs record, input = .start ticket.id fault nowMs ∧
      host.tasks.get? ticket.id = some ⟨ticket, false⟩ ∧
      host.engine.journal.get ticket.id = some record ∧ record.status = .accepted ∧
      host.engine.journal.takesRecord fault ticket.id = true ∧ (machine digest).next host input =
        { host.stored (Journal.startedRecord nowMs record) with
          tasks := host.tasks.insert ⟨ticket, true⟩ } := by
  unfold Machine.output Machine.next machine at *
  cases input with
  | start id fault nowMs =>
    simp only [step] at h ⊢
    split at h
    · rename_i spawned task
      obtain ⟨rfl, -⟩ := wired.running task
      obtain ⟨ends, -⟩ | ⟨record, held, accepted, takes, ⟨runs, -⟩ | ⟨ends, -⟩⟩ :=
        host.engine.startTicket_cases spawned fault nowMs
      · simp [ends] at h
      · simp only [runs, HostAnswer.effectStarted.injEq] at h
        subst h
        refine ⟨fault, nowMs, record, rfl, task, held, accepted, takes, ?_⟩
        simp only [runs]
        rfl
      · simp [ends] at h
    · contradiction
  | submit | resume | finish | abandon | restart =>
    simp only [step] at h
    split at h <;> contradiction
  | _ => contradiction

end

end Host
end Refyard
