import Refyard.Host.DurableStatus

/-! Whether a client request that is sent again finds the operation it already made. The
look-up comes before the facts are read, the record after. -/
namespace Refyard

namespace Journal

theorem newer_cases (best : Option JournalRecord) (record : JournalRecord) :
    newer best record = some record ∨ ∃ held, best = some held ∧ newer best record = best := by
  unfold newer
  cases best with
  | none => exact .inl rfl
  | some held =>
    simp only
    split
    · exact .inl rfl
    · exact .inr ⟨held, rfl, rfl⟩

theorem foldl_newer (records : List JournalRecord) (best : Option JournalRecord) :
    (∃ record, records.foldl newer best = some record ∧ (record ∈ records ∨ best = some record)) ∨
      (records = [] ∧ best = none) := by
  induction records generalizing best with
  | nil =>
    cases best with
    | none => exact .inr ⟨rfl, rfl⟩
    | some held => exact .inl ⟨held, rfl, .inr rfl⟩
  | cons first rest ih =>
    obtain ⟨record, found, later | now⟩ | ⟨rfl, none⟩ := ih (newer best first)
    · exact .inl ⟨record, found, .inl (List.mem_cons_of_mem _ later)⟩
    · refine .inl ⟨record, found, ?_⟩
      obtain picked | ⟨held, -, kept⟩ := newer_cases best first
      · rw [picked] at now
        cases Option.some.inj now
        exact .inl List.mem_cons_self
      · exact .inr (kept ▸ now)
    · obtain picked | ⟨held, hbest, kept⟩ := newer_cases best first
      · rw [picked] at none
        contradiction
      · rw [kept, hbest] at none
        contradiction

def OnePerRequest (journal : Journal) : Prop :=
  ∀ first second one other, journal.get first = some one → journal.get second = some other →
    one.actor = other.actor → one.clientRequestId = other.clientRequestId → first = second

theorem findClientRequest_cases (journal : Journal) (actor clientRequestId : String) :
    (journal.findClientRequest actor clientRequestId = none ∧
      ∀ id record, journal.get id = some record →
        ¬(record.actor = actor ∧ record.clientRequestId = clientRequestId)) ∨
    (∃ record, journal.findClientRequest actor clientRequestId = some record ∧
      journal.get record.operationId = some record ∧ record.actor = actor ∧
      record.clientRequestId = clientRequestId) := by
  unfold findClientRequest newest
  obtain ⟨record, found, member | none⟩ | ⟨empty, -⟩ := foldl_newer
    (journal.state.records.values.filter fun record =>
      record.actor = actor && record.clientRequestId = clientRequestId) none
  · obtain ⟨held, same⟩ := List.mem_filter.mp member
    simp only [Bool.and_eq_true, decide_eq_true_eq] at same
    exact .inr ⟨record, found, Table.mem_values.mp held, same⟩
  · contradiction
  · refine .inl ⟨by rw [empty]; rfl, fun id record held same => ?_⟩
    have absent := List.filter_eq_nil_iff.mp empty record (Table.mem_values_of_get? held)
    simp [same] at absent

end Journal
def HostAnswer.ran : HostAnswer → Option (String × String)
  | .effectStarted ticket => some (ticket.actor, ticket.job.clientRequestId)
  | _ => none

namespace Host

def asks (host : Host) : HostInput → Option (String × MutationRequest)
  | .submit actor request _ => some (actor, request)
  | .resume position _ _ _ _ =>
      (host.submissions[position]?).map fun submission => (submission.actor, submission.request)
  | _ => none

def Settles (journal : Journal) (actor : String) (request : MutationRequest) (digest : String)
    (answer : Except Problem SubmitResult) : Prop :=
  ∀ id record, journal.get id = some record → record.actor = actor →
    record.clientRequestId = request.clientRequestId → (record.payloadDigest = digest →
        ∃ result, answer = .ok result ∧ result.record.operationId = id) ∧
      (record.payloadDigest ≠ digest →
        ∃ problem, answer = .error problem ∧ problem.code = .idempotencyConflict ∧
          problem.operationId = some id)

/-- Whatever this step answers a client is what the records of this journal call for. -/
def AnswersFrom (digest : MutationRequest → String) (journal : Journal) (host : Host)
    (input : HostInput) : Prop :=
  ∀ actor request answer, host.asks input = some (actor, request) →
    (machine digest).output host input = .submitted answer →
      Settles journal actor request (digest request) answer

/-- The steps that act on a look-up that still stands: no record appeared while the facts
were read, and a restart finds a directory. -/
def LookupStands (host : Host) : HostInput → Prop
  | .resume position _ _ _ _ =>
      ∀ submission ∈ host.submissions[position]?,
        host.engine.journal.findClientRequest submission.actor
          submission.request.clientRequestId = none
  | .restart _ _ => host.engine.journal.root.isSome = true
  | _ => True

/-- The steps that keep what they recorded: the index is written after the record, and the
actor's queue has room. -/
def KeepsRecorded (host : Host) : HostInput → Prop
  | .resume position facts fault _ _ =>
      ∀ submission ∈ host.submissions[position]?, submission.passes facts = true →
        host.engine.journal.takesRecord fault host.engine.mintedId = true →
          host.engine.journal.takesIndex (nextWrite fault) = true ∧
            host.engine.queue.depthFor submission.actor < host.engine.queue.limits.maxQueuedPerActor
  | _ => True

instance (host : Host) : DecidablePred host.LookupStands
  | .resume .. | .restart .. => by unfold LookupStands; infer_instance
  | .submit .. | .drop .. | .start .. | .finish .. | .abandon .. | .cancel .. | .acknowledge .. =>
      inferInstanceAs (Decidable True)

structure Traced (digest : MutationRequest → String) (host : Host) : Prop where
  one : host.engine.journal.OnePerRequest
  digests : ∀ submission ∈ host.submissions, submission.digest = digest submission.request
  tickets : ∀ ticket, host.engine.queue.Holds ticket →
    ∃ record, host.engine.journal.get ticket.id = some record ∧ record.actor = ticket.actor ∧
      record.clientRequestId = ticket.job.clientRequestId

/-- Every client request in the list has a record that was started, and a new process
would find it. -/
def Ran (host : Host) (requests : List (String × String)) : Prop :=
  ∀ asked ∈ requests, ∃ id record, host.engine.journal.get id = some record ∧
    (record.actor, record.clientRequestId) = asked ∧ record.status ≠ .accepted ∧
      ∀ root, host.engine.journal.root = some root → id ∈ root.named

section
variable {digest : MutationRequest → String} {host next : Host}
variable (path : Option String) {requests : List (String × String)} {actor : String}
  {request : MutationRequest} {answer : Except Problem SubmitResult}

theorem traced_fresh (effects : List MutationKind) : (fresh path effects).Traced digest := by
  refine ⟨fun first second one other held => ?_, by simp [fresh], fun ticket held => ?_⟩
  · simp [fresh, MutationEngine.build] at held
  · simp [Queue.Holds, fresh, MutationEngine.build, Queue.new] at held

variable {input : HostInput}

theorem enrolled_is_new (stands : host.LookupStands input) {id other : String}
    {new old : JournalRecord} (enrolled : host.Enrolled input id new)
    (held : host.engine.journal.get other = some old) :
    ¬(old.actor = new.actor ∧ old.clientRequestId = new.clientRequestId) := by
  obtain ⟨-, -, position, facts, fault, nowMs, laterMs, submission, rfl, waiting, same, -⟩ := enrolled
  obtain ⟨-, absent⟩ | ⟨record, found, -⟩ := host.engine.journal.findClientRequest_cases
    submission.actor submission.request.clientRequestId
  · rw [same.actor, same.clientRequestId]
    exact absent other old held
  · rw [stands submission waiting] at found
    contradiction

theorem Traced.one_move (traced : host.Traced digest) (stands : host.LookupStands input)
    (move : Move digest host input next) : next.engine.journal.OnePerRequest := by
  intro first second one other held also actor request
  obtain ⟨old, hold, same, -⟩ | enrolled := move.origin held
  · obtain ⟨older, holder, similar, -⟩ | enrolled := move.origin also
    · exact traced.one first second old older hold holder
        (same.actor.symm.trans (actor.trans similar.actor))
        (same.clientRequestId.symm.trans (request.trans similar.clientRequestId))
    · exact absurd ⟨same.actor.symm.trans actor, same.clientRequestId.symm.trans request⟩
        (enrolled_is_new stands enrolled hold)
  · obtain ⟨older, holder, similar, -⟩ | also := move.origin also
    · exact absurd ⟨similar.actor.symm.trans actor.symm,
        similar.clientRequestId.symm.trans request.symm⟩ (enrolled_is_new stands enrolled holder)
    · exact enrolled.1.trans also.1.symm

theorem Traced.move (traced : host.Traced digest) (wired : host.Wired)
    (stands : host.LookupStands input) (move : Move digest host input next) :
    next.Traced digest where
  one := traced.one_move stands move
  digests := by
    intro submission member
    obtain before | ⟨actor, request, registries, -, -, -, hrequest, hdigest, -⟩ :=
      move.submitted member
    · exact traced.digests submission before
    · rw [hdigest, hrequest]
  tickets := by
    intro ticket held
    obtain evolves | ⟨-, -, idle⟩ := move.evolves_or_inherits
    · obtain before | ⟨hid, -, position, -, -, nowMs, -, submission, -, -, hactor, -, hjob,
        journal⟩ := move.holds wired held
      · obtain ⟨record, hrecord, actor, request⟩ := traced.tickets ticket before
        obtain ⟨new, hnew, same, -⟩ := evolves.keeps hrecord
        exact ⟨new, hnew, same.actor.trans actor, same.clientRequestId.trans request⟩
      · refine ⟨host.engine.journal.numbered (MutationEngine.acceptedRecord submission
          host.engine.mintedId nowMs), ?_, hactor.symm,
          congrArg MutationRequest.clientRequestId hjob.symm⟩
        rw [journal, Journal.get_publishIndex, hid]
        exact Journal.get_enrol_self _ _
    · exact absurd held (idle ticket)

theorem ran_nil (host : Host) : host.Ran [] := by
  intro asked member
  contradiction

theorem Ran.move (ran : host.Ran requests) (wired : host.Wired) (stands : host.LookupStands input)
    (move : Move digest host input next) : next.Ran requests := by
  have trusted := (wired.move digest move).trusted
  intro asked member
  obtain ⟨id, record, held, same, started, named⟩ := ran asked member
  obtain evolves | ⟨⟨starts, nowMs, rfl⟩, inherits, -⟩ := move.evolves_or_inherits
  · obtain ⟨new, hnew, kept, status⟩ := evolves.keeps held
    refine ⟨id, new, hnew, by rw [kept.actor, kept.clientRequestId, same], ?_, fun root hroot => ?_⟩
    · rcases status with stays | moved
      · rw [stays]
        exact started
      · exact moved
    · obtain ⟨earlier, hearlier, grows⟩ := evolves.named wired.trusted.toCoherent hroot
      exact grows (named earlier hearlier)
  · -- the record was in the directory, so the new process has it
    obtain ⟨root, hroot⟩ := Option.isSome_iff_exists.mp stands
    have durable := (Journal.durableRecord_eq_some wired.trusted.toCoherent).mpr
      ⟨root, hroot, named root hroot, held⟩
    obtain ⟨new, found, aged⟩ := inherits.forth id record durable
    obtain ⟨after, hafter, kept, hnew⟩ :=
      (Journal.durableRecord_eq_some trusted.toCoherent).mp found
    refine ⟨id, new, hnew, by rw [aged.same.actor, aged.same.clientRequestId, same], ?_,
      fun other hother => ?_⟩
    · obtain stays | ⟨-, unknown⟩ := aged.status
      · rw [stays]
        exact started
      · simp [unknown]
    · cases Option.some.inj (hafter.symm.trans hother)
      exact kept

theorem Ran.started {requests : List (String × String)} (ran : host.Ran requests)
    (wired : host.Wired) (traced : host.Traced digest) (published : host.Published)
    {input : HostInput} {ticket : QueueTicket MutationRequest}
    (h : (machine digest).output host input = .effectStarted ticket) :
    (ticket.actor, ticket.job.clientRequestId) ∉ requests ∧ ((machine digest).next host input).Ran
        ((ticket.actor, ticket.job.clientRequestId) :: requests) := by
  have move := move_next digest wired input
  obtain ⟨fault, nowMs, record, rfl, task, held, accepted, -, hnext⟩ := started_of_output wired h
  have runs := (wired.running task).2
  obtain ⟨found, hfound, actor, request⟩ := traced.tickets ticket (.inr runs)
  cases Option.some.inj (held.symm.trans hfound)
  constructor
  · intro member
    obtain ⟨id, other, also, same, started, -⟩ := ran _ member
    obtain ⟨sameActor, sameRequest⟩ := Prod.mk.inj same
    obtain rfl := traced.one _ _ _ _ held also (actor.trans sameActor.symm)
      (request.trans sameRequest.symm)
    cases Option.some.inj (held.symm.trans also)
    exact started accepted
  · intro asked member
    rcases List.mem_cons.mp member with rfl | before
    · refine ⟨ticket.id, Journal.startedRecord nowMs record, ?_,
        by simp [Journal.startedRecord, actor, request], by simp [Journal.startedRecord],
        fun root hroot => ?_⟩
      · have hid : record.operationId = ticket.id := Table.key_of_get? held
        rw [hnext, ← hid]
        exact Journal.get_store_self _ (Journal.startedRecord nowMs record)
      · exact published.move wired move root hroot ticket (hnext ▸ .inr runs)
    · have stands : host.LookupStands (.start ticket.id fault nowMs) := trivial
      exact ran.move wired stands move asked before

theorem settles_of_absent {journal : Journal}
    (absent : journal.findClientRequest actor request.clientRequestId = none) (digest : String)
    (answer : Except Problem SubmitResult) : Settles journal actor request digest answer := by
  intro id record held hactor hrequest
  obtain ⟨-, none⟩ | ⟨other, found, -⟩ :=
    journal.findClientRequest_cases actor request.clientRequestId
  · exact absurd ⟨hactor, hrequest⟩ (none id record held)
  · rw [absent] at found
    contradiction

theorem Traced.settles_submit (traced : host.Traced digest) {registries : Registries}
    (h : (machine digest).output host (.submit actor request registries) = .submitted answer) :
    Settles host.engine.journal actor request (digest request) answer := by
  obtain ⟨absent, -⟩ | ⟨existing, found, hexisting, hactor, hrequest⟩ :=
    host.engine.journal.findClientRequest_cases actor request.clientRequestId
  · exact settles_of_absent absent _ _
  intro id record held sameActor sameRequest
  obtain rfl := traced.one _ _ _ _ hexisting held (hactor.trans sameActor.symm)
    (hrequest.trans sameRequest.symm)
  cases Option.some.inj (hexisting.symm.trans held)
  unfold Machine.output machine at h
  obtain ⟨same, began⟩ | ⟨differs, problem, began, code, named⟩ :=
    MutationEngine.beginSubmit_found found (digest request) (registries.writeKey request)
  · simp only [step, began, HostAnswer.submitted.injEq] at h
    subst h
    exact ⟨fun _ => ⟨_, rfl, rfl⟩, fun differs => absurd same differs⟩
  · simp only [step, began, HostAnswer.submitted.injEq] at h
    subst h
    exact ⟨fun same => absurd same differs, fun _ => ⟨problem, rfl, code, named⟩⟩

theorem Traced.answers_before (traced : host.Traced digest) (stands : host.LookupStands input) :
    AnswersFrom digest host.engine.journal host input := by
  intro actor request answer asked h
  cases input with
  | submit =>
    cases Option.some.inj asked
    exact traced.settles_submit h
  | resume =>
    obtain ⟨submission, waiting, same⟩ := Option.map_eq_some_iff.mp asked
    cases same
    exact settles_of_absent (stands submission waiting) _ _
  | _ => contradiction

theorem Traced.answers_resumed (traced : host.Traced digest) (wired : host.Wired) {position : Nat}
    {facts : Except Problem PreconditionContext} {fault : Option WriteFault} {nowMs laterMs : Int}
    (stands : host.LookupStands (.resume position facts fault nowMs laterMs))
    (keeps : host.KeepsRecorded (.resume position facts fault nowMs laterMs))
    {submission : Submission} (waiting : host.submissions[position]? = some submission)
    (h : (machine digest).output host (.resume position facts fault nowMs laterMs) =
      .submitted answer) :
    Settles ((machine digest).next host (.resume position facts fault nowMs laterMs)).engine.journal
      submission.actor submission.request (digest submission.request) answer := by
  have one := traced.one_move stands (move_next digest wired _)
  have absent := stands submission waiting
  unfold Machine.output machine at h
  unfold Machine.next machine at one ⊢
  obtain ⟨-, problem, refused⟩ | ⟨passed, ⟨why, unrecorded⟩, problem, failed⟩ |
      ⟨passed, recorded, ⟨refusal, problem, full, -⟩ | queued⟩ :=
    host.engine.resumeSubmit_cases submission facts fault nowMs laterMs
  · simp only [step, waiting, refused]
    exact settles_of_absent absent _ _
  · simp only [step, waiting, failed, MutationEngine.appended]
    obtain ⟨problem, same, -⟩ | ⟨-, -, -, takes, refuses⟩ | ⟨done, -⟩ :=
      host.engine.journal.append_cases fault
        (MutationEngine.acceptedRecord submission host.engine.mintedId nowMs)
    · rw [same]
      exact settles_of_absent absent _ _
    · rw [(keeps submission waiting passed takes).1] at refuses
      contradiction
    · rw [done] at unrecorded
      contradiction
  · -- the queue has room, and no waiting ticket has an id that is still free
    obtain ⟨unused, -, takes⟩ := append_ok recorded
    rcases Queue.enqueue_refused full with crowded | ⟨ticket, waits, hid⟩
    · have room := (keeps submission waiting passed takes).2
      omega
    · obtain ⟨record, held, -⟩ := wired.recorded ticket (.inl waits)
      rw [hid] at held
      exact absurd (unused.symm.trans held) (by simp)
  · obtain ⟨ticket, hid, hactor, hkey, hmode, hjob, hfree, given, resumed, answers⟩ := queued
    simp only [step, waiting, resumed, HostAnswer.submitted.injEq] at h one ⊢
    have mine := get_appended recorded
    intro id record held sameActor sameRequest
    obtain rfl : host.engine.mintedId = id := one _ _ _ _ mine held sameActor.symm sameRequest.symm
    cases Option.some.inj (mine.symm.trans held)
    have known : submission.digest = digest submission.request :=
      traced.digests submission (List.mem_of_getElem? waiting)
    rw [← h, answers _ mine]
    exact ⟨fun _ => ⟨_, rfl, rfl⟩, fun differs => absurd known differs⟩

theorem Traced.answers_after (traced : host.Traced digest) (wired : host.Wired)
    (stands : host.LookupStands input) (keeps : host.KeepsRecorded input) :
    AnswersFrom digest ((machine digest).next host input).engine.journal host input := by
  intro actor request answer asked h
  cases input with
  | submit actor request registries =>
    cases Option.some.inj asked
    have same : ((machine digest).next host (.submit actor request registries)).engine =
        host.engine := by
      unfold Machine.next machine
      simp only [step]
      split <;> rfl
    rw [same]
    exact traced.settles_submit h
  | resume =>
    obtain ⟨submission, waiting, same⟩ := Option.map_eq_some_iff.mp asked
    cases same
    exact traced.answers_resumed wired stands keeps waiting h
  | _ => contradiction

structure Once (digest : MutationRequest → String) (host : Host) : Prop where
  wired : host.Wired
  traced : host.Traced digest
  published : host.Published

theorem once_fresh (effects : List MutationKind) : (fresh path effects).Once digest :=
  ⟨wired_fresh path effects, traced_fresh path effects, published_fresh path effects⟩

theorem Once.step (once : host.Once digest) (stands : host.LookupStands input) :
    ((machine digest).next host input).Once digest :=
  let move := move_next digest once.wired input
  ⟨once.wired.move digest move, once.traced.move once.wired stands move,
    once.published.move once.wired move⟩

theorem Once.ran_nodup (once : host.Once digest) (ran : host.Ran requests) {inputs : List HostInput}
    (stands : (machine digest).Meets LookupStands host inputs) :
    (((machine digest).outputs host inputs).filterMap HostAnswer.ran).Nodup ∧
      ∀ asked ∈ ((machine digest).outputs host inputs).filterMap HostAnswer.ran,
        asked ∉ requests := by
  induction inputs generalizing host requests with
  | nil => exact ⟨List.nodup_nil, by simp [Machine.outputs]⟩
  | cons input rest ih =>
    unfold Machine.outputs
    have next := once.step stands.1
    cases answer : (machine digest).output host input with
    | effectStarted ticket =>
      obtain ⟨new, started⟩ := ran.started once.wired once.traced once.published answer
      obtain ⟨distinct, later⟩ := ih next started stands.2
      refine ⟨List.nodup_cons.mpr ⟨fun again => later _ again List.mem_cons_self, distinct⟩, ?_⟩
      intro asked member
      rcases List.mem_cons.mp member with rfl | after
      · exact new
      · exact fun before => later asked after (List.mem_cons_of_mem _ before)
    | _ =>
      exact ih next (ran.move once.wired stands.1 (move_next digest once.wired input)) stands.2

/-- While no record overtakes a look-up, whatever the interleaving: a client request has at
most one record, its effect starts at most once, and every answer is the one its record
calls for. Where also nothing that was recorded is given up, that holds of the record the
answered call made itself. -/
theorem submitted_once (digest : MutationRequest → String) (path : Option String)
    (effects : List MutationKind) (inputs : List HostInput)
    (stands : (machine digest).Meets LookupStands (fresh path effects) inputs) :
    ((machine digest).after (fresh path effects) inputs).engine.journal.OnePerRequest ∧
    (((machine digest).outputs (fresh path effects) inputs).filterMap HostAnswer.ran).Nodup ∧
    (machine digest).Meets (fun host input => AnswersFrom digest host.engine.journal host input)
      (fresh path effects) inputs ∧
    ((machine digest).Meets KeepsRecorded (fresh path effects) inputs →
      (machine digest).Meets (fun host input =>
          AnswersFrom digest ((machine digest).next host input).engine.journal host input)
        (fresh path effects) inputs) := by
  have start : (fresh path effects).Once digest := once_fresh path effects
  refine ⟨?_, (start.ran_nodup (ran_nil _) stands).1, ?_, fun keeps => ?_⟩
  · exact ((machine digest).invariant_of_step (Once digest) (fun _ _ held met => held.step met)
      start stands).traced.one
  · exact (machine digest).meets_of_step (Once digest) (fun _ _ held met => held.step met)
      (fun _ _ held met => held.traced.answers_before met) start stands
  · exact (machine digest).meets_of_step (Once digest) (fun _ _ held met => held.step met.1)
      (fun _ _ held met => held.traced.answers_after held.wired met.1 met.2) start
      ((machine digest).meets_and stands keeps)

/-- A client that asks again while its operation runs, and once more after a restart. -/
theorem submitted_once_retried :
    ((machine sampleDigest).after (fresh (some "state") [.unstagePaths])
      (accept "a" "repo_1" ++ [.start "op_1" none 2,
        .submit "owner" (sampleRequest "a" "repo_1") sampleRegistries, .restart [] 3,
        .submit "owner" (sampleRequest "a" "repo_2") sampleRegistries])).engine.journal.OnePerRequest :=
  (submitted_once sampleDigest (some "state") [.unstagePaths] _ (by decide)).1

/-- Two calls with one client request id look it up before either has a record. -/
theorem overtaken_lookup_records_twice :
    ¬∀ inputs, ((machine sampleDigest).after sampleHost inputs).engine.journal.OnePerRequest := by
  intro one
  let ask : HostInput := .submit "owner" (sampleRequest "a" "repo_1") sampleRegistries
  let read : HostInput := .resume 0 (.ok { indexUnchanged := true }) none 1 1
  have twice := one [ask, ask, read, read] "op_1" "op_2"
  generalize hlast : ((machine sampleDigest).after sampleHost [ask, ask, read, read]).engine.journal =
    last at twice
  have both : ∃ record ∈ last.get "op_1", ∃ other ∈ last.get "op_2",
      record.actor = other.actor ∧ record.clientRequestId = other.clientRequestId := by
    subst hlast
    decide
  obtain ⟨record, held, other, also, actor, request⟩ := both
  exact absurd (twice record other held also actor request) (by decide)

end

end Host
end Refyard
