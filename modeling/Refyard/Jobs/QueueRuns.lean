import Refyard.Jobs.QueueSafety

/-! Every sequence of queue calls, with what its callers saw. -/
namespace Refyard

inductive QueueCall (J : Type) where
  | enqueue (id actor repositoryId : String) (mode : QueueMode) (job : J)
  | cancel (id : String)
  | takeStartable
  | release (id : String)

def QueueCall.enqueued {J : Type} : QueueCall J → Option String
  | .enqueue id .. => some id
  | _ => none

/-- A queue, the ids it returned to its callers, the tickets that were taken and not yet
released, and the ids whose cancellation it confirmed. -/
structure QueueRun (J : Type) where
  queue : Queue J
  returned : List String
  inFlight : List (QueueTicket J)
  cancelled : List String

namespace QueueRun

variable {J : Type}

def start (limits : QueueLimits) : QueueRun J := ⟨.new limits, [], [], []⟩

def apply (run : QueueRun J) : QueueCall J → QueueRun J
  | .enqueue id actor repositoryId mode job =>
      { run with queue := (run.queue.enqueue id actor repositoryId mode job).2 }
  | .cancel id =>
      { run with
        queue := (run.queue.cancel id).2,
        cancelled := if (run.queue.cancel id).1 then id :: run.cancelled else run.cancelled }
  | .takeStartable =>
      { run with
        queue := run.queue.takeStartable.2,
        returned := run.returned ++ run.queue.takeStartable.1.map QueueTicket.id,
        inFlight := run.queue.takeStartable.1 ++ run.inFlight }
  | .release id =>
      { run with
        queue := run.queue.release id,
        inFlight := run.inFlight.filter fun ticket => ticket.id ≠ id }

def after (run : QueueRun J) (calls : List (QueueCall J)) : QueueRun J := calls.foldl apply run

structure Safe (limits : QueueLimits) (run : QueueRun J) : Prop where
  oneWriter : ∀ key, writersIn run.inFlight key ≤ 1
  fewReaders : ∀ key, readersIn run.inFlight key ≤ limits.maxReadersPerRepository
  fewRunning : run.inFlight.length ≤ limits.maxGlobalGitProcesses
  running : run.queue.running.values.Perm run.inFlight
  runningCount : run.queue.runningCount = run.inFlight.length
  writers : run.queue.writers = writerKeys run.inFlight
  readers : ∀ key, run.queue.readers[key]? = readerEntry run.inFlight key
  returnedOnce : run.returned.Nodup
  cancelledStays : ∀ id ∈ run.cancelled, id ∉ run.returned

structure Consistent (limits : QueueLimits) (run : QueueRun J) : Prop where
  sound : run.queue.Sound
  limits : run.queue.limits = limits
  running : run.queue.running.values.Perm run.inFlight
  returnedOnce : run.returned.Nodup
  flown : ∀ ticket ∈ run.inFlight, ticket.id ∈ run.returned
  waiting : ∀ ticket ∈ run.queue.pending, ticket.id ∉ run.returned ∧ ticket.id ∉ run.cancelled
  cancelledStays : ∀ id ∈ run.cancelled, id ∉ run.returned

structure Unused (run : QueueRun J) (id : String) : Prop where
  absent : ∀ ticket ∈ run.queue.pending, ticket.id ≠ id
  unreturned : id ∉ run.returned
  uncancelled : id ∉ run.cancelled

variable {limits : QueueLimits} {run : QueueRun J} {id : String}

theorem Consistent.safe (h : run.Consistent limits) :
    run.Safe limits where
  oneWriter key := writersIn_perm h.running key ▸ h.sound.oneWriter key
  fewReaders key := by
    rw [← readersIn_perm h.running, ← h.limits]
    exact h.sound.fewReaders key
  fewRunning := by
    rw [← h.running.length_eq, Table.length_values, ← h.limits]
    exact h.sound.fewRunning
  running := h.running
  runningCount := by
    rw [← h.running.length_eq, Table.length_values]
    rfl
  writers := by
    ext key
    rw [h.sound.writers, mem_writerKeys, writersIn_perm h.running]
  readers key := by
    rw [h.sound.readers]
    unfold readerEntry
    rw [readersIn_perm h.running]
  returnedOnce := h.returnedOnce
  cancelledStays := h.cancelledStays

theorem consistent_start (limits : QueueLimits) : (start limits : QueueRun J).Consistent limits :=
  ⟨Queue.sound_new limits, rfl, by simp [start, Queue.new], by simp [start], by simp [start],
    by simp [start, Queue.new], by simp [start]⟩

theorem Consistent.idle (h : run.Consistent limits) (unreturned : id ∉ run.returned) :
    run.queue.running.get? id = none := by
  refine Option.eq_none_iff_forall_ne_some.mpr fun ticket held => unreturned ?_
  rw [← Table.key_of_get? held]
  exact h.flown ticket (h.running.mem_iff.mp (Table.mem_values_of_get? held))

theorem Consistent.enqueue (h : run.Consistent limits) {actor repositoryId : String}
    {mode : QueueMode} {job : J} (unused : run.Unused id) :
    (run.apply (.enqueue id actor repositoryId mode job)).Consistent limits := by
  obtain ⟨refusal, refused⟩ | ⟨ticket, rfl, -, -, -, -, absent, joined⟩ :=
    run.queue.enqueue_cases id actor repositoryId mode job
  · simp only [QueueRun.apply, refused]
    exact h
  · simp only [QueueRun.apply, joined]
    refine { h with
      sound := h.sound.joined (h.idle unused.unreturned) absent
      waiting := fun other member => ?_ }
    rcases List.mem_append.mp member with member | single
    · exact h.waiting other member
    · rw [List.mem_singleton.mp single]
      exact ⟨unused.unreturned, unused.uncancelled⟩

theorem Consistent.cancel (h : run.Consistent limits) (id : String) :
    (run.apply (.cancel id)).Consistent limits := by
  obtain ⟨-, stays⟩ | ⟨before, ticket, later, parts, rfl, removed⟩ := run.queue.cancel_cases id
  · simp only [QueueRun.apply, stays]
    exact h
  · simp only [QueueRun.apply, removed]
    have fewer : (before ++ later).Sublist run.queue.pending := by
      rw [parts]
      exact (List.sublist_cons_self _ _).append_left _
    have member : ticket ∈ run.queue.pending := by simp [parts]
    -- the cancelled ticket was the only one under its id
    have alone : ∀ other ∈ before ++ later, other.id ≠ ticket.id := by
      have distinct := h.sound.fresh.distinct
      rw [parts, List.map_append, List.map_cons, List.nodup_middle, ← List.map_append,
        List.nodup_cons] at distinct
      exact fun other inside same => distinct.1 (same ▸ List.mem_map_of_mem inside)
    refine { h with
      sound := h.sound.fewer fewer
      waiting := fun other inside => ⟨(h.waiting other (fewer.subset inside)).1, ?_⟩
      cancelledStays := ?_ }
    · simp only [↓reduceIte, List.mem_cons, not_or]
      exact ⟨alone other inside, (h.waiting other (fewer.subset inside)).2⟩
    · simp only [↓reduceIte, List.mem_cons, forall_eq_or_imp]
      exact ⟨(h.waiting ticket member).1, h.cancelledStays⟩

theorem Consistent.takeStartable (h : run.Consistent limits) :
    (run.apply .takeStartable).Consistent limits := by
  unfold apply
  have taken := Queue.takeStartable_spec h.sound
  have started : ∀ ticket ∈ run.queue.takeStartable.1, ticket ∈ run.queue.pending :=
    fun ticket member => taken.parts.subset (List.mem_append_left _ member)
  have distinct := ((taken.parts.map QueueTicket.id).nodup_iff).mpr h.sound.fresh.distinct
  rw [List.map_append, List.nodup_append] at distinct
  refine ⟨taken.sound, taken.limits.trans h.limits,
    taken.running.trans (List.Perm.append_left _ h.running), ?_, ?_, ?_, ?_⟩
  · refine List.nodup_append.mpr ⟨h.returnedOnce, distinct.1, ?_⟩
    intro id before other now same
    obtain ⟨ticket, member, rfl⟩ := List.mem_map.mp now
    exact (h.waiting ticket (started ticket member)).1 (same ▸ before)
  · intro ticket member
    rcases List.mem_append.mp member with now | before
    · exact List.mem_append_right _ (List.mem_map_of_mem now)
    · exact List.mem_append_left _ (h.flown ticket before)
  · intro ticket member
    have still := h.waiting ticket (taken.waits.subset member)
    refine ⟨?_, still.2⟩
    rw [List.mem_append, not_or]
    exact ⟨still.1, fun now => distinct.2.2 _ now _ (List.mem_map_of_mem member) rfl⟩
  · intro id gone
    rw [List.mem_append, not_or]
    refine ⟨h.cancelledStays id gone, fun now => ?_⟩
    obtain ⟨ticket, member, rfl⟩ := List.mem_map.mp now
    exact (h.waiting ticket (started ticket member)).2 gone

theorem Consistent.release (h : run.Consistent limits) (id : String) :
    (run.apply (.release id)).Consistent limits := by
  unfold apply
  refine { h with
    sound := h.sound.release id
    limits := (Queue.release_limits _ _).trans h.limits
    running := ?_
    flown := fun ticket member => h.flown ticket (List.mem_of_mem_filter member)
    waiting := fun ticket member => h.waiting ticket (Queue.release_pending _ _ ▸ member) }
  have distinct : run.inFlight.Nodup :=
    (h.running.nodup_iff).mp (Table.values_nodup _)
  rw [List.perm_ext_iff_of_nodup (Table.values_nodup _) (distinct.filter _)]
  intro ticket
  rw [Queue.release_running, Table.mem_values, Table.get?_erase, List.mem_filter,
    ← h.running.mem_iff, Table.mem_values]
  by_cases same : ticket.id = id <;> simp [same]

theorem Consistent.apply (h : run.Consistent limits) {call : QueueCall J}
    (unused : ∀ id, call.enqueued = some id → run.Unused id) :
    (run.apply call).Consistent limits := by
  cases call with
  | enqueue id => exact h.enqueue (unused id rfl)
  | cancel id => exact h.cancel id
  | takeStartable => exact h.takeStartable
  | release id => exact h.release id

theorem Unused.apply (h : run.Consistent limits) (unused : run.Unused id) {call : QueueCall J}
    (other : call.enqueued ≠ some id) : (run.apply call).Unused id := by
  cases call with
  | enqueue name actor repositoryId mode job =>
    obtain ⟨refusal, refused⟩ | ⟨ticket, hid, -, -, -, -, -, joined⟩ :=
      run.queue.enqueue_cases name actor repositoryId mode job
    · simp only [QueueRun.apply, refused]
      exact unused
    · simp only [QueueRun.apply, joined]
      refine { unused with absent := fun waiting member => ?_ }
      rcases List.mem_append.mp member with member | single
      · exact unused.absent waiting member
      · rw [List.mem_singleton.mp single, hid]
        exact fun same => other (congrArg some same)
  | cancel name =>
    obtain ⟨-, stays⟩ | ⟨before, ticket, later, parts, rfl, removed⟩ :=
      run.queue.cancel_cases name
    · simp only [QueueRun.apply, stays]
      exact unused
    · simp only [QueueRun.apply, removed]
      refine ⟨fun waiting member => unused.absent waiting ?_, unused.unreturned, ?_⟩
      · rw [parts]
        exact ((List.sublist_cons_self _ _).append_left _).subset member
      · simp only [↓reduceIte, List.mem_cons, not_or]
        exact ⟨fun same => unused.absent ticket (by simp [parts]) same.symm, unused.uncancelled⟩
  | takeStartable =>
    unfold QueueRun.apply
    have taken := Queue.takeStartable_spec h.sound
    refine ⟨fun waiting member => unused.absent waiting (taken.waits.subset member), ?_,
      unused.uncancelled⟩
    rw [List.mem_append, not_or]
    refine ⟨unused.unreturned, fun now => ?_⟩
    obtain ⟨ticket, member, rfl⟩ := List.mem_map.mp now
    exact unused.absent ticket (taken.parts.subset (List.mem_append_left _ member)) rfl
  | release name =>
    exact { unused with
      absent := fun waiting member =>
        unused.absent waiting (Queue.release_pending _ _ ▸ member) }

theorem Consistent.after (h : run.Consistent limits) {calls : List (QueueCall J)}
    (once : (calls.filterMap QueueCall.enqueued).Nodup)
    (unused : ∀ id ∈ calls.filterMap QueueCall.enqueued, run.Unused id) :
    (run.after calls).Consistent limits := by
  induction calls generalizing run with
  | nil => exact h
  | cons call rest ih =>
    have next : (run.apply call).Consistent limits := by
      refine h.apply fun id enqueues => unused id ?_
      rw [List.filterMap_cons_some enqueues]
      exact List.mem_cons_self
    have later : (rest.filterMap QueueCall.enqueued).Sublist
        ((call :: rest).filterMap QueueCall.enqueued) :=
      (List.sublist_cons_self call rest).filterMap _
    refine ih next (later.nodup once) fun id member => (unused id (later.subset member)).apply h ?_
    intro enqueues
    rw [List.filterMap_cons_some enqueues, List.nodup_cons] at once
    exact once.1 member

/-- Whatever is asked of a queue, in whatever order, as long as no id is enqueued twice. -/
theorem queue_safety (limits : QueueLimits) (calls : List (QueueCall J))
    (once : (calls.filterMap QueueCall.enqueued).Nodup) :
    Safe limits ((start limits).after calls) :=
  ((consistent_start limits).after once fun _ _ =>
    ⟨by simp [start, Queue.new], by simp [start], by simp [start]⟩).safe

theorem queue_safety_two_writers :
    let calls : List (QueueCall Nat) :=
      [.enqueue "op_1" "owner" "repo/a" .write 1, .enqueue "op_2" "owner" "repo/a" .write 2,
        .enqueue "op_3" "owner" "repo/b" .read 3, .takeStartable, .release "op_1", .takeStartable]
    Safe {} ((start {}).after calls) ∧ ((start {}).after calls).returned = ["op_1", "op_3", "op_2"] :=
  ⟨queue_safety {} _ (by decide), by decide⟩

end QueueRun
end Refyard
