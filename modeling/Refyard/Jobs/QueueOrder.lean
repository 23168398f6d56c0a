import Refyard.Jobs.QueueRuns

/-! Readers beside writers, and the order in which the writers of one key start. No
assumption is made on the ids, so a call may name one that was used before. -/
namespace Refyard

variable {J : Type}

def QueueTicket.writes (key : String) (ticket : QueueTicket J) : Bool :=
  ticket.mode = .write ∧ ticket.repositoryId = key

def writersOf (key : String) (tickets : List (QueueTicket J)) : List (QueueTicket J) :=
  tickets.filter (QueueTicket.writes key)

def Apart (running : List (QueueTicket J)) : Prop :=
  ∀ writer ∈ running, ∀ reader ∈ running, writer.mode = .write → reader.mode = .read →
    reader.repositoryId ≠ writer.repositoryId

instance (running : List (QueueTicket J)) : Decidable (Apart running) :=
  inferInstanceAs (Decidable (∀ _ ∈ _, ∀ _ ∈ _, _))

theorem Apart.of_mem {first second : List (QueueTicket J)} (apart : Apart first)
    (same : ∀ ticket, ticket ∈ second ↔ ticket ∈ first) : Apart second := by
  intro writer writes reader reads
  exact apart writer ((same writer).mp writes) reader ((same reader).mp reads)

namespace Queue

/-- In one pass over the waiting tickets, no writer's turn to start comes while a reader
of its key runs. The source's `can_start` does not look. -/
def PassApart (queue : Queue J) (running : List (QueueTicket J)) : List (QueueTicket J) → Prop
  | [] => True
  | ticket :: rest =>
      if queue.canStart ticket then
        (ticket.mode = .write →
          ∀ reader ∈ running, reader.mode = .read → reader.repositoryId ≠ ticket.repositoryId) ∧
          (queue.occupy ticket).PassApart (ticket :: running) rest
      else queue.PassApart running rest

structure Seated (queue : Queue J) (running : List (QueueTicket J)) : Prop where
  writers : ∀ ticket ∈ running, ticket.mode = .write → ticket.repositoryId ∈ queue.writers
  alone : ∀ first ∈ running, ∀ second ∈ running, first.mode = .write → second.mode = .write →
    first.repositoryId = second.repositoryId → first.id = second.id
  listed : ∀ ticket ∈ running, queue.running.get? ticket.id ≠ none
  flown : ∀ id ticket, queue.running.get? id = some ticket → ticket ∈ running

variable {queue : Queue J} {running : List (QueueTicket J)}

theorem Seated.occupy (h : queue.Seated running) {ticket : QueueTicket J}
    (allowed : queue.canStart ticket = true) :
    (queue.occupy ticket).Seated (ticket :: running) := by
  obtain ⟨-, unwritten, -⟩ := canStart_iff.mp allowed
  constructor
  · intro other member write
    rw [mem_occupy_writers]
    rcases List.mem_cons.mp member with rfl | member
    · exact .inr ⟨write, rfl⟩
    · exact .inl (h.writers other member write)
  · intro first isFirst second isSecond writes alsoWrites same
    rcases List.mem_cons.mp isFirst with starts | ran
    · rcases List.mem_cons.mp isSecond with alsoStarts | alsoRan
      · rw [starts, alsoStarts]
      · refine absurd ?_ unwritten
        rw [← starts, same]
        exact h.writers second alsoRan alsoWrites
    · rcases List.mem_cons.mp isSecond with starts | alsoRan
      · refine absurd ?_ unwritten
        rw [← starts, ← same]
        exact h.writers first ran writes
      · exact h.alone first ran second alsoRan writes alsoWrites same
  · intro other member
    rw [occupy_running, Table.get?_insert]
    split
    · simp
    · rename_i differs
      rcases List.mem_cons.mp member with rfl | member
      · exact absurd rfl differs
      · exact h.listed other member
  · intro id other held
    rw [occupy_running, Table.get?_insert] at held
    split at held
    · rw [← Option.some.inj held]
      exact List.mem_cons_self
    · exact List.mem_cons_of_mem _ (h.flown id other held)

theorem Seated.scan (h : queue.Seated running) (tickets : List (QueueTicket J)) :
    ∃ flying, (queue.scan tickets).2.2.Seated flying ∧
      ∀ ticket, ticket ∈ (queue.scan tickets).1 ++ running ↔ ticket ∈ flying := by
  induction tickets generalizing queue running with
  | nil => exact ⟨running, h, fun ticket => by simp [Queue.scan]⟩
  | cons ticket rest ih =>
    unfold Queue.scan
    split
    · rename_i allowed
      obtain ⟨flying, seated, same⟩ := ih (h.occupy allowed)
      refine ⟨flying, seated, fun other => ?_⟩
      rw [← same]
      simp only [List.cons_append, List.mem_cons, List.mem_append]
      tauto
    · obtain ⟨flying, seated, same⟩ := ih h
      exact ⟨flying, seated, same⟩

theorem Seated.of_mem {first second : List (QueueTicket J)} (h : queue.Seated first)
    (same : ∀ ticket, ticket ∈ second ↔ ticket ∈ first) : queue.Seated second := by
  constructor
  · intro ticket member
    exact h.writers ticket ((same ticket).mp member)
  · intro one isOne other isOther
    exact h.alone one ((same one).mp isOne) other ((same other).mp isOther)
  · intro ticket member
    exact h.listed ticket ((same ticket).mp member)
  · intro id ticket held
    exact (same ticket).mpr (h.flown id ticket held)

theorem Seated.release (h : queue.Seated running) (id : String) :
    (queue.release id).Seated (running.filter fun ticket => ticket.id ≠ id) := by
  have stays : ∀ ticket, ticket ∈ running.filter (fun ticket => ticket.id ≠ id) →
      ticket ∈ running ∧ ticket.id ≠ id := by
    intro ticket member
    simpa using List.mem_filter.mp member
  constructor
  · intro ticket member write
    obtain ⟨ran, differs⟩ := stays ticket member
    cases held : queue.running.get? id with
    | none =>
      rw [release_of_idle held]
      exact h.writers ticket ran write
    | some gone =>
      rw [mem_release_writers held]
      refine ⟨h.writers ticket ran write, fun ⟨wrote, same⟩ => differs ?_⟩
      rw [← Table.key_of_get? held]
      exact h.alone ticket ran gone (h.flown id gone held) write wrote same.symm
  · intro first isFirst second isSecond
    exact h.alone first (stays first isFirst).1 second (stays second isSecond).1
  · intro ticket member
    obtain ⟨ran, differs⟩ := stays ticket member
    rw [release_running, Table.get?_erase, if_neg differs]
    exact h.listed ticket ran
  · intro name ticket held
    rw [release_running, Table.get?_erase] at held
    split at held
    · contradiction
    · rename_i differs
      have named := Table.key_of_get? held
      refine List.mem_filter.mpr ⟨h.flown name ticket held, ?_⟩
      rw [decide_eq_true_iff, named]
      exact differs

/-- A pass keeps readers and writers apart exactly if no writer's turn comes beside a
reader. -/
theorem apart_scan_iff (seated : queue.Seated running) (apart : Apart running)
    (tickets : List (QueueTicket J)) :
    Apart ((queue.scan tickets).1 ++ running) ↔ queue.PassApart running tickets := by
  induction tickets generalizing queue running with
  | nil => simpa [scan, PassApart] using apart
  | cons ticket rest ih =>
    unfold scan PassApart
    split
    · rename_i allowed
      obtain ⟨-, unwritten, -⟩ := canStart_iff.mp allowed
      have moved : ∀ other, other ∈ (ticket :: ((queue.occupy ticket).scan rest).1) ++ running ↔
          other ∈ ((queue.occupy ticket).scan rest).1 ++ ticket :: running := by
        intro other
        simp only [List.cons_append, List.mem_cons, List.mem_append]
        tauto
      by_cases beside : ticket.mode = .write →
          ∀ reader ∈ running, reader.mode = .read → reader.repositoryId ≠ ticket.repositoryId
      · have joined : Apart (ticket :: running) := by
          intro writer writes reader reads wrote read
          rcases List.mem_cons.mp writes with starts | ran
          · subst starts
            rcases List.mem_cons.mp reads with starts | alsoRan
            · rw [starts, wrote] at read
              contradiction
            · exact beside wrote reader alsoRan read
          · rcases List.mem_cons.mp reads with starts | alsoRan
            · subst starts
              intro same
              exact unwritten (same ▸ seated.writers writer ran wrote)
            · exact apart writer ran reader alsoRan wrote read
        rw [and_iff_right beside, ← ih (seated.occupy allowed) joined]
        exact ⟨fun held => held.of_mem fun other => (moved other).symm,
          fun held => held.of_mem moved⟩
      · constructor
        · intro held
          refine absurd (fun wrote reader reads read => ?_) beside
          exact held ticket (by simp) reader (by simp [reads]) wrote read
        · intro held
          exact absurd held.1 beside
    · exact ih seated apart

def Held (queue : Queue J) (key : String) : Prop :=
  queue.limits.maxGlobalGitProcesses ≤ queue.running.size ∨ key ∈ queue.writers

theorem canStart_write {ticket : QueueTicket J} (write : ticket.mode = .write) :
    queue.canStart ticket = true ↔ ¬queue.Held ticket.repositoryId := by
  rw [canStart_iff, Held, not_or, Nat.not_le]
  simp [write]

theorem Held.occupy {key : String} (h : queue.Held key) (ticket : QueueTicket J) :
    (queue.occupy ticket).Held key := by
  rcases h with full | written
  · left
    rw [occupy_limits, occupy_running]
    exact full.trans (Table.size_le_insert _ _)
  · exact .inr (mem_occupy_writers.mpr (.inl written))

theorem writersOf_scan_of_held {key : String} (h : queue.Held key) (tickets : List (QueueTicket J)) :
    writersOf key (queue.scan tickets).1 = [] := by
  induction tickets generalizing queue with
  | nil => rfl
  | cons ticket rest ih =>
    unfold scan
    split
    · rename_i allowed
      have other : ¬ticket.writes key = true := by
        intro mine
        obtain ⟨write, rfl⟩ : ticket.mode = .write ∧ ticket.repositoryId = key := by
          simpa [QueueTicket.writes] using mine
        exact (canStart_write write).mp allowed h
      have tail := ih (h.occupy ticket)
      unfold writersOf at tail ⊢
      rw [List.filter_cons_of_neg other]
      exact tail
    · exact ih h

/-- The pass starts the writers of a key from the front: behind one that waits, none
starts. -/
theorem writersOf_scan (queue : Queue J) (key : String) (tickets : List (QueueTicket J)) :
    writersOf key (queue.scan tickets).1 ++ writersOf key (queue.scan tickets).2.1 =
      writersOf key tickets := by
  induction tickets generalizing queue with
  | nil => rfl
  | cons ticket rest ih =>
    unfold scan
    by_cases mine : ticket.writes key = true
    · have counted : ∀ others, writersOf key (ticket :: others) =
          ticket :: writersOf key others := by
        intro others
        exact List.filter_cons_of_pos mine
      split
      · simp only [counted, List.cons_append, ih]
      · rename_i denied
        obtain ⟨write, rfl⟩ : ticket.mode = .write ∧ ticket.repositoryId = key := by
          simpa [QueueTicket.writes] using mine
        have held : queue.Held ticket.repositoryId :=
          not_not.mp fun free => denied ((canStart_write write).mpr free)
        have tail := ih queue
        rw [writersOf_scan_of_held held, List.nil_append] at tail
        simp only [writersOf_scan_of_held held, counted, tail, List.nil_append]
    · have skipped : ∀ others, writersOf key (ticket :: others) = writersOf key others := by
        intro others
        exact List.filter_cons_of_neg mine
      split
      · simp only [skipped, ih]
      · simp only [skipped, ih]

theorem scan_waits (queue : Queue J) (tickets : List (QueueTicket J)) :
    (queue.scan tickets).2.1.Sublist tickets := by
  induction tickets generalizing queue with
  | nil => exact List.Sublist.refl _
  | cons ticket rest ih =>
    unfold scan
    split
    · exact (ih _).cons _
    · exact (ih _).cons_cons _

end Queue

/-- A queue with what its calls have shown: the tickets it accepted, newest first and
without those whose cancellation it confirmed, the tickets it handed out, oldest first,
and those not yet released. -/
structure QueueHistory (J : Type) where
  queue : Queue J
  accepted : List (QueueTicket J)
  started : List (QueueTicket J)
  inFlight : List (QueueTicket J)

namespace QueueHistory

def start (limits : QueueLimits) : QueueHistory J := ⟨.new limits, [], [], []⟩

def apply (history : QueueHistory J) : QueueCall J → QueueHistory J
  | .enqueue id actor repositoryId mode job =>
      let (result, queue) := history.queue.enqueue id actor repositoryId mode job
      { history with
        queue,
        accepted := match result with
          | .ok ticket => ticket :: history.accepted
          | .error _ => history.accepted }
  | .cancel id =>
      let (removed, queue) := history.queue.cancel id
      { history with
        queue, accepted :=
          if removed then history.accepted.eraseP fun ticket => ticket.id = id
          else history.accepted }
  | .takeStartable =>
      let (started, queue) := history.queue.takeStartable
      { history with
        queue,
        started := history.started ++ started,
        inFlight := started ++ history.inFlight }
  | .release id =>
      { history with
        queue := history.queue.release id,
        inFlight := history.inFlight.filter fun ticket => ticket.id ≠ id }

def calls : Machine (QueueHistory J) (QueueCall J) Unit where
  step history call := (history.apply call, ())

def InOrder (history : QueueHistory J) : Prop :=
  ∀ key, writersOf key history.started ++ writersOf key history.queue.pending =
    writersOf key history.accepted.reverse

/-- The step condition: a pass finds no writer's turn beside a reader of its key. -/
def StartsApart (history : QueueHistory J) : QueueCall J → Prop
  | .takeStartable => history.queue.PassApart history.inFlight history.queue.pending
  | _ => True

structure Recorded (history : QueueHistory J) : Prop where
  inOrder : history.InOrder
  newest : ∀ ticket ∈ history.queue.pending,
    history.accepted.find? (fun other => other.id = ticket.id) = some ticket
  distinct : (history.queue.pending.map QueueTicket.id).Nodup
  seated : history.queue.Seated history.inFlight

theorem recorded_start (limits : QueueLimits) : (start limits : QueueHistory J).Recorded := by
  constructor
  · intro key
    rfl
  · simp [start, Queue.new]
  · simp [start, Queue.new]
  · constructor <;> simp [start, Queue.new]

variable {history : QueueHistory J}

theorem Recorded.enqueue (h : history.Recorded) (id actor repositoryId : String) (mode : QueueMode)
    (job : J) : (history.apply (.enqueue id actor repositoryId mode job)).Recorded := by
  obtain ⟨refusal, refused⟩ | ⟨ticket, rfl, -, -, -, -, absent, joined⟩ :=
    history.queue.enqueue_cases id actor repositoryId mode job
  · simp only [QueueHistory.apply, refused]
    exact h
  · simp only [QueueHistory.apply, joined]
    constructor
    · intro key
      have before := h.inOrder key
      simp only [writersOf] at before ⊢
      rw [List.filter_append, ← List.append_assoc, before, List.reverse_cons, List.filter_append]
    · intro other member
      rcases List.mem_append.mp member with waits | joins
      · rw [List.find?_cons_of_neg (by simpa using (absent other waits).symm)]
        exact h.newest other waits
      · rw [List.mem_singleton.mp joins]
        exact List.find?_cons_of_pos (by simp)
    · rw [List.map_append, List.nodup_append]
      refine ⟨h.distinct, List.nodup_singleton _, ?_⟩
      intro name waits other joins
      obtain ⟨held, member, rfl⟩ := List.mem_map.mp waits
      rw [List.map_singleton, List.mem_singleton] at joins
      rw [joins]
      exact absent held member
    · exact ⟨h.seated.writers, h.seated.alone, h.seated.listed, h.seated.flown⟩

theorem filter_eraseP {α : Type} {keep found : α → Bool} {values : List α} {value : α}
    (first : values.find? found = some value) : (values.eraseP found).filter keep =
      if keep value then (values.filter keep).eraseP found else values.filter keep := by
  induction values with
  | nil => simp at first
  | cons head rest ih =>
    by_cases match_head : found head
    · rw [List.find?_cons_of_pos match_head, Option.some_inj] at first
      rw [List.eraseP_cons_of_pos match_head, first]
      by_cases kept : keep value
      · rw [if_pos kept, List.filter_cons_of_pos kept, List.eraseP_cons_of_pos (first ▸ match_head)]
      · rw [if_neg kept, List.filter_cons_of_neg kept]
    · rw [List.find?_cons_of_neg match_head] at first
      rw [List.eraseP_cons_of_neg match_head]
      by_cases kept : keep head
      · simp only [List.filter_cons_of_pos kept, List.eraseP_cons_of_neg match_head, ih first]
        split <;> rfl
      · simp only [List.filter_cons_of_neg kept, ih first]

theorem find?_eraseP {α : Type} {found erased : α → Bool}
    (differs : ∀ value, found value = true → erased value = false) (values : List α) :
    (values.eraseP erased).find? found = values.find? found := by
  induction values with
  | nil => rfl
  | cons head rest ih =>
    cases gone : erased head with
    | false =>
      rw [List.eraseP_cons_of_neg (by simp [gone])]
      simp only [List.find?_cons, ih]
    | true =>
      rw [List.eraseP_cons_of_pos gone, List.find?_cons_of_neg]
      intro same
      rw [differs head same] at gone
      contradiction

theorem Recorded.cancel (h : history.Recorded) (id : String) :
    (history.apply (.cancel id)).Recorded := by
  obtain ⟨-, stays⟩ | ⟨before, ticket, later, parts, rfl, removed⟩ := history.queue.cancel_cases id
  · simp only [QueueHistory.apply, stays]
    exact h
  · simp only [QueueHistory.apply, removed, if_true]
    have fewer : (before ++ later).Sublist history.queue.pending := by
      rw [parts]
      exact (List.sublist_cons_self _ _).append_left _
    have member : ticket ∈ history.queue.pending := by simp [parts]
    have alone : ∀ other ∈ before ++ later, other.id ≠ ticket.id := by
      have distinct := h.distinct
      rw [parts, List.map_append, List.map_cons, List.nodup_middle, ← List.map_append,
        List.nodup_cons] at distinct
      exact fun other inside same => distinct.1 (same ▸ List.mem_map_of_mem inside)
    constructor
    · intro key
      have order := congrArg List.reverse (h.inOrder key)
      have erased := @filter_eraseP _ (QueueTicket.writes key) _ _ _ (h.newest ticket member)
      apply List.reverse_injective
      simp only [writersOf, parts, List.filter_append, List.filter_reverse, List.reverse_reverse,
        List.reverse_append] at order ⊢
      rw [erased, ← order]
      by_cases mine : ticket.writes key = true
      · -- no waiting ticket behind the cancelled one has its id
        have none_later : ∀ other ∈ (later.filter (QueueTicket.writes key)).reverse,
            ¬decide (other.id = ticket.id) = true := by
          intro other inside
          rw [List.mem_reverse, List.mem_filter] at inside
          rw [decide_eq_true_iff]
          exact alone other (List.mem_append_right _ inside.1)
        simp only [if_pos mine, List.filter_cons_of_pos mine, List.reverse_cons, List.append_assoc]
        rw [List.eraseP_append_right _ none_later, List.singleton_append,
          List.eraseP_cons_of_pos (by simp)]
      · rw [if_neg mine, List.filter_cons_of_neg mine, List.append_assoc]
    · intro other inside
      rw [find?_eraseP ?_]
      · exact h.newest other (fewer.subset inside)
      · intro value same
        rw [decide_eq_true_iff] at same
        rw [decide_eq_false_iff_not, same]
        exact alone other inside
    · exact (fewer.map _).nodup h.distinct
    · exact ⟨h.seated.writers, h.seated.alone, h.seated.listed, h.seated.flown⟩

theorem Recorded.takeStartable (h : history.Recorded) :
    (history.apply .takeStartable).Recorded := by
  unfold apply Queue.takeStartable
  have waits := history.queue.scan_waits history.queue.pending
  obtain ⟨flying, seated, same⟩ := h.seated.scan history.queue.pending
  constructor
  · intro key
    have before := h.inOrder key
    have pass := history.queue.writersOf_scan key history.queue.pending
    simp only [writersOf] at before pass ⊢
    rw [List.filter_append, List.append_assoc, pass, before]
  · intro ticket member
    exact h.newest ticket (waits.subset member)
  · exact (waits.map _).nodup h.distinct
  · have held := seated.of_mem same
    exact ⟨held.writers, held.alone, held.listed, held.flown⟩

theorem Recorded.release (h : history.Recorded) (id : String) :
    (history.apply (.release id)).Recorded := by
  unfold apply
  constructor
  · intro key
    simp only [Queue.release_pending]
    exact h.inOrder key
  · intro ticket member
    rw [Queue.release_pending] at member
    exact h.newest ticket member
  · simp only [Queue.release_pending]
    exact h.distinct
  · exact h.seated.release id

theorem Recorded.apply (h : history.Recorded) (call : QueueCall J) :
    (history.apply call).Recorded := by
  cases call with
  | enqueue id actor repositoryId mode job => exact h.enqueue id actor repositoryId mode job
  | cancel id => exact h.cancel id
  | takeStartable => exact h.takeStartable
  | release id => exact h.release id

theorem Recorded.apart_iff (h : history.Recorded) (apart : Apart history.inFlight)
    (call : QueueCall J) : Apart (history.apply call).inFlight ↔ history.StartsApart call := by
  cases call with
  | enqueue id actor repositoryId mode job => exact iff_of_true apart trivial
  | cancel id => exact iff_of_true apart trivial
  | takeStartable => exact Queue.apart_scan_iff h.seated apart history.queue.pending
  | release id =>
    refine iff_of_true ?_ trivial
    intro writer writes reader reads
    exact apart writer (List.mem_of_mem_filter writes) reader (List.mem_of_mem_filter reads)

theorem recorded_after (limits : QueueLimits) (made : List (QueueCall J)) :
    (calls.after (start limits) made).Recorded :=
  calls.invariant Recorded (fun _ call held => held.apply call) (recorded_start limits) made

theorem apart_iff_starts_apart (h : history.Recorded) (apart : Apart history.inFlight)
    (made : List (QueueCall J)) :
    calls.Meets (fun history call => Apart (history.apply call).inFlight) history made ↔
      calls.Meets StartsApart history made := by
  induction made generalizing history with
  | nil => exact Iff.rfl
  | cons call rest ih =>
    simp only [Machine.Meets, h.apart_iff apart call]
    refine and_congr_right fun meets => ?_
    exact ih (h.apply call) ((h.apart_iff apart call).mpr meets)

/-- For every sequence of calls, whatever ids they name: the writers of a key start in the
order in which they were accepted, and a reader never runs beside a writer of its key, in
any state of the run, exactly if no pass of the run starts a writer beside a reader. -/
theorem queue_order_and_exclusion (limits : QueueLimits) (made : List (QueueCall J)) :
    (calls.after (start limits) made).InOrder ∧
      (calls.Meets (fun history call => Apart (history.apply call).inFlight) (start limits) made ↔
        calls.Meets StartsApart (start limits) made) :=
  ⟨(recorded_after limits made).inOrder,
    apart_iff_starts_apart (recorded_start limits) (by simp [Apart, start]) made⟩

/-- A reader starts, then a writer of its key: both run. -/
theorem writer_starts_beside_reader :
    let made : List (QueueCall Nat) :=
      [.enqueue "op_1" "owner" "repo/a" .read 1, .takeStartable,
        .enqueue "op_2" "owner" "repo/a" .write 2, .takeStartable]
    ¬Apart (calls.after (start {}) made).inFlight := by
  decide

end QueueHistory
end Refyard
