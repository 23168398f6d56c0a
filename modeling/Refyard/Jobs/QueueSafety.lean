import Mathlib.Data.Finset.Image
import Refyard.Foundation.Machine
import Refyard.Jobs.Queue

/-! The queue keeps its tables equal to what the running tickets say, over every
sequence of calls. -/
namespace Refyard

section
variable {J : Type}

def writersIn (running : List (QueueTicket J)) (key : String) : Nat :=
  running.countP fun ticket => ticket.mode = .write && ticket.repositoryId = key

def readersIn (running : List (QueueTicket J)) (key : String) : Nat :=
  running.countP fun ticket => ticket.mode = .read && ticket.repositoryId = key

def writerKeys (running : List (QueueTicket J)) : Finset String :=
  ((running.filter fun ticket => ticket.mode = .write).map QueueTicket.repositoryId).toFinset

def readerEntry (running : List (QueueTicket J)) (key : String) : Option Nat :=
  if readersIn running key = 0 then none else some (readersIn running key)

theorem mem_writerKeys {running : List (QueueTicket J)} {key : String} :
    key ∈ writerKeys running ↔ writersIn running key ≠ 0 := by
  unfold writerKeys writersIn
  rw [List.mem_toFinset, Nat.ne_zero_iff_zero_lt, List.countP_pos_iff]
  simp [and_assoc]

variable {first second : List (QueueTicket J)} (ticket : QueueTicket J)

theorem writersIn_perm (h : first.Perm second) (key : String) :
    writersIn first key = writersIn second key :=
  h.countP_eq _

theorem readersIn_perm (h : first.Perm second) (key : String) :
    readersIn first key = readersIn second key :=
  h.countP_eq _

theorem writersIn_cons (running : List (QueueTicket J)) (key : String) :
    writersIn (ticket :: running) key =
      writersIn running key + if ticket.mode = .write ∧ ticket.repositoryId = key then 1 else 0 := by
  simp [writersIn, List.countP_cons]

theorem readersIn_cons (running : List (QueueTicket J)) (key : String) :
    readersIn (ticket :: running) key =
      readersIn running key + if ticket.mode = .read ∧ ticket.repositoryId = key then 1 else 0 := by
  simp [readersIn, List.countP_cons]

theorem readerEntry_getD (running : List (QueueTicket J)) (key : String) :
    (readerEntry running key).getD 0 = readersIn running key := by
  unfold readerEntry
  split <;> simp_all

end

namespace Queue

variable {J : Type}

/-- The queue's tables are those of the tickets it runs, and every limit holds of them. -/
structure Valid (queue : Queue J) : Prop where
  writers : ∀ key, key ∈ queue.writers ↔ writersIn queue.running.values key ≠ 0
  readers : ∀ key, queue.readers[key]? = readerEntry queue.running.values key
  oneWriter : ∀ key, writersIn queue.running.values key ≤ 1
  fewReaders : ∀ key, readersIn queue.running.values key ≤ queue.limits.maxReadersPerRepository
  fewRunning : queue.running.size ≤ queue.limits.maxGlobalGitProcesses

variable {queue : Queue J} {ticket : QueueTicket J} {id : String}

theorem Valid.withPending (valid : queue.Valid) (pending : List (QueueTicket J)) :
    Valid { queue with pending := pending } :=
  { valid with }

variable (limits : QueueLimits) {key : String} {tickets : List (QueueTicket J)}

theorem valid_new : (new limits : Queue J).Valid := by
  constructor <;> simp [new, writersIn, readersIn, readerEntry, ← Table.length_values]

theorem Valid.readersOf_eq (valid : queue.Valid) (key : String) :
    queue.readersOf key = readersIn queue.running.values key := by
  unfold readersOf
  rw [valid.readers, readerEntry_getD]

@[simp] theorem occupy_running (queue : Queue J) (ticket : QueueTicket J) :
    (queue.occupy ticket).running = queue.running.insert ticket := by
  unfold occupy
  split <;> rfl

@[simp] theorem occupy_limits (queue : Queue J) (ticket : QueueTicket J) :
    (queue.occupy ticket).limits = queue.limits := by
  unfold occupy
  split <;> rfl

theorem mem_occupy_writers : key ∈ (queue.occupy ticket).writers ↔
      key ∈ queue.writers ∨ (ticket.mode = .write ∧ ticket.repositoryId = key) := by
  unfold occupy
  cases hmode : ticket.mode with
  | write => simp [Finset.mem_insert, or_comm, eq_comm]
  | read => simp

theorem occupy_readers (queue : Queue J) (ticket : QueueTicket J) (key : String) :
    (queue.occupy ticket).readers[key]? =
      if ticket.mode = .read ∧ ticket.repositoryId = key then some (queue.readersOf key + 1)
      else queue.readers[key]? := by
  unfold occupy
  cases hmode : ticket.mode with
  | write => simp
  | read =>
    simp only [Std.ExtTreeMap.getElem?_insert, Std.compare_eq_iff_eq, true_and]
    split
    · rename_i same
      rw [same]
    · rfl

theorem readersOf_le_occupy (queue : Queue J) (ticket : QueueTicket J) (key : String) :
    queue.readersOf key ≤ (queue.occupy ticket).readersOf key := by
  rw [readersOf.eq_1 (queue.occupy ticket), occupy_readers]
  split
  · simp
  · exact Nat.le_refl _

theorem canStart_iff :
    queue.canStart ticket = true ↔ queue.running.size < queue.limits.maxGlobalGitProcesses ∧
        ticket.repositoryId ∉ queue.writers ∧ (ticket.mode = .read →
          queue.readersOf ticket.repositoryId < queue.limits.maxReadersPerRepository) := by
  unfold canStart
  split
  · rename_i full
    simp [Nat.not_lt.mpr full]
  · rename_i room
    rw [Nat.not_le] at room
    cases hmode : ticket.mode <;> simp [room]

theorem Valid.writer_unique (valid : queue.Valid) {first second : QueueTicket J}
    (runs : queue.running.get? first.id = some first)
    (also : queue.running.get? second.id = some second) (write : first.mode = .write)
    (writes : second.mode = .write) (same : second.repositoryId = first.repositoryId) :
    first = second := by
  by_contra differ
  have others := Table.values_erase_perm runs
  have single := valid.oneWriter first.repositoryId
  rw [writersIn_perm others, writersIn_cons, if_pos ⟨write, rfl⟩] at single
  have member : second ∈ (queue.running.erase first.id).values :=
    (List.mem_cons.mp (others.subset (Table.mem_values_of_get? also))).resolve_left (Ne.symm differ)
  have counted : 0 < writersIn (queue.running.erase first.id).values first.repositoryId :=
    List.countP_pos_iff.mpr ⟨second, member, by simp [writes, same]⟩
  omega

theorem Valid.occupy (valid : queue.Valid) (free : queue.running.get? ticket.id = none)
    (allowed : queue.canStart ticket = true) : (queue.occupy ticket).Valid := by
  obtain ⟨room, unwritten, seat⟩ := canStart_iff.mp allowed
  have entry := Table.values_insert_perm free
  have quiet : writersIn queue.running.values ticket.repositoryId = 0 :=
    of_not_not fun h => unwritten ((valid.writers _).mpr h)
  constructor
  · intro key
    rw [mem_occupy_writers, valid.writers, occupy_running, writersIn_perm entry, writersIn_cons]
    split <;> simp_all
  · intro key
    rw [occupy_readers, occupy_running, valid.readers, valid.readersOf_eq]
    unfold readerEntry
    rw [readersIn_perm entry, readersIn_cons]
    split <;> simp
  · intro key
    rw [occupy_running, writersIn_perm entry, writersIn_cons]
    have held := valid.oneWriter key
    split
    · rename_i same
      rw [← same.2, quiet]
    · omega
  · intro key
    rw [occupy_running, occupy_limits, readersIn_perm entry, readersIn_cons]
    have held := valid.fewReaders key
    split
    · rename_i same
      have seated := seat same.1
      rw [valid.readersOf_eq, same.2] at seated
      omega
    · omega
  · rw [occupy_running, occupy_limits, Table.size_insert free]
    omega

theorem canStart_of_occupy {other : QueueTicket J} (free : queue.running.get? ticket.id = none)
    (h : (queue.occupy ticket).canStart other = true) : queue.canStart other = true := by
  rw [canStart_iff] at h ⊢
  obtain ⟨room, unwritten, seat⟩ := h
  rw [occupy_running, occupy_limits, Table.size_insert free] at room
  refine ⟨by omega, fun held => unwritten (mem_occupy_writers.mpr (.inl held)), fun hread => ?_⟩
  have seated := seat hread
  rw [occupy_limits] at seated
  exact Nat.lt_of_le_of_lt (readersOf_le_occupy queue ticket _) seated

theorem release_of_idle (h : queue.running.get? id = none) : queue.release id = queue := by
  unfold release
  rw [h]

theorem release_of_running (held : queue.running.get? id = some ticket) :
    queue.release id = vacate { queue with running := queue.running.erase id } ticket := by
  unfold release
  rw [held]

theorem vacate_frame (queue : Queue J) (ticket : QueueTicket J) :
    (queue.vacate ticket).limits = queue.limits ∧ (queue.vacate ticket).pending = queue.pending ∧
      (queue.vacate ticket).running = queue.running := by
  unfold vacate
  split <;> exact ⟨rfl, rfl, rfl⟩

@[simp] theorem release_limits (queue : Queue J) (id : String) :
    (queue.release id).limits = queue.limits := by
  unfold release
  split
  · rfl
  · exact (vacate_frame _ _).1

@[simp] theorem release_pending (queue : Queue J) (id : String) :
    (queue.release id).pending = queue.pending := by
  unfold release
  split
  · rfl
  · exact (vacate_frame _ _).2.1

@[simp] theorem release_running (queue : Queue J) (id : String) :
    (queue.release id).running = queue.running.erase id := by
  unfold release
  split
  · rename_i idle
    ext1 name
    rw [Table.get?_erase]
    split
    · rename_i same
      rw [same, idle]
    · rfl
  · exact (vacate_frame _ _).2.2

theorem mem_release_writers (held : queue.running.get? id = some ticket) :
    key ∈ (queue.release id).writers ↔
      key ∈ queue.writers ∧ ¬(ticket.mode = .write ∧ ticket.repositoryId = key) := by
  rw [release_of_running held]
  unfold vacate
  cases hmode : ticket.mode with
  | write => simp [Finset.mem_erase, and_comm, eq_comm]
  | read => simp

theorem release_readers (held : queue.running.get? id = some ticket) (key : String) :
    (queue.release id).readers[key]? = if ticket.mode = .read ∧ ticket.repositoryId = key then
        if queue.readersOf key ≤ 1 then none else some (queue.readersOf key - 1)
      else queue.readers[key]? := by
  have same : ∀ name, readersOf { queue with running := queue.running.erase id } name =
      queue.readersOf name := fun _ => rfl
  rw [release_of_running held]
  unfold vacate
  cases hmode : ticket.mode with
  | write => simp
  | read =>
    simp only [same, true_and]
    by_cases hkey : ticket.repositoryId = key
    · rw [if_pos hkey, hkey]
      split <;> simp
    · rw [if_neg hkey]
      split
      · rw [Std.ExtTreeMap.getElem?_erase, if_neg (by rwa [Std.compare_eq_iff_eq])]
      · rw [Std.ExtTreeMap.getElem?_insert, if_neg (by rwa [Std.compare_eq_iff_eq])]

theorem Valid.release (valid : queue.Valid) (id : String) : (queue.release id).Valid := by
  cases held : queue.running.get? id with
  | none => rwa [release_of_idle held]
  | some ticket =>
    have entry := Table.values_erase_perm held
    have writersBefore := fun key => (writersIn_perm entry key).trans (writersIn_cons _ _ key)
    have readersBefore := fun key => (readersIn_perm entry key).trans (readersIn_cons _ _ key)
    constructor
    · intro key
      rw [mem_release_writers held, valid.writers, release_running]
      have before := writersBefore key
      have single := valid.oneWriter key
      split at before <;> simp_all
    · intro key
      rw [release_readers held, valid.readersOf_eq, valid.readers, release_running]
      have before := readersBefore key
      unfold readerEntry
      split
      · rename_i mine
        split <;> split <;> first | rfl | omega | simp_all
      · rename_i other
        rw [if_neg other] at before
        rw [before, Nat.add_zero]
    · intro key
      rw [release_running]
      have single := valid.oneWriter key
      have before := writersBefore key
      omega
    · intro key
      rw [release_running, release_limits]
      have few := valid.fewReaders key
      have before := readersBefore key
      omega
    · rw [release_running, release_limits]
      have few := valid.fewRunning
      have shrunk := Table.size_erase held
      omega

structure Fresh (queue : Queue J) (tickets : List (QueueTicket J)) : Prop where
  distinct : (tickets.map QueueTicket.id).Nodup
  idle : ∀ ticket ∈ tickets, queue.running.get? ticket.id = none

theorem Fresh.sublist {fewer : List (QueueTicket J)} (fresh : queue.Fresh tickets)
    (h : fewer.Sublist tickets) : queue.Fresh fewer where
  distinct := (h.map _).nodup fresh.distinct
  idle := fun ticket member => fresh.idle ticket (h.subset member)

theorem Fresh.occupy {rest : List (QueueTicket J)} (fresh : queue.Fresh (ticket :: rest)) :
    (queue.occupy ticket).Fresh rest := by
  obtain ⟨absent, distinct⟩ := List.nodup_cons.mp fresh.distinct
  refine ⟨distinct, fun other member => ?_⟩
  have differ : other.id ≠ ticket.id := fun same =>
    absent (same ▸ List.mem_map_of_mem member)
  rw [occupy_running, Table.get?_insert_of_ne differ]
  exact fresh.idle other (List.mem_cons_of_mem _ member)

structure Scanned (queue : Queue J) (tickets started waiting : List (QueueTicket J))
    (final : Queue J) : Prop where
  parts : (started ++ waiting).Perm tickets
  waits : waiting.Sublist tickets
  limits : final.limits = queue.limits
  valid : final.Valid
  running : final.running.values.Perm (started ++ queue.running.values)
  startable : ∀ ticket ∈ started, queue.canStart ticket = true
  narrower : ∀ ticket, final.canStart ticket = true → queue.canStart ticket = true
  stuck : ∀ ticket ∈ waiting, final.canStart ticket = false

theorem scan_spec (valid : queue.Valid) (fresh : queue.Fresh tickets) :
    Scanned queue tickets (queue.scan tickets).1 (queue.scan tickets).2.1
      (queue.scan tickets).2.2 := by
  induction tickets generalizing queue with
  | nil =>
    exact ⟨.refl _, .refl _, rfl, valid, .refl _, by simp [scan], fun _ h => h, by simp [scan]⟩
  | cons ticket rest ih =>
    unfold scan
    have free := fresh.idle ticket List.mem_cons_self
    by_cases allowed : queue.canStart ticket = true
    · have tail := ih (valid.occupy free allowed) fresh.occupy
      rw [if_pos allowed]
      have moved : (queue.occupy ticket).running.values.Perm (ticket :: queue.running.values) := by
        rw [occupy_running]
        exact Table.values_insert_perm free
      exact {
        parts := tail.parts.cons _
        waits := tail.waits.cons _
        limits := tail.limits.trans (occupy_limits _ _)
        valid := tail.valid
        running := tail.running.trans ((moved.append_left _).trans List.perm_middle)
        startable := by
          intro other member
          rcases List.mem_cons.mp member with rfl | member
          · exact allowed
          · exact canStart_of_occupy free (tail.startable other member)
        narrower := fun other h => canStart_of_occupy free (tail.narrower other h)
        stuck := tail.stuck }
    · have tail := ih valid (fresh.sublist (List.sublist_cons_self _ _))
      rw [if_neg allowed]
      exact { tail with
        parts := List.perm_middle.trans (tail.parts.cons _)
        waits := tail.waits.cons_cons _
        stuck := by
          intro other member
          rcases List.mem_cons.mp member with rfl | member
          · exact Bool.eq_false_iff.mpr fun h => allowed (tail.narrower _ h)
          · exact tail.stuck other member }

structure Sound (queue : Queue J) : Prop extends queue.Valid where
  fresh : queue.Fresh queue.pending

theorem sound_new : (new limits : Queue J).Sound :=
  ⟨valid_new limits, by simp [new], by simp [new]⟩

/-- What `take_startable` does to a sound queue. -/
structure Taken (queue : Queue J) (started : List (QueueTicket J)) (next : Queue J) : Prop where
  parts : (started ++ next.pending).Perm queue.pending
  waits : next.pending.Sublist queue.pending
  limits : next.limits = queue.limits
  sound : next.Sound
  running : next.running.values.Perm (started ++ queue.running.values)
  startable : ∀ ticket ∈ started, queue.canStart ticket = true
  stuck : ∀ ticket ∈ next.pending, next.canStart ticket = false

theorem takeStartable_spec (sound : queue.Sound) :
    Taken queue queue.takeStartable.1 queue.takeStartable.2 := by
  have scanned := scan_spec sound.toValid sound.fresh
  refine ⟨scanned.parts, scanned.waits, scanned.limits, ⟨scanned.valid.withPending _, ?_⟩,
    scanned.running, scanned.startable, scanned.stuck⟩
  -- a waiting ticket shares its id neither with a started one nor with a running one
  have distinct := ((scanned.parts.map QueueTicket.id).nodup_iff).mpr sound.fresh.distinct
  rw [List.map_append, List.nodup_append] at distinct
  refine ⟨distinct.2.1, fun ticket member => ?_⟩
  refine Option.eq_none_iff_forall_ne_some.mpr fun other held => ?_
  have same := Table.key_of_get? held
  rcases List.mem_append.mp (scanned.running.mem_iff.mp (Table.mem_values_of_get? held)) with
    began | ran
  · exact distinct.2.2 _ (List.mem_map_of_mem began) _ (List.mem_map_of_mem member) same
  · rw [Table.mem_values, same, sound.fresh.idle ticket (scanned.waits.subset member)] at ran
    contradiction

theorem enqueue_cases (queue : Queue J) (id actor repositoryId : String) (mode : QueueMode)
    (job : J) :
    (∃ refusal, queue.enqueue id actor repositoryId mode job = (.error refusal, queue)) ∨
    (∃ ticket : QueueTicket J, ticket.id = id ∧ ticket.actor = actor ∧
      ticket.repositoryId = repositoryId ∧ ticket.mode = mode ∧ ticket.job = job ∧
      (∀ other ∈ queue.pending, other.id ≠ id) ∧ queue.enqueue id actor repositoryId mode job =
        (.ok ticket, { queue with pending := queue.pending ++ [ticket] })) := by
  unfold enqueue
  split
  · exact .inl ⟨_, rfl⟩
  · split
    · exact .inl ⟨_, rfl⟩
    · rename_i absent
      exact .inr ⟨_, rfl, rfl, rfl, rfl, rfl, by simpa using absent, rfl⟩

theorem enqueue_refused {actor repositoryId : String} {mode : QueueMode} {job : J}
    {refusal : EnqueueRefusal}
    (h : (queue.enqueue id actor repositoryId mode job).1 = .error refusal) :
    queue.limits.maxQueuedPerActor ≤ queue.depthFor actor ∨
      ∃ ticket ∈ queue.pending, ticket.id = id := by
  unfold enqueue at h
  split at h
  · rename_i full
    exact .inl full
  · split at h
    · rename_i waits
      exact .inr (by simpa using waits)
    · cases h

theorem cancel_cases (queue : Queue J) (id : String) :
    ((∀ ticket ∈ queue.pending, ticket.id ≠ id) ∧ queue.cancel id = (false, queue)) ∨
    (∃ before ticket after, queue.pending = before ++ ticket :: after ∧ ticket.id = id ∧
      queue.cancel id = (true, { queue with pending := before ++ after })) := by
  unfold cancel
  split
  · rename_i waits
    obtain ⟨waiting, member, same⟩ := List.any_eq_true.mp waits
    obtain ⟨ticket, before, after, _, found, parts, erased⟩ :=
      @List.exists_of_eraseP _ (fun ticket : QueueTicket J => ticket.id = id) _ _ member same
    exact .inr ⟨before, ticket, after, parts, by simpa using found, by rw [erased]⟩
  · rename_i absent
    exact .inl ⟨by simpa using absent, rfl⟩

theorem Sound.joined (sound : queue.Sound) (idle : queue.running.get? ticket.id = none)
    (absent : ∀ other ∈ queue.pending, other.id ≠ ticket.id) :
    Sound { queue with pending := queue.pending ++ [ticket] } := by
  refine ⟨sound.toValid.withPending _, ?_, ?_⟩
  · rw [List.map_append, List.nodup_append]
    refine ⟨sound.fresh.distinct, List.nodup_singleton _, ?_⟩
    intro id member other single same
    obtain ⟨held, memberHeld, rfl⟩ := List.mem_map.mp member
    exact absent held memberHeld (same.trans (by simpa using single))
  · intro other member
    rcases List.mem_append.mp member with member | single
    · exact sound.fresh.idle other member
    · rw [List.mem_singleton.mp single]
      exact idle

theorem Sound.fewer (sound : queue.Sound) {pending : List (QueueTicket J)}
    (h : pending.Sublist queue.pending) : Sound { queue with pending := pending } :=
  ⟨sound.toValid.withPending _, (sound.fresh.sublist h).distinct, (sound.fresh.sublist h).idle⟩

theorem Sound.release (sound : queue.Sound) (id : String) : (queue.release id).Sound := by
  refine ⟨sound.toValid.release id, ?_, ?_⟩
  · rw [release_pending]
    exact sound.fresh.distinct
  · intro ticket member
    rw [release_pending] at member
    rw [release_running, Table.get?_erase]
    split
    · rfl
    · exact sound.fresh.idle ticket member

end Queue
end Refyard
