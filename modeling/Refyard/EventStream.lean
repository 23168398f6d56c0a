import Refyard.EventDelivery

/-! The event stream of one client: a replay from the ring, then live frames. The
subscription and the replay are two looks at the sink, and publishers may draw and send
before, between and after them. -/
namespace Refyard

inductive Hint where
  | operation (operation : OperationRecord)
  | repositoryChanged (repositoryId : String) (worktreeIds : List String)
      (snapshotInvalidated : Bool)

def Hint.payload : Hint → EventPayload
  | .operation record => .operation record
  | .repositoryChanged repositoryId worktreeIds snapshotInvalidated =>
      .repositoryChanged repositoryId worktreeIds snapshotInvalidated

namespace EventPayload

def kind : EventPayload → String
  | .operation .. => "operation"
  | .repositoryChanged .. => "repositoryChanged"
  | .eventGap .. => "eventGap"
  | .session .. => "session"

def isGap : EventPayload → Bool
  | .eventGap .. => true
  | _ => false

def Covers (sequence : Nat) : EventPayload → Prop
  | .eventGap first last => first ≤ sequence ∧ sequence ≤ last
  | _ => False

end EventPayload

/-- What is written to the client. The data of an event frame is its envelope as one line. -/
inductive Frame where
  | event (id : Nat) (event : String) (data : EventEnvelope)
  | retry (millis : Nat)
  | comment (text : String)

def retryMillis : Nat := 3000

def frame (envelope : EventEnvelope) : Frame :=
  .event envelope.sequence envelope.payload.kind envelope

def gapEnvelope (now : String) (first last : Nat) : EventEnvelope where
  sequence := last
  emittedAt := now
  payload := .eventGap first last

/-- Where a reader stands: at a sequence it was sent, or at the cursor it came with. A cursor
is the client's own number and keeps its 64 bits. -/
inductive Standing where
  | sequence (sequence : Nat)
  | cursor (since : UInt64)

namespace Standing

def toNat : Standing → Nat
  | .sequence number => number
  | .cursor since => since.toNat

def next : Standing → Nat
  | .sequence number => number + 1
  | .cursor since => (since + 1).toNat

theorem next_le (standing : Standing) : standing.next ≤ standing.toNat + 1 := by
  cases standing with
  | sequence number => exact Nat.le_refl _
  | cursor since =>
    exact Nat.mod_le _ _

end Standing

structure EventStream where
  since : Option UInt64
  subscription : BroadcastReader EventEnvelope
  replayed : Bool := false
  waiting : List Frame := []
  sent : List Frame := []
  delivered : Standing := .cursor 0
  pendingGapFrom : Option Standing := none
  gone : Bool := false

structure EventStreams where
  live : LiveEvents
  streams : List EventStream := []

namespace EventStream

def standing (since : Option UInt64) (replay : List EventEnvelope) : Standing :=
  match replay.getLast? with
  | some envelope => .sequence envelope.sequence
  | none =>
      match since with
      | some since => .cursor since
      | none => .cursor 0

/-- The rest of `response` after the subscription: the replay is taken, and the task is
spawned that writes it and the reconnect hint. -/
def takeReplay (sink : EventSink) (now : String) (stream : EventStream) : EventStream :=
  if stream.replayed then stream
  else
    let replay := sink.replay now stream.since
    { stream with
      replayed := true
      waiting := replay.map frame ++ [.retry retryMillis]
      delivered := standing stream.since replay }

/-- The frames of a received envelope: what was lost before it is named first. -/
def framesFor (now : String) (pendingGapFrom : Option Standing) (envelope : EventEnvelope) :
    List Frame :=
  match pendingGapFrom with
  | some standing =>
      if envelope.sequence > standing.next then
        [frame (gapEnvelope now standing.next (envelope.sequence - 1)), frame envelope]
      else [frame envelope]
  | none => [frame envelope]

def receive (now : String) (stream : EventStream) : SubscriberEvent → EventStream
  | .event envelope =>
      { stream with
        waiting := framesFor now stream.pendingGapFrom envelope
        pendingGapFrom := none
        delivered := .sequence envelope.sequence }
  | .missed _ =>
      { stream with pendingGapFrom := some (stream.pendingGapFrom.getD stream.delivered) }

/-- The task goes on: it writes what waits, and asks for the next event when nothing does. -/
def advance (tokio : Broadcasting EventEnvelope) (channel : Broadcast EventEnvelope) (now : String)
    (stream : EventStream) : EventStream :=
  if stream.gone ∨ !stream.replayed then stream
  else
    match stream.waiting with
    | next :: waiting => { stream with waiting, sent := stream.sent ++ [next] }
    | [] =>
        match tokio.recv channel stream.subscription with
        | (none, _) => stream
        | (some answer, subscription) =>
            { stream with subscription }.receive now (.ofReceived answer)

def heartbeat (stream : EventStream) : EventStream :=
  if stream.gone ∨ !stream.replayed then stream
  else
    match stream.waiting with
    | _ :: _ => stream
    | [] => { stream with waiting := [.comment "keep-alive"] }

end EventStream

inductive StreamStep where
  | draw (publisher : Nat) (hint : Hint) (now : String)
  | send (publisher : Nat)
  | subscribe (since : Option UInt64)
  | replay (stream : Nat) (now : String)
  | advance (stream : Nat) (now : String)
  | heartbeat (stream : Nat)
  | hangUp (stream : Nat)

namespace EventStreams

def withLimits (maxEvents maxBytes depth : Nat) : EventStreams where
  live := LiveEvents.withLimits maxEvents maxBytes depth

def onStream (state : EventStreams) (stream : Nat) (change : EventStream → EventStream) :
    EventStreams :=
  { state with streams := state.streams.modify stream change }

def streaming (tokio : Broadcasting EventEnvelope) (encodedLength : EventEnvelope → Nat) :
    Machine EventStreams StreamStep Unit where
  step state input :=
    (match input with
      | .draw publisher hint now =>
          { state with live := state.live.draw encodedLength publisher hint.payload now }
      | .send publisher => { state with live := state.live.send tokio publisher }
      | .subscribe since =>
          { state with streams := state.streams ++
            [{ since, subscription := tokio.subscribe state.live.channel }] }
      | .replay stream now => state.onStream stream (.takeReplay state.live.sink now)
      | .advance stream now => state.onStream stream (.advance tokio state.live.channel now)
      | .heartbeat stream => state.onStream stream .heartbeat
      | .hangUp stream => state.onStream stream fun stream => { stream with gone := true },
      ())

end EventStreams

namespace EventSink

/-- An answer to a cursor is a notice, or none, and then the newest events without a hole.
The notice ends where they begin, and it begins at the cursor at the latest. -/
theorem Newest.replay_cases {sink : EventSink} (h : sink.Newest) (now : String) (since : UInt64) :
    ∃ notice events first, sink.replay now (some since) = notice ++ events ∧
      events.Sublist sink.events ∧ (∀ envelope ∈ events, (since + 1).toNat ≤ envelope.sequence) ∧
      events.map EventEnvelope.sequence = List.range' first events.length ∧
      sink.sequence < first + events.length ∧ (notice = [] ∧ first ≤ since.toNat + 1 ∨
        ∃ start, notice = [sink.gap now start (first - 1)] ∧ start ≤ since.toNat + 1) := by
  have succ := (Standing.cursor since).next_le
  simp only [Standing.next, Standing.toNat] at succ
  have counted := h.counted
  unfold replay
  cases parts : sink.events.head? with
  | none =>
    dsimp only
    split
    · exact ⟨[_], [], sink.sequence + 1, rfl, List.nil_sublist _, by simp, rfl,
        Nat.lt_succ_self _, .inr ⟨_, rfl, succ⟩⟩
    · rename_i ahead
      exact ⟨[], [], sink.sequence + 1, rfl, List.nil_sublist _, by simp, rfl,
        Nat.lt_succ_self _, .inl ⟨rfl, by omega⟩⟩
  | some oldest =>
    obtain ⟨start, some_event⟩ := h.oldest parts
    dsimp only
    split
    · rename_i evicted
      refine ⟨[_], sink.events, oldest.sequence, rfl, List.Sublist.refl _, ?_, ?_, by omega,
        .inr ⟨_, rfl, succ⟩⟩
      · intro envelope member
        have held := List.mem_map_of_mem (f := EventEnvelope.sequence) member
        rw [h.consecutive, List.mem_range'_1] at held
        omega
      · rw [h.consecutive, start]
    · rename_i inside
      have behind := h.behind since.toNat
      have counts := congrArg List.length behind
      rw [List.length_map, List.length_range'] at counts
      refine ⟨[], _, max (sink.sequence - sink.events.length + 1) (since.toNat + 1), rfl,
        List.filter_sublist, ?_, ?_, ?_, .inl ⟨rfl, ?_⟩⟩
      · intro envelope member
        have later := of_decide_eq_true (List.mem_filter.mp member).2
        omega
      · rw [behind, counts]
      · rw [counts]
        omega
      · omega

end EventSink

namespace Frame

def sequence? : Frame → Option Nat
  | .event _ _ data => if data.payload.isGap then none else some data.sequence
  | _ => none

def Covers (sequence : Nat) : Frame → Prop
  | .event _ _ data => data.payload.Covers sequence
  | _ => False

end Frame

def sequences (frames : List Frame) : List Nat := frames.filterMap Frame.sequence?

namespace EventStream

/-- The sequence a stream starts behind: its cursor, or what was on the channel before. -/
def base (stream : EventStream) : Nat :=
  match stream.since with
  | some since => since.toNat
  | none => stream.subscription.start

def Told (frames : List Frame) (sequence : Nat) : Prop :=
  sequence ∈ sequences frames ∨ ∃ notice ∈ frames, notice.Covers sequence

/-- Each event once and in order, and before each event all that lies behind it. -/
structure InOrder (base : Nat) (frames : List Frame) : Prop where
  increasing : (sequences frames).Pairwise (· < ·)
  complete : ∀ before last after, frames = before ++ last :: after →
    ∀ newest, last.sequence? = some newest →
      ∀ sequence, base < sequence → sequence < newest → Told before sequence

def Faithful (stream : EventStream) : Prop := InOrder stream.base stream.sent

section
variable {base : Nat} {frames more : List Frame}

theorem sequences_append (frames more : List Frame) :
    sequences (frames ++ more) = sequences frames ++ sequences more := List.filterMap_append

theorem Told.append {sequence : Nat} (h : Told frames sequence) (more : List Frame) :
    Told (frames ++ more) sequence := by
  cases h with
  | inl sent =>
    left
    rw [sequences_append]
    exact List.mem_append_left _ sent
  | inr noticed =>
    obtain ⟨notice, member, covers⟩ := noticed
    exact .inr ⟨notice, List.mem_append_left _ member, covers⟩

variable {last : Frame} {events : List EventEnvelope}

theorem concat_eq_split {final : Frame} {before after : List Frame}
    (parts : frames ++ [final] = before ++ last :: after) :
    (frames = before ∧ final = last) ∨ ∃ rest, frames = before ++ last :: rest := by
  cases List.eq_nil_or_concat' after with
  | inl empty =>
    rw [empty] at parts
    left
    exact ⟨List.append_inj_left' parts rfl, List.singleton_inj.mp (List.append_inj_right' parts rfl)⟩
  | inr concat =>
    obtain ⟨rest, _, rfl⟩ := concat
    rw [← List.cons_append, ← List.append_assoc] at parts
    exact .inr ⟨rest, List.append_inj_left' parts rfl⟩

theorem inOrder_nil (base : Nat) : InOrder base [] := by
  constructor
  · exact List.Pairwise.nil
  · intro before last after parts
    simp at parts

theorem InOrder.front (h : InOrder base (frames ++ more)) : InOrder base frames := by
  constructor
  · have increasing := h.increasing
    rw [sequences_append] at increasing
    exact (List.pairwise_append.mp increasing).1
  · intro before last after parts
    apply h.complete before last (after ++ more)
    rw [parts, List.append_assoc, List.cons_append]

theorem InOrder.concat_other (h : InOrder base frames) {other : Frame}
    (silent : other.sequence? = none) : InOrder base (frames ++ [other]) := by
  constructor
  · rw [sequences_append]
    simpa [sequences, silent] using h.increasing
  · intro before last after parts newest held
    obtain ⟨-, rfl⟩ | ⟨rest, earlier⟩ := concat_eq_split parts
    · rw [silent] at held
      cases held
    · exact h.complete before last rest earlier newest held

theorem InOrder.concat_event (h : InOrder base frames) {newest : Nat}
    (event : last.sequence? = some newest)
    (above : ∀ sequence ∈ sequences frames, sequence < newest)
    (told : ∀ sequence, base < sequence → sequence < newest → Told frames sequence) :
    InOrder base (frames ++ [last]) := by
  constructor
  · rw [sequences_append, List.pairwise_append]
    refine ⟨h.increasing, ?_, ?_⟩
    · simp [sequences, event]
    · intro sequence member other final
      simp only [sequences, List.filterMap_cons, event, List.filterMap_nil,
        List.mem_singleton] at final
      exact final ▸ above sequence member
  · intro before other after parts sequence held
    obtain ⟨rfl, rfl⟩ | ⟨rest, earlier⟩ := concat_eq_split parts
    · rw [event, Option.some_inj] at held
      exact held ▸ told
    · exact h.complete before other rest earlier sequence held

theorem sequence?_frame {envelope : EventEnvelope} (plain : envelope.payload.isGap = false) :
    (frame envelope).sequence? = some envelope.sequence := by
  simp [frame, Frame.sequence?, plain]

theorem sequences_frames (plain : ∀ envelope ∈ events, envelope.payload.isGap = false) :
    sequences (events.map frame) = events.map EventEnvelope.sequence := by
  induction events with
  | nil => rfl
  | cons envelope rest ih =>
    rw [List.forall_mem_cons] at plain
    rw [List.map_cons, sequences, List.filterMap_cons, sequence?_frame plain.1]
    exact congrArg _ (ih plain.2)

theorem InOrder.append_events (h : InOrder base frames) {first : Nat}
    (plain : ∀ envelope ∈ events, envelope.payload.isGap = false)
    (numbered : events.map EventEnvelope.sequence = List.range' first events.length)
    (above : ∀ sequence ∈ sequences frames, sequence < first)
    (told : ∀ sequence, base < sequence → sequence < first → Told frames sequence) :
    InOrder base (frames ++ events.map frame) := by
  induction events generalizing frames first with
  | nil => simpa using h
  | cons envelope rest ih =>
    rw [List.forall_mem_cons] at plain
    rw [List.map_cons, List.length_cons, List.range'_succ, List.cons.injEq] at numbered
    obtain ⟨rfl, numbered⟩ := numbered
    have event := sequence?_frame plain.1
    rw [List.map_cons, List.append_cons]
    apply ih (h.concat_event event above told) plain.2 numbered
    · intro sequence member
      rw [sequences_append, List.mem_append] at member
      cases member with
      | inl before => exact Nat.lt_succ_of_lt (above sequence before)
      | inr last =>
        simp only [sequences, List.filterMap_cons, event, List.filterMap_nil,
          List.mem_singleton] at last
        exact Nat.lt_succ_of_le (Nat.le_of_eq last)
    · intro sequence behind before
      by_cases last : sequence = envelope.sequence
      · left
        rw [sequences_append, last]
        exact List.mem_append_right _ (by simp [sequences, event])
      · exact (told sequence behind (by omega)).append _

theorem replay_inOrder {sink : EventSink} (h : sink.Newest) (now : String) (since : UInt64)
    (plain : ∀ envelope ∈ sink.events, envelope.payload.isGap = false) :
    let frames := (sink.replay now (some since)).map frame
    InOrder since.toNat frames ∧
      (∀ sequence, since.toNat < sequence → sequence ≤ sink.sequence → Told frames sequence) ∧
      (∀ sequence ∈ sequences frames, ∃ envelope ∈ sink.events,
        (since + 1).toNat ≤ envelope.sequence ∧ envelope.sequence = sequence) ∧
      ∀ envelope ∈ sink.replay now (some since), envelope.sequence ≤ sink.sequence := by
  intro frames
  obtain ⟨notice, events, first, answered, part, behind, numbered, whole, opening⟩ :=
    h.replay_cases now since
  have split : frames = notice.map frame ++ events.map frame := by
    simp only [frames, answered, List.map_append]
  have plain' : ∀ envelope ∈ events, envelope.payload.isGap = false := fun envelope member =>
    plain envelope (part.subset member)
  have silent : sequences (notice.map frame) = [] := by
    obtain ⟨rfl, -⟩ | ⟨start, rfl, -⟩ := opening <;> rfl
  have told : ∀ sequence, since.toNat < sequence → sequence < first →
      Told (notice.map frame) sequence := by
    intro sequence behind before
    obtain ⟨rfl, early⟩ | ⟨start, rfl, early⟩ := opening
    · omega
    · right
      refine ⟨_, List.mem_singleton_self _, ?_, ?_⟩
      · omega
      · omega
  have order : InOrder since.toNat (notice.map frame) := by
    obtain ⟨rfl, -⟩ | ⟨start, rfl, -⟩ := opening
    · exact inOrder_nil _
    · exact (inOrder_nil since.toNat).concat_other rfl
  refine ⟨?_, ?_, ?_, ?_⟩
  · rw [split]
    apply order.append_events plain' numbered
    · simp [silent]
    · exact told
  · intro sequence behind within
    rw [split]
    by_cases before : sequence < first
    · exact (told sequence behind before).append _
    · left
      rw [sequences_append, sequences_frames plain', numbered]
      apply List.mem_append_right
      rw [List.mem_range'_1]
      omega
  · intro sequence member
    rw [split, sequences_append, silent, List.nil_append, sequences_frames plain'] at member
    obtain ⟨envelope, listed, rfl⟩ := List.mem_map.mp member
    exact ⟨envelope, part.subset listed, behind envelope listed, rfl⟩
  · intro envelope member
    rw [answered, List.mem_append] at member
    cases member with
    | inl noticed =>
      obtain ⟨rfl, -⟩ | ⟨start, rfl, -⟩ := opening
      · cases noticed
      · cases List.mem_singleton.mp noticed
        exact Nat.le_refl _
    | inr listed =>
      have held := List.mem_map_of_mem (f := EventEnvelope.sequence) (part.subset listed)
      have counted := h.counted
      rw [h.consecutive, List.mem_range'_1] at held
      omega

end

/-- What a stream has decided to write, and what it knows of the sequences up to where its
subscription stands. -/
structure Sound (sent : List EventEnvelope) (stream : EventStream) : Prop where
  follows : stream.subscription.Follows sent
  idle : stream.replayed = false → stream.waiting = [] ∧ stream.sent = [] ∧
    stream.pendingGapFrom = none ∧ stream.subscription.cursor = stream.subscription.start
  order : InOrder stream.base (stream.sent ++ stream.waiting)
  passed : ∀ sequence ∈ sequences (stream.sent ++ stream.waiting),
    sequence ≤ stream.subscription.cursor
  told : stream.replayed = true → ∀ sequence, stream.base < sequence →
    sequence ≤ stream.subscription.cursor → Told (stream.sent ++ stream.waiting) sequence ∨
        stream.pendingGapFrom = some stream.delivered ∧ stream.delivered.toNat < sequence
  stands : stream.replayed = true → ∀ sequence, stream.base < sequence →
    sequence ≤ stream.delivered.toNat → Told (stream.sent ++ stream.waiting) sequence
  pending : ∀ standing, stream.pendingGapFrom = some standing → standing = stream.delivered

section
variable {sent : List EventEnvelope} {stream : EventStream}

theorem Sound.faithful (h : stream.Sound sent) : stream.Faithful := h.order.front

variable (tokio : Broadcasting EventEnvelope) {channel : Broadcast EventEnvelope}
  {envelope : EventEnvelope} {subscription : BroadcastReader EventEnvelope}

theorem sound_subscribe (since : Option UInt64) :
    Sound channel.sent { since, subscription := tokio.subscribe channel } where
  follows := tokio.follows_subscribe channel
  idle := by
    rw [tokio.subscribe_eq]
    exact fun _ => ⟨rfl, rfl, rfl, rfl⟩
  order := inOrder_nil _
  passed := by simp [sequences]
  told := fun h => by cases h
  stands := fun h => by cases h
  pending := fun _ h => by cases h

theorem Sound.send (h : stream.Sound channel.sent) (envelope : EventEnvelope) :
    stream.Sound (tokio.send channel envelope).sent :=
  { h with follows := tokio.follows_send h.follows envelope }

theorem Sound.hangUp (h : stream.Sound sent) : Sound sent { stream with gone := true } :=
  { h with }

theorem Sound.write (h : stream.Sound sent) {next : Frame} {waiting : List Frame}
    (waits : stream.waiting = next :: waiting) (replayed : stream.replayed = true) :
    Sound sent { stream with waiting, sent := stream.sent ++ [next] } := by
  have same : stream.sent ++ [next] ++ waiting = stream.sent ++ stream.waiting := by
    rw [waits, List.append_assoc, List.singleton_append]
  constructor
  · exact h.follows
  · intro idle
    rw [replayed] at idle
    cases idle
  · exact same ▸ h.order
  · exact same ▸ h.passed
  · exact same ▸ h.told
  · exact same ▸ h.stands
  · exact h.pending

theorem Sound.heartbeat (h : stream.Sound sent) : stream.heartbeat.Sound sent := by
  unfold EventStream.heartbeat
  split
  · exact h
  · rename_i live
    have replayed : stream.replayed = true := by simp_all
    cases waits : stream.waiting with
    | cons next rest => exact h
    | nil =>
      have order := h.order
      have passed := h.passed
      have told := h.told
      have stands := h.stands
      rw [waits, List.append_nil] at order passed told stands
      constructor
      · exact h.follows
      · intro idle
        rw [replayed] at idle
        cases idle
      · exact order.concat_other rfl
      · simpa [sequences_append, sequences, Frame.sequence?] using passed
      · intro ready sequence behind within
        exact (told ready sequence behind within).imp_left fun before => before.append _
      · intro ready sequence behind within
        exact (stands ready sequence behind within).append _
      · exact h.pending

theorem Sound.takeReplay {sink : EventSink} (h : stream.Sound sent) (newest : sink.Newest)
    (now : String) (plain : ∀ envelope ∈ sink.events, envelope.payload.isGap = false)
    (reaches : sent.length ≤ sink.sequence)
    (cut : ∀ since, stream.since = some since → ∀ envelope ∈ sink.events,
      (since + 1).toNat ≤ envelope.sequence → envelope.sequence ≤ stream.subscription.start) :
    (stream.takeReplay sink now).Sound sent := by
  unfold EventStream.takeReplay
  split
  · exact h
  · rename_i fresh
    obtain ⟨waiting, nothing, none, stands⟩ := h.idle (Bool.eq_false_iff.mpr fresh)
    have within : stream.subscription.cursor ≤ sink.sequence :=
      Nat.le_trans h.follows.cursor_le reaches
    cases asked : stream.since with
    | none =>
      constructor
      · exact h.follows
      · intro idle
        cases idle
      · rw [nothing, List.nil_append]
        exact (inOrder_nil _).concat_other rfl
      · simp [nothing, EventSink.replay, sequences, Frame.sequence?]
      · intro _ sequence behind before
        simp only [EventStream.base] at behind
        dsimp only at before
        omega
      · intro _ sequence behind before
        simp only [EventSink.replay, standing, List.getLast?_nil, Standing.toNat,
          UInt64.reduceToNat, Nat.le_zero] at before
        omega
      · intro standing pending
        rw [none] at pending
        cases pending
    | some since =>
      obtain ⟨order, told, listed, bounded⟩ := replay_inOrder newest now since plain
      constructor
      · exact h.follows
      · intro idle
        cases idle
      · simp only [nothing, List.nil_append, EventStream.base]
        exact order.concat_other rfl
      · intro sequence member
        simp only [nothing, List.nil_append, sequences_append, List.mem_append] at member
        obtain replayed | hint := member
        · obtain ⟨envelope, held, later, rfl⟩ := listed sequence replayed
          have before := cut since asked envelope held later
          exact Nat.le_trans before (Nat.le_of_eq stands.symm)
        · simp [sequences, Frame.sequence?] at hint
      · intro _ sequence behind before
        simp only at before
        left
        simp only [nothing, List.nil_append]
        refine (told sequence behind ?_).append _
        omega
      · intro _ sequence behind before
        simp only [EventStream.base] at behind
        simp only [nothing, List.nil_append]
        refine (told sequence behind ?_).append _
        cases last : (sink.replay now (some since)).getLast? with
        | none =>
          simp only [standing, last, Standing.toNat] at before
          omega
        | some envelope =>
          simp only [standing, last, Standing.toNat] at before
          exact Nat.le_trans before (bounded envelope (List.mem_of_getLast? last))
      · intro standing pending
        rw [none] at pending
        cases pending

theorem told_framesFor {standing : Standing} {now : String} {sequence : Nat}
    (behind : standing.toNat < sequence) (before : sequence < envelope.sequence) :
    framesFor now (some standing) envelope =
        [frame (gapEnvelope now standing.next (envelope.sequence - 1)), frame envelope] ∧
      (frame (gapEnvelope now standing.next (envelope.sequence - 1))).Covers sequence := by
  have next := standing.next_le
  unfold framesFor
  dsimp only
  rw [if_pos (show envelope.sequence > standing.next by omega)]
  refine ⟨rfl, ?_, ?_⟩
  · omega
  · omega

theorem Sound.received (h : stream.Sound sent) (replayed : stream.replayed = true)
    (waiting : stream.waiting = []) (follows : subscription.Follows sent)
    (started : subscription.start = stream.subscription.start)
    (plain : envelope.payload.isGap = false)
    (next : envelope.sequence = stream.subscription.cursor + 1)
    (moved : subscription.cursor = stream.subscription.cursor + 1) (now : String) :
    (receive now { stream with subscription } (.event envelope)).Sound sent := by
  have order := h.order
  have passed := h.passed
  have told := h.told replayed
  rw [waiting, List.append_nil] at order passed told
  have event := sequence?_frame plain
  -- what goes before the event
  have parts : ∃ front, framesFor now stream.pendingGapFrom envelope = front ++ [frame envelope] ∧
      InOrder stream.base (stream.sent ++ front) ∧ sequences front = [] ∧
      ∀ sequence, stream.base < sequence → sequence < envelope.sequence →
        Told (stream.sent ++ front) sequence := by
    cases pending : stream.pendingGapFrom with
    | none =>
      refine ⟨[], rfl, by simpa using order, rfl, ?_⟩
      intro sequence behind before
      obtain known | ⟨waits, -⟩ := told sequence behind (by omega)
      · exact known.append _
      · rw [pending] at waits
        cases waits
    | some standing =>
      have stood := h.pending standing pending
      by_cases lost : envelope.sequence > standing.next
      · refine ⟨[frame (gapEnvelope now standing.next (envelope.sequence - 1))], ?_, ?_, rfl, ?_⟩
        · simp [framesFor, lost]
        · exact order.concat_other rfl
        · intro sequence behind before
          obtain known | ⟨-, later⟩ := told sequence behind (by omega)
          · exact known.append _
          · rw [← stood] at later
            exact .inr ⟨_, List.mem_append_right _ (List.mem_singleton_self _),
              (told_framesFor later before).2⟩
      · refine ⟨[], by simp [framesFor, lost], by simpa using order, rfl, ?_⟩
        intro sequence behind before
        obtain known | ⟨-, later⟩ := told sequence behind (by omega)
        · exact known.append _
        · have above := standing.next_le
          rw [stood] at above lost
          omega
  obtain ⟨front, frames, ready, silent, known⟩ := parts
  have below : ∀ sequence ∈ sequences (stream.sent ++ front), sequence < envelope.sequence := by
    intro sequence member
    rw [sequences_append, silent, List.append_nil] at member
    have before := passed sequence member
    omega
  have base : EventStream.base { stream with subscription } = stream.base := by
    simp only [EventStream.base, started]
  have whole : ∀ sequence, stream.base < sequence → sequence ≤ envelope.sequence →
      Told (stream.sent ++ (front ++ [frame envelope])) sequence := by
    intro sequence behind within
    rw [← List.append_assoc]
    by_cases last : sequence = envelope.sequence
    · left
      rw [sequences_append, last]
      exact List.mem_append_right _ (by simp [sequences, event])
    · exact (known sequence behind (by omega)).append _
  unfold receive
  dsimp only
  rw [frames]
  constructor
  · exact follows
  · intro idle
    rw [replayed] at idle
    cases idle
  · dsimp only
    rw [← List.append_assoc]
    exact base ▸ ready.concat_event event below known
  · intro sequence member
    dsimp only at member ⊢
    rw [← List.append_assoc, sequences_append, List.mem_append] at member
    cases member with
    | inl before =>
      have less := below sequence before
      omega
    | inr last =>
      simp only [sequences, List.filterMap_cons, event, List.filterMap_nil,
        List.mem_singleton] at last
      omega
  · intro _ sequence behind within
    left
    rw [moved, ← next] at within
    exact whole sequence (base ▸ behind) within
  · intro _ sequence behind within
    exact whole sequence (base ▸ behind) within
  · intro standing pending
    cases pending

theorem Sound.missed (h : stream.Sound sent) (replayed : stream.replayed = true)
    (follows : subscription.Follows sent) (started : subscription.start = stream.subscription.start)
    (moved : stream.subscription.cursor ≤ subscription.cursor) (now : String) (count : Nat) :
    (receive now { stream with subscription } (.missed count)).Sound sent := by
  have stood : stream.pendingGapFrom.getD stream.delivered = stream.delivered := by
    cases pending : stream.pendingGapFrom with
    | none => rfl
    | some standing => exact h.pending standing pending
  have base : EventStream.base { stream with subscription } = stream.base := by
    simp only [EventStream.base, started]
  unfold receive
  rw [stood]
  constructor
  · exact follows
  · intro idle
    rw [replayed] at idle
    cases idle
  · exact base ▸ h.order
  · intro sequence member
    exact Nat.le_trans (h.passed sequence member) moved
  · intro _ sequence behind within
    by_cases known : sequence ≤ stream.delivered.toNat
    · exact .inl (h.stands replayed sequence (base ▸ behind) known)
    · exact .inr ⟨rfl, Nat.lt_of_not_le known⟩
  · intro _ sequence behind within
    exact h.stands replayed sequence (base ▸ behind) within
  · intro standing pending
    exact (Option.some_inj.mp pending).symm

def Placed (channel : Broadcast EventEnvelope) : Prop :=
  ∀ place envelope, channel.sent[place]? = some envelope →
    envelope.sequence = place + 1 ∧ envelope.payload.isGap = false

theorem Sound.advance (h : stream.Sound channel.sent) (placed : Placed channel) (now : String) :
    (stream.advance tokio channel now).Sound channel.sent := by
  unfold EventStream.advance
  split
  · exact h
  · rename_i live
    have replayed : stream.replayed = true := by simp_all
    split
    · rename_i next rest waits
      exact h.write waits replayed
    · rename_i waits
      have follows := tokio.follows_recv h.follows
      obtain idle | ⟨oldest, behind, -, answered⟩ | ⟨envelope, found, answered⟩ :=
        tokio.recv_cases channel stream.subscription
      · rw [idle]
        exact h
      · rw [answered] at follows ⊢
        exact h.missed replayed follows rfl (Nat.le_of_lt behind) now _
      · rw [answered] at follows ⊢
        obtain ⟨numbered, plain⟩ := placed _ envelope found
        exact h.received replayed waits follows rfl plain numbered rfl now

end

end EventStream

namespace EventStreams

/-- Envelopes go on the channel in turn, and where a replay is taken, the ring holds nothing
from the cursor on that was not on the channel when the stream subscribed. -/
def CutsCleanly (state : EventStreams) : StreamStep → Prop
  | .send publisher => state.live.SendsInTurn (.send publisher)
  | .replay place _ => ∀ stream ∈ state.streams[place]?, ∀ since ∈ stream.since,
      ∀ envelope ∈ state.live.sink.events,
        (since + 1).toNat ≤ envelope.sequence → envelope.sequence ≤ stream.subscription.start
  | _ => True

instance (state : EventStreams) (input : StreamStep) : Decidable (state.CutsCleanly input) :=
  match input with
  | .send publisher => inferInstanceAs (Decidable (∀ held ∈ state.live.drawn.head?,
      publisher ∈ state.live.drawn.map Prod.fst → held.1 = publisher))
  | .replay place _ =>
    have (stream : EventStream) : Decidable (∀ since ∈ stream.since,
        ∀ envelope ∈ state.live.sink.events,
          (since + 1).toNat ≤ envelope.sequence → envelope.sequence ≤ stream.subscription.start) :=
      Option.decidableForallMem stream.since
    Option.decidableForallMem state.streams[place]?
  | .draw .. | .subscribe _ | .advance .. | .heartbeat _ | .hangUp _ => isTrue trivial

structure Sound (encodedLength : EventEnvelope → Nat) (state : EventStreams) : Prop where
  inStep : state.live.InStep
  newest : state.live.sink.Newest
  bounded : EventSink.Bounded encodedLength state.live.sink
  plain : ∀ envelope, envelope ∈ state.live.sink.events ∨ envelope ∈ state.live.channel.sent ∨
    envelope ∈ state.live.drawn.map Prod.snd → envelope.payload.isGap = false
  streams : ∀ (place : Nat) (stream : EventStream), state.streams[place]? = some stream →
    stream.Sound state.live.channel.sent

theorem sound_withLimits (encodedLength : EventEnvelope → Nat) (maxEvents maxBytes depth : Nat) :
    (withLimits maxEvents maxBytes depth).Sound encodedLength := by
  constructor
  · exact LiveEvents.inStep_withLimits maxEvents maxBytes depth
  · exact EventSink.newest_withLimits maxEvents maxBytes
  · exact EventSink.bounded_withLimits maxEvents maxBytes
  · simp [withLimits, LiveEvents.withLimits, EventSink.withLimits]
  · simp [withLimits]

section
variable {tokio : Broadcasting EventEnvelope} {encodedLength : EventEnvelope → Nat}
  {state : EventStreams}

theorem Sound.placed (h : state.Sound encodedLength) : EventStream.Placed state.live.channel := by
  intro place envelope held
  have numbered := congrArg (fun sequences => sequences[place]?) h.inStep.sequences
  rw [List.getElem?_map, held, Option.map_some, List.getElem?_range' (by
    exact (List.getElem?_eq_some_iff.mp held).1), Option.some_inj] at numbered
  exact ⟨by omega, h.plain envelope (.inr (.inl (List.mem_of_getElem? held)))⟩

theorem Sound.reaches (h : state.Sound encodedLength) :
    state.live.channel.sent.length ≤ state.live.sink.sequence := by
  have counts := congrArg List.length h.inStep.numbered
  rw [List.length_map, List.length_append, List.length_range'] at counts
  omega

theorem Sound.onStream (h : state.Sound encodedLength) {place : Nat}
    {change : EventStream → EventStream}
    (keeps : ∀ stream, state.streams[place]? = some stream → stream.Sound state.live.channel.sent →
      (change stream).Sound state.live.channel.sent) :
    (state.onStream place change).Sound encodedLength := by
  refine { h with streams := ?_ }
  intro other stream held
  simp only [EventStreams.onStream, List.getElem?_modify, Option.map_eq_map,
    Option.map_eq_some_iff] at held
  obtain ⟨old, before, rfl⟩ := held
  split
  · rename_i same
    exact keeps old (same ▸ before) (h.streams other old before)
  · exact h.streams other old before

theorem Sound.draw (h : state.Sound encodedLength) (publisher : Nat) (hint : Hint) (now : String) :
    Sound encodedLength
      { state with live := state.live.draw encodedLength publisher hint.payload now } := by
  have inStep : (state.live.draw encodedLength publisher hint.payload now).InStep :=
    h.inStep.draw publisher hint.payload now
  unfold LiveEvents.draw at inStep ⊢
  split
  · exact h
  · rename_i free
    rw [if_neg free] at inStep
    obtain ⟨envelope, next, published, minted, counts, bounded, dropped, parts⟩ :=
      EventSink.publish_spec h.bounded hint.payload now
    have made : envelope.payload = hint.payload := by
      have first := congrArg Prod.fst published
      dsimp only [EventSink.publish] at first
      rw [← first]
    have plain : envelope.payload.isGap = false := by
      rw [made]
      cases hint <;> rfl
    rw [published] at inStep ⊢
    constructor
    · exact inStep
    · exact h.newest.publish minted counts parts
    · exact bounded
    · rintro other (ring | sent | waits)
      · have member : other ∈ state.live.sink.events ++ [envelope] := by
          rw [parts]
          exact List.mem_append_right _ ring
        rw [List.mem_append, List.mem_singleton] at member
        cases member with
        | inl before => exact h.plain other (.inl before)
        | inr new => exact new ▸ plain
      · exact h.plain other (.inr (.inl sent))
      · rw [List.map_append, List.mem_append, List.map_singleton, List.mem_singleton] at waits
        cases waits with
        | inl before => exact h.plain other (.inr (.inr before))
        | inr new => exact new ▸ plain
    · exact h.streams

theorem Sound.send (h : state.Sound encodedLength) {publisher : Nat}
    (inTurn : state.live.SendsInTurn (.send publisher)) :
    Sound encodedLength { state with live := state.live.send tokio publisher } := by
  have inStep : (state.live.send tokio publisher).InStep := h.inStep.send inTurn
  unfold LiveEvents.send at inStep ⊢
  cases found : state.live.drawn.find? fun held => held.1 = publisher with
  | none =>
    exact h
  | some held =>
    rw [found] at inStep
    have member := List.mem_map_of_mem (f := Prod.snd) (List.mem_of_find?_eq_some found)
    constructor
    · exact inStep
    · exact h.newest
    · exact h.bounded
    · rintro other (ring | sent | waits)
      · exact h.plain other (.inl ring)
      · dsimp only at sent
        rw [tokio.sent_send, List.mem_append, List.mem_singleton] at sent
        cases sent with
        | inl before => exact h.plain other (.inr (.inl before))
        | inr new => exact new ▸ h.plain _ (.inr (.inr member))
      · exact h.plain other (.inr (.inr ((List.filter_sublist.map _).subset waits)))
    · intro place stream held
      exact (h.streams place stream held).send tokio _

theorem Sound.subscribe (h : state.Sound encodedLength) (since : Option UInt64) :
    Sound encodedLength { state with streams := state.streams ++
      [{ since, subscription := tokio.subscribe state.live.channel }] } := by
  refine { h with streams := ?_ }
  intro place stream held
  cases List.mem_append.mp (List.mem_of_getElem? held) with
  | inl before =>
    obtain ⟨old, same⟩ := List.mem_iff_getElem?.mp before
    exact h.streams old stream same
  | inr new =>
    rw [List.mem_singleton.mp new]
    exact EventStream.sound_subscribe tokio since

theorem Sound.step (h : state.Sound encodedLength) {input : StreamStep}
    (clean : state.CutsCleanly input) :
    Sound encodedLength ((streaming tokio encodedLength).next state input) := by
  cases input with
  | draw publisher hint now => exact h.draw publisher hint now
  | send publisher => exact h.send clean
  | subscribe since => exact h.subscribe since
  | replay place now =>
    apply h.onStream
    intro stream held sound
    apply sound.takeReplay h.newest now (fun envelope member => h.plain envelope (.inl member))
      h.reaches
    exact clean stream held
  | advance place now => exact h.onStream fun stream _ sound => sound.advance tokio h.placed now
  | heartbeat place => exact h.onStream fun stream _ sound => sound.heartbeat
  | hangUp place => exact h.onStream fun stream _ sound => sound.hangUp

end

/-- Whatever the channel is: where envelopes are sent in turn and no replay tells of an event that
its subscription will bring, every stream writes each event once and in order, and before each
event all that lies behind it. -/
theorem streams_in_order (tokio : Broadcasting EventEnvelope) (encodedLength : EventEnvelope → Nat)
    (maxEvents maxBytes depth : Nat) {steps : List StreamStep}
    (clean : (streaming tokio encodedLength).Meets CutsCleanly
      (withLimits maxEvents maxBytes depth) steps) :
    ∀ stream ∈ ((streaming tokio encodedLength).after
      (withLimits maxEvents maxBytes depth) steps).streams, stream.Faithful := by
  have sound := (streaming tokio encodedLength).invariant_of_step (Sound encodedLength)
    (fun _ _ held meets => held.step meets) (sound_withLimits encodedLength maxEvents maxBytes depth)
    clean
  intro stream member
  obtain ⟨place, held⟩ := List.mem_iff_getElem?.mp member
  exact (sound.streams place stream held).faithful

/-- A client resumes from the start, the channel keeps one event, and two come too fast. -/
def fellBehind : List StreamStep :=
  [.draw 1 (.repositoryChanged "repo_1" ["wt_1"] true) "2026-01-01T00:00:00.000Z", .send 1,
    .subscribe (some 0), .replay 0 "2026-01-01T00:00:01.000Z",
    .draw 1 (.repositoryChanged "repo_1" ["wt_1"] true) "2026-01-01T00:00:02.000Z", .send 1,
    .draw 1 (.repositoryChanged "repo_1" ["wt_1"] true) "2026-01-01T00:00:03.000Z", .send 1,
    .advance 0 "2026-01-01T00:00:04.000Z", .advance 0 "2026-01-01T00:00:04.000Z",
    .advance 0 "2026-01-01T00:00:04.000Z", .advance 0 "2026-01-01T00:00:04.000Z",
    .advance 0 "2026-01-01T00:00:04.000Z", .advance 0 "2026-01-01T00:00:04.000Z"]

theorem fell_behind_in_order :
    let state := (streaming keepingNewest fun _ => 100).after (withLimits 1024 1048576 1) fellBehind
    state.streams.map (fun stream => sequences stream.sent) = [[1, 3]] ∧
      ∀ stream ∈ state.streams, stream.Faithful :=
  ⟨by decide, streams_in_order keepingNewest (fun _ => 100) 1024 1048576 1 (by decide)⟩

/-- An event comes between the subscription and the replay, and is written twice. -/
theorem event_written_twice :
    let state := (streaming keepingNewest fun _ => 100).after
      (withLimits eventRingMaxEvents eventRingMaxBytes eventRingMaxEvents)
      [.subscribe (some 0),
        .draw 1 (.repositoryChanged "repo_1" ["wt_1"] true) "2026-01-01T00:00:00.000Z", .send 1,
        .replay 0 "2026-01-01T00:00:01.000Z", .advance 0 "2026-01-01T00:00:01.000Z",
        .advance 0 "2026-01-01T00:00:01.000Z", .advance 0 "2026-01-01T00:00:01.000Z",
        .advance 0 "2026-01-01T00:00:01.000Z"]
    ∃ stream ∈ state.streams, sequences stream.sent = [1, 1] ∧ ¬stream.Faithful := by
  intro state
  have written : state.streams.map (fun stream => sequences stream.sent) = [[1, 1]] := by decide
  cases parts : state.streams with
  | nil => simp [parts] at written
  | cons stream rest =>
    rw [parts, List.map_cons, List.cons.injEq] at written
    refine ⟨stream, List.mem_cons_self, written.1, ?_⟩
    intro faithful
    have increasing := faithful.increasing
    rw [written.1] at increasing
    exact absurd increasing (by decide)

end EventStreams
end Refyard
