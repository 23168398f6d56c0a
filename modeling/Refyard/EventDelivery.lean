import Refyard.Events
import Refyard.Foundation.Broadcast

/-! Live delivery from the event sink. A publisher draws its sequence under the ring's lock
and sends the envelope on the channel after it has let go of the lock, so other publishers
may draw and send in between. -/
namespace Refyard

inductive SubscriberEvent where
  | event (envelope : EventEnvelope)
  | missed (count : Nat)

def SubscriberEvent.ofReceived : Received EventEnvelope → SubscriberEvent
  | .value envelope => .event envelope
  | .lagged count => .missed count

/-- The sink, its channel, and the publishers that have drawn a sequence and not sent yet,
in the order in which they drew. -/
structure LiveEvents where
  sink : EventSink
  channel : Broadcast EventEnvelope
  drawn : List (Nat × EventEnvelope) := []
  subscriptions : List (BroadcastReader EventEnvelope) := []

/-- The steps that may interleave: the two halves of a publish, a subscription, and a
subscriber that asks for its next event. -/
inductive LiveStep where
  | draw (publisher : Nat) (payload : EventPayload) (now : String)
  | send (publisher : Nat)
  | subscribe
  | recv (subscription : Nat)

namespace LiveEvents

def withLimits (maxEvents maxBytes depth : Nat) : LiveEvents where
  sink := EventSink.withLimits maxEvents maxBytes
  channel := { depth }

section
variable (tokio : Broadcasting EventEnvelope) (encodedLength : EventEnvelope → Nat)

/-- `publish` up to the end of its lock. A publisher is one thread, so it draws only when
its last envelope is sent. -/
def draw (live : LiveEvents) (publisher : Nat) (payload : EventPayload) (now : String) :
    LiveEvents :=
  if (live.drawn.map Prod.fst).contains publisher then live
  else
    let (envelope, sink) := live.sink.publish encodedLength payload now
    { live with sink, drawn := live.drawn ++ [(publisher, envelope)] }

/-- The rest of `publish`: the send, whose failure for want of subscribers is ignored. -/
def send (live : LiveEvents) (publisher : Nat) : LiveEvents :=
  match live.drawn.find? fun held => held.1 = publisher with
  | none => live
  | some (_, envelope) =>
      { live with
        channel := tokio.send live.channel envelope
        drawn := live.drawn.filter fun held => held.1 ≠ publisher }

def subscribe (live : LiveEvents) : LiveEvents :=
  { live with subscriptions := live.subscriptions ++ [tokio.subscribe live.channel] }

def recv (live : LiveEvents) (subscription : Nat) : LiveEvents × Option SubscriberEvent :=
  match live.subscriptions[subscription]? with
  | none => (live, none)
  | some reader =>
      let (answer, reader) := tokio.recv live.channel reader
      ({ live with subscriptions := live.subscriptions.set subscription reader },
        answer.map SubscriberEvent.ofReceived)

def delivering : Machine LiveEvents LiveStep (Option SubscriberEvent) where
  step live input :=
    match input with
    | .draw publisher payload now => (live.draw encodedLength publisher payload now, none)
    | .send publisher => (live.send tokio publisher, none)
    | .subscribe => (live.subscribe tokio, none)
    | .recv subscription => live.recv tokio subscription

end

/-- The sequences a subscriber was given, in the order in which it got them. -/
def received (reader : BroadcastReader EventEnvelope) : List Nat :=
  reader.values.map EventEnvelope.sequence

def InOrder (reader : BroadcastReader EventEnvelope) : Prop :=
  (received reader).Pairwise (· < ·)

/-- A client that resumes from a sequence it received has missed nothing: each sequence up
to it was on the channel before the client subscribed, or was received, or is one of those
a `Missed` notice counted. -/
def MissesNothing (live : LiveEvents) (reader : BroadcastReader EventEnvelope) : Prop :=
  reader.lost = reader.skipped.length ∧
    ∀ last ∈ received reader, ∀ sequence, 0 < sequence → sequence ≤ last →
      sequence ∈ (live.channel.sent.take reader.start).map EventEnvelope.sequence ∨
        sequence ∈ received reader ∨ sequence ∈ reader.skipped.map EventEnvelope.sequence

def Faithful (live : LiveEvents) : Prop :=
  ∀ reader ∈ live.subscriptions, InOrder reader ∧ live.MissesNothing reader

def SendsInTurn (live : LiveEvents) : LiveStep → Prop
  | .send publisher => ∀ held, live.drawn.head? = some held →
      publisher ∈ live.drawn.map Prod.fst → held.1 = publisher
  | _ => True

/-- The channel and the publishers under way hold the sequences without a hole, the
channel's before the others, and every subscriber follows the channel. -/
structure InStep (live : LiveEvents) : Prop where
  publishers : (live.drawn.map Prod.fst).Nodup
  numbered : (live.channel.sent ++ live.drawn.map Prod.snd).map EventEnvelope.sequence =
    List.range' 1 live.sink.sequence
  follows : ∀ reader ∈ live.subscriptions, reader.Follows live.channel.sent

theorem inStep_withLimits (maxEvents maxBytes depth : Nat) :
    (withLimits maxEvents maxBytes depth).InStep :=
  ⟨by simp [withLimits], by simp [withLimits, EventSink.withLimits], by simp [withLimits]⟩

section
variable {tokio : Broadcasting EventEnvelope} {encodedLength : EventEnvelope → Nat}
  {live : LiveEvents}

theorem InStep.draw (h : live.InStep) (publisher : Nat) (payload : EventPayload) (now : String) :
    (live.draw encodedLength publisher payload now).InStep := by
  unfold LiveEvents.draw
  split
  · exact h
  · rename_i free
    constructor
    · simp only [List.map_append, List.map_singleton, List.nodup_append]
      refine ⟨h.publishers, List.pairwise_singleton _ _, ?_⟩
      intro holder held other member same
      rw [List.mem_singleton] at member
      exact free (List.contains_iff_mem.mpr (by rw [← member, ← same]; exact held))
    · have numbered := h.numbered
      rw [List.map_append] at numbered
      simp only [EventSink.publish, List.map_append, List.map_cons, List.map_nil]
      rw [← List.append_assoc, numbered, List.range'_1_concat, Nat.add_comm]
    · exact h.follows

theorem InStep.send (h : live.InStep) {publisher : Nat} (inTurn : live.SendsInTurn (.send publisher)) :
    (live.send tokio publisher).InStep := by
  unfold LiveEvents.send
  split
  · exact h
  · rename_i holder envelope found
    have member := List.mem_of_find?_eq_some found
    have same : holder = publisher := by simpa using List.find?_some found
    cases parts : live.drawn with
    | nil => simp [parts] at member
    | cons first rest =>
      have turn := inTurn first (by rw [parts]; rfl)
        (List.mem_map.mpr ⟨(holder, envelope), member, same⟩)
      have publishers := h.publishers
      rw [parts, List.map_cons, List.nodup_cons] at publishers
      have sends : first.2 = envelope := by
        rw [parts, List.find?_cons_of_pos (by simpa using turn), Option.some_inj] at found
        rw [found]
      have rest_kept : (first :: rest).filter (fun held => held.1 ≠ publisher) = rest := by
        rw [List.filter_cons_of_neg (by simpa using turn), List.filter_eq_self]
        intro other later
        have differs : other.1 ≠ publisher := fun equal =>
          publishers.1 (List.mem_map.mpr ⟨other, later, equal.trans turn.symm⟩)
        simpa using differs
      constructor
      · rw [rest_kept]
        exact publishers.2
      · rw [rest_kept, ← h.numbered, parts, List.map_cons, sends, tokio.sent_send,
          List.append_assoc, List.singleton_append]
      · intro reader subscribed
        exact tokio.follows_send (h.follows reader subscribed) envelope

theorem InStep.subscribe (h : live.InStep) : (live.subscribe tokio).InStep := by
  constructor
  · exact h.publishers
  · exact h.numbered
  · intro reader member
    rw [LiveEvents.subscribe, List.mem_append, List.mem_singleton] at member
    cases member with
    | inl before => exact h.follows reader before
    | inr new => exact new ▸ tokio.follows_subscribe live.channel

theorem InStep.recv (h : live.InStep) (subscription : Nat) :
    (live.recv tokio subscription).1.InStep := by
  unfold LiveEvents.recv
  split
  · exact h
  · rename_i reader found
    constructor
    · exact h.publishers
    · exact h.numbered
    · intro other member
      cases List.mem_or_eq_of_mem_set member with
      | inl kept => exact h.follows other kept
      | inr replaced =>
        rw [replaced]
        exact tokio.follows_recv (h.follows reader (List.mem_of_getElem? found))

theorem InStep.step (h : live.InStep) {input : LiveStep} (inTurn : live.SendsInTurn input) :
    ((delivering tokio encodedLength).next live input).InStep := by
  cases input with
  | draw publisher payload now => exact h.draw publisher payload now
  | send publisher => exact h.send inTurn
  | subscribe => exact h.subscribe
  | recv subscription => exact h.recv subscription

theorem InStep.sequences (h : live.InStep) :
    live.channel.sent.map EventEnvelope.sequence = List.range' 1 live.channel.sent.length := by
  have front := congrArg (List.take live.channel.sent.length) h.numbered
  have counts := congrArg List.length h.numbered
  rw [List.length_map, List.length_append, List.length_range'] at counts
  rw [List.map_append, List.take_left' (List.length_map _),
    List.take_range'_of_length_ge (by omega)] at front
  exact front

theorem InStep.window (h : live.InStep) {first last : Nat} (within : last ≤ live.channel.sent.length) :
    (BroadcastReader.window live.channel.sent first last).map EventEnvelope.sequence =
      List.range' (first + 1) (last - first) := by
  unfold BroadcastReader.window
  rw [List.map_drop, List.map_take, h.sequences, List.take_range'_of_length_ge within,
    List.drop_range', Nat.mul_one, Nat.add_comm]

theorem InStep.inOrder (h : live.InStep) {reader : BroadcastReader EventEnvelope}
    (follows : reader.Follows live.channel.sent) : InOrder reader := by
  have sublist := follows.sublist.map EventEnvelope.sequence
  rw [h.window follows.cursor_le] at sublist
  exact (List.pairwise_lt_range' 1).sublist sublist

theorem InStep.missesNothing (h : live.InStep) {reader : BroadcastReader EventEnvelope}
    (follows : reader.Follows live.channel.sent) : live.MissesNothing reader := by
  refine ⟨follows.counted, ?_⟩
  intro last member sequence positive behind
  have passed := (follows.sublist.map EventEnvelope.sequence).subset member
  rw [h.window follows.cursor_le, List.mem_range'_1] at passed
  by_cases before : sequence ≤ reader.start
  · left
    have within := Nat.le_trans follows.start_le follows.cursor_le
    rw [List.map_take, h.sequences, List.take_range'_of_length_ge within, List.mem_range'_1]
    omega
  · right
    have inside : sequence ∈ (BroadcastReader.window live.channel.sent reader.start
        reader.cursor).map EventEnvelope.sequence := by
      rw [h.window follows.cursor_le, List.mem_range'_1]
      omega
    obtain ⟨envelope, held, rfl⟩ := List.mem_map.mp inside
    exact (follows.passed envelope held).imp (List.mem_map_of_mem) (List.mem_map_of_mem)

theorem InStep.faithful (h : live.InStep) : live.Faithful :=
  fun reader member => ⟨h.inOrder (h.follows reader member),
    h.missesNothing (h.follows reader member)⟩

end

/-- Whatever the channel is: where every envelope is sent before a later one is, every subscriber
receives them in order, and a client that resumes from what it received misses nothing. -/
theorem delivery_in_order (tokio : Broadcasting EventEnvelope) (encodedLength : EventEnvelope → Nat)
    (maxEvents maxBytes depth : Nat) (steps : List LiveStep)
    (inTurn : (delivering tokio encodedLength).Meets SendsInTurn
      (withLimits maxEvents maxBytes depth) steps) :
    ((delivering tokio encodedLength).after (withLimits maxEvents maxBytes depth) steps).Faithful :=
  ((delivering tokio encodedLength).invariant_of_step InStep (fun _ _ held meets => held.step meets)
    (inStep_withLimits maxEvents maxBytes depth) inTurn).faithful

theorem delivery_in_order_two_publishers :
    ((delivering keepingNewest fun _ => 100).after (withLimits 1024 1048576 1024)
      [.subscribe, .draw 1 (.session "2026-01-01T00:00:09.000Z") "2026-01-01T00:00:00.000Z",
        .send 1, .draw 2 (.session "2026-01-01T00:00:09.000Z") "2026-01-01T00:00:01.000Z",
        .send 2, .recv 0, .recv 0]).Faithful :=
  delivery_in_order keepingNewest _ 1024 1048576 1024 _ (by
    simp [Machine.Meets, Machine.next, delivering, SendsInTurn, withLimits, draw, send, subscribe,
      EventSink.withLimits, EventSink.publish, EventSink.evict, keepingNewest])

/-- Two publishers draw and the second sends first, while two subscribers listen. -/
def overtaken : List LiveStep :=
  [.subscribe, .subscribe, .draw 1 (.session "2026-01-01T00:00:09.000Z") "2026-01-01T00:00:00.000Z",
    .draw 2 (.session "2026-01-01T00:00:09.000Z") "2026-01-01T00:00:00.000Z",
    .send 2, .send 1, .recv 0, .recv 0, .recv 1]

/-- The subscriber that reads both envelopes gets them the wrong way round, and the one
that stops after the first resumes behind an event it never got. -/
theorem delivery_out_of_order :
    let live := (delivering keepingNewest fun _ => 100).after
      (withLimits eventRingMaxEvents eventRingMaxBytes eventRingMaxEvents) overtaken
    (∃ reader ∈ live.subscriptions, received reader = [2, 1] ∧ ¬InOrder reader) ∧
      ∃ reader ∈ live.subscriptions, received reader = [2] ∧ ¬live.MissesNothing reader := by
  intro live
  let payload : EventPayload := .session "2026-01-01T00:00:09.000Z"
  let first : EventEnvelope := ⟨1, "2026-01-01T00:00:00.000Z", payload⟩
  let second : EventEnvelope := ⟨2, "2026-01-01T00:00:00.000Z", payload⟩
  let both : BroadcastReader EventEnvelope := ⟨0, 2, [.value second, .value first], []⟩
  let one : BroadcastReader EventEnvelope := ⟨0, 1, [.value second], []⟩
  have subscriptions : live.subscriptions = [both, one] := rfl
  refine ⟨⟨both, by simp [subscriptions], rfl, ?_⟩, one, by simp [subscriptions], rfl, ?_⟩
  · intro ordered
    exact absurd ordered (show ¬[2, 1].Pairwise (· < ·) by decide)
  · intro missesNothing
    have accounted := missesNothing.2 2 (by simp [one, received, BroadcastReader.values,
      Received.value?, second]) 1 (by decide) (by decide)
    simp [one, received, BroadcastReader.values, Received.value?, second] at accounted

end LiveEvents
end Refyard
