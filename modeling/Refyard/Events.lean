import Refyard.Contract.Operation
import Refyard.Foundation.Machine
import Mathlib.Algebra.GroupWithZero.Nat

/-! The event sink: a bounded ring of hints that invalidate cached reads, and the
answer to a client that resumes behind, inside or ahead of it. -/
namespace Refyard

inductive EventPayload where
  | operation (operation : OperationRecord)
  | repositoryChanged (repositoryId : String) (worktreeIds : List String)
      (snapshotInvalidated : Bool)
  | eventGap (fromSequence toSequence : Nat)
  | session (expiresAt : String)

structure EventEnvelope where
  sequence : Nat
  emittedAt : String
  payload : EventPayload

/-- `LIMITS.eventRingMaxEvents`. -/
def eventRingMaxEvents : Nat := 1024

/-- `LIMITS.eventRingMaxBytes`. -/
def eventRingMaxBytes : Nat := 1048576

/-- The sequence counts the publishes of one process, so it is a number without a
width. A cursor is the client's own and keeps its 64 bits. -/
structure EventSink where
  maxEvents : Nat := eventRingMaxEvents
  maxBytes : Nat := eventRingMaxBytes
  events : List EventEnvelope := []
  bytes : Nat := 0
  sequence : Nat := 0

namespace EventSink

def withLimits (maxEvents maxBytes : Nat) : EventSink := { maxEvents, maxBytes }

def highWatermark (sink : EventSink) : Nat := sink.sequence

section
-- how many bytes the serialised envelope takes
variable (encodedLength : EventEnvelope → Nat)

def evict (maxEvents maxBytes : Nat) : List EventEnvelope → Nat → List EventEnvelope × Nat
  | [], bytes => ([], bytes)
  | oldest :: rest, bytes =>
      if rest.length + 1 > maxEvents ∨ bytes > maxBytes then
        evict maxEvents maxBytes rest (bytes - encodedLength oldest)
      else (oldest :: rest, bytes)

def publish (sink : EventSink) (payload : EventPayload) (now : String) :
    EventEnvelope × EventSink :=
  let envelope : EventEnvelope := { sequence := sink.sequence + 1, emittedAt := now, payload }
  let (events, bytes) := evict encodedLength sink.maxEvents sink.maxBytes
    (sink.events ++ [envelope]) (sink.bytes + encodedLength envelope)
  (envelope, { sink with events, bytes, sequence := sink.sequence + 1 })

def publishing : Machine EventSink (EventPayload × String) EventEnvelope where
  step sink input :=
    let (envelope, next) := sink.publish encodedLength input.1 input.2
    (next, envelope)

end

def gap (sink : EventSink) (now : String) (first last : Nat) : EventEnvelope where
  sequence := sink.sequence
  emittedAt := now
  payload := .eventGap first last

/-- The events after `since`, behind a gap notice when the ring no longer holds that
point. The release build adds without an overflow check, so `since + 1` wraps. -/
def replay (sink : EventSink) (now : String) : Option UInt64 → List EventEnvelope
  | none => []
  | some since =>
      match sink.events.head? with
      | none =>
          if since.toNat < sink.sequence then [sink.gap now (since + 1).toNat sink.sequence]
          else []
      | some oldest =>
          if (since + 1).toNat < oldest.sequence then
            sink.gap now (since + 1).toNat (oldest.sequence - 1) :: sink.events
          else sink.events.filter fun event => since.toNat < event.sequence

def gapSequences : Option (Nat × Nat) → List Nat
  | none => []
  | some (first, last) => List.range' first (last + 1 - first)

def gapNotice (sink : EventSink) (now : String) : Option (Nat × Nat) → List EventEnvelope
  | none => []
  | some (first, last) => [sink.gap now first last]

/-- The answer to a client that holds `since`: at most one gap notice, then the events
the ring still holds behind the cursor. Together they stand for `since + 1` up to the
watermark, and what was evicted is in the gap. -/
def CompleteAfter (sink : EventSink) (now : String) (since : Nat) (answer : List EventEnvelope) :
    Prop :=
  ∃ missed,
    answer = sink.gapNotice now missed ++ sink.events.filter (fun event => since < event.sequence) ∧
      gapSequences missed ++ (sink.events.filter fun event => since < event.sequence).map
        EventEnvelope.sequence = List.range' (since + 1) (sink.highWatermark - since) ∧
      ∀ sequence, since < sequence → sequence ≤ sink.highWatermark →
        sequence ∉ sink.events.map EventEnvelope.sequence → sequence ∈ gapSequences missed

/-- A client without a cursor starts at the watermark and has missed nothing. -/
def Complete (sink : EventSink) (now : String) : Option UInt64 → List EventEnvelope → Prop
  | none, answer => answer = []
  | some since, answer => sink.CompleteAfter now since.toNat answer

structure Bounded (encodedLength : EventEnvelope → Nat) (sink : EventSink) : Prop where
  bytes : sink.bytes = (sink.events.map encodedLength).sum
  fewEvents : sink.events.length ≤ sink.maxEvents
  fewBytes : sink.bytes ≤ sink.maxBytes

/-- The ring holds the newest events, numbered without a hole up to the watermark. -/
structure Newest (sink : EventSink) : Prop where
  counted : sink.events.length ≤ sink.sequence
  consecutive : sink.events.map EventEnvelope.sequence =
    List.range' (sink.sequence - sink.events.length + 1) sink.events.length

section
variable {encodedLength : EventEnvelope → Nat}

/-- What is left is the newest end of what was there, and it fits. -/
theorem evict_spec (maxEvents maxBytes : Nat) {bytes : Nat} {events : List EventEnvelope}
    (total : bytes = (events.map encodedLength).sum) :
    ∃ dropped, events = dropped ++ (evict encodedLength maxEvents maxBytes events bytes).1 ∧
      (evict encodedLength maxEvents maxBytes events bytes).2 =
        ((evict encodedLength maxEvents maxBytes events bytes).1.map encodedLength).sum ∧
      (evict encodedLength maxEvents maxBytes events bytes).1.length ≤ maxEvents ∧
      (evict encodedLength maxEvents maxBytes events bytes).2 ≤ maxBytes := by
  induction events generalizing bytes with
  | nil =>
    refine ⟨[], ?_⟩
    simp_all [evict]
  | cons oldest rest ih =>
    unfold evict
    split
    · have fewer : bytes - encodedLength oldest = (rest.map encodedLength).sum := by
        rw [total, List.map_cons, List.sum_cons]
        omega
      obtain ⟨dropped, parts, fits⟩ := ih fewer
      refine ⟨oldest :: dropped, ?_, fits⟩
      rw [List.cons_append, ← parts]
    · rename_i fits
      rw [not_or, Nat.not_lt, Nat.not_lt] at fits
      exact ⟨[], rfl, total, by simpa using fits.1, fits.2⟩

theorem newest_withLimits (maxEvents maxBytes : Nat) : (withLimits maxEvents maxBytes).Newest :=
  ⟨by simp [withLimits], by simp [withLimits]⟩

theorem bounded_withLimits (maxEvents maxBytes : Nat) :
    Bounded encodedLength (withLimits maxEvents maxBytes) :=
  ⟨by simp [withLimits], by simp [withLimits], by simp [withLimits]⟩

/-- A publish adds one event at the new end and drops some at the old one. -/
theorem publish_spec {sink : EventSink} (h : Bounded encodedLength sink) (payload : EventPayload)
    (now : String) : ∃ envelope next, sink.publish encodedLength payload now = (envelope, next) ∧
      envelope.sequence = sink.sequence + 1 ∧ next.sequence = sink.sequence + 1 ∧
      Bounded encodedLength next ∧
      ∃ dropped, sink.events ++ [envelope] = dropped ++ next.events := by
  let envelope : EventEnvelope := { sequence := sink.sequence + 1, emittedAt := now, payload }
  have total : sink.bytes + encodedLength envelope =
      ((sink.events ++ [envelope]).map encodedLength).sum := by
    simp [h.bytes]
  obtain ⟨dropped, parts, bytes, fewEvents, fewBytes⟩ :=
    evict_spec sink.maxEvents sink.maxBytes total
  exact ⟨envelope, _, rfl, rfl, rfl, ⟨bytes, fewEvents, fewBytes⟩, dropped, parts⟩

theorem Newest.publish {sink next : EventSink} (h : sink.Newest) {envelope : EventEnvelope}
    {dropped : List EventEnvelope} (minted : envelope.sequence = sink.sequence + 1)
    (counts : next.sequence = sink.sequence + 1)
    (parts : sink.events ++ [envelope] = dropped ++ next.events) : next.Newest := by
  have counted := h.counted
  have numbered : (sink.events ++ [envelope]).map EventEnvelope.sequence =
      List.range' (sink.sequence - sink.events.length + 1) (sink.events.length + 1) := by
    rw [List.map_append, h.consecutive, List.range'_1_concat, List.map_singleton, minted]
    congr 2
    omega
  have lengths := congrArg List.length parts
  rw [List.length_append, List.length_append, List.length_singleton] at lengths
  constructor
  · omega
  · have suffix := congrArg (List.drop dropped.length) numbered
    rw [← List.map_drop, parts, List.drop_left, List.drop_range'] at suffix
    rw [suffix, counts]
    congr 1 <;> omega

theorem after_publishes (maxEvents maxBytes : Nat) (publishes : List (EventPayload × String)) :
    Bounded encodedLength
        ((publishing encodedLength).after (withLimits maxEvents maxBytes) publishes) ∧
      ((publishing encodedLength).after (withLimits maxEvents maxBytes) publishes).Newest := by
  apply (publishing encodedLength).invariant fun sink => Bounded encodedLength sink ∧ sink.Newest
  · intro sink input held
    obtain ⟨envelope, next, published, minted, counts, bounded, dropped, parts⟩ :=
      publish_spec held.1 input.1 input.2
    have moves : (publishing encodedLength).next sink input = next := by
      simp only [Machine.next, publishing, published]
    rw [moves]
    exact ⟨bounded, held.2.publish minted counts parts⟩
  · exact ⟨bounded_withLimits _ _, newest_withLimits _ _⟩

end

theorem filter_range' (cursor start count : Nat) :
    (List.range' start count).filter (fun sequence => cursor < sequence) =
      List.range' (max start (cursor + 1)) (start + count - max start (cursor + 1)) := by
  induction count generalizing start with
  | zero =>
    rw [show start + 0 - max start (cursor + 1) = 0 by omega]
    simp
  | succ count ih =>
    rw [List.range'_succ, List.filter_cons, ih]
    by_cases behind : cursor < start
    · rw [if_pos (by simpa using behind), show max (start + 1) (cursor + 1) = start + 1 by omega,
        show max start (cursor + 1) = start by omega,
        show start + (count + 1) - start = count + 1 by omega, List.range'_succ]
      congr 2
      omega
    · rw [if_neg (by simpa using behind)]
      congr 1 <;> omega

theorem Newest.behind {sink : EventSink} (h : sink.Newest) (since : Nat) :
    (sink.events.filter fun event => since < event.sequence).map EventEnvelope.sequence =
      List.range' (max (sink.sequence - sink.events.length + 1) (since + 1))
        (sink.sequence + 1 - max (sink.sequence - sink.events.length + 1) (since + 1)) := by
  have counted := h.counted
  have filtered := filter_range' since (sink.sequence - sink.events.length + 1) sink.events.length
  rw [← h.consecutive, List.filter_map] at filtered
  refine filtered.trans ?_
  congr 1
  omega

variable {sink : EventSink}

theorem Newest.oldest (h : sink.Newest) {oldest : EventEnvelope}
    (first : sink.events.head? = some oldest) :
    oldest.sequence = sink.sequence - sink.events.length + 1 ∧ 0 < sink.events.length := by
  have consecutive := h.consecutive
  cases parts : sink.events with
  | nil => simp [parts] at first
  | cons event rest =>
    rw [parts, List.head?_cons, Option.some_inj] at first
    rw [parts, List.map_cons, List.length_cons, List.range'_succ, List.cons.injEq] at consecutive
    rw [← first, List.length_cons]
    exact ⟨consecutive.1, by omega⟩

theorem completeAfter_of_range {now : String} {since : Nat} {answer : List EventEnvelope}
    (missed : Option (Nat × Nat)) (answered : answer =
      sink.gapNotice now missed ++ sink.events.filter fun event => since < event.sequence)
    (range : gapSequences missed ++ (sink.events.filter fun event => since < event.sequence).map
      EventEnvelope.sequence = List.range' (since + 1) (sink.highWatermark - since)) :
    sink.CompleteAfter now since answer := by
  refine ⟨missed, answered, range, ?_⟩
  intro sequence after before evicted
  have member : sequence ∈ List.range' (since + 1) (sink.highWatermark - since) := by
    rw [List.mem_range'_1]
    omega
  rw [← range, List.mem_append] at member
  refine member.resolve_right fun held => evicted ?_
  exact (List.filter_sublist.map _).subset held

theorem CompleteAfter.notice {now : String} {since first last : Nat} {events : List EventEnvelope}
    (longer : sink.events.length ≤ events.length)
    (h : sink.CompleteAfter now since (sink.gap now first last :: events)) :
    last + 1 - first + events.length = sink.sequence - since := by
  obtain ⟨missed, answer, range, -⟩ := h
  have fewer : (sink.events.filter fun event => since < event.sequence).length ≤
      sink.events.length := List.length_filter_le _ _
  have counts := congrArg List.length range
  rw [List.length_append, List.length_map, List.length_range'] at counts
  cases missed with
  | none =>
    have lengths := congrArg List.length answer
    simp only [gapNotice, List.nil_append, List.length_cons] at lengths
    omega
  | some range =>
    simp only [gapNotice, List.singleton_append, List.cons.injEq, gap, EventEnvelope.mk.injEq,
      EventPayload.eventGap.injEq, true_and] at answer
    obtain ⟨⟨rfl, rfl⟩, rfl⟩ := answer
    simp only [gapSequences, List.length_range', highWatermark] at counts
    exact counts

theorem toNat_succ {cursor : UInt64} (fits : cursor + 1 ≠ 0) :
    (cursor + 1).toNat = cursor.toNat + 1 := by
  have below := cursor.toNat_lt
  have differs : (cursor + 1).toNat ≠ 0 := fun h => fits (UInt64.toNat_inj.mp h)
  rw [UInt64.toNat_add] at differs ⊢
  simp only [UInt64.reduceToNat] at differs ⊢
  omega

theorem Newest.complete_of_fits (h : sink.Newest) (now : String) {since : UInt64}
    (fits : since + 1 ≠ 0) : sink.CompleteAfter now since.toNat (sink.replay now (some since)) := by
  have behind := h.behind since.toNat
  have counted := h.counted
  simp only [replay, toNat_succ fits]
  cases first : sink.events.head? with
  | none =>
    have empty : sink.events = [] := List.head?_eq_none_iff.mp first
    simp only
    split
    · apply completeAfter_of_range (some (since.toNat + 1, sink.sequence))
      · simp [gapNotice, empty]
      · simp only [gapSequences, empty, highWatermark, List.filter_nil, List.map_nil,
          List.append_nil]
        congr 1
        omega
    · apply completeAfter_of_range none
      · simp [gapNotice, empty]
      · have ahead : sink.sequence - since.toNat = 0 := by omega
        simp [gapSequences, empty, highWatermark, ahead]
  | some oldest =>
    obtain ⟨start, some_event⟩ := h.oldest first
    simp only
    split
    · -- the whole ring lies behind the cursor, and the notice ends where it begins
      have all : (sink.events.filter fun event => since.toNat < event.sequence) = sink.events := by
        rw [List.filter_eq_self]
        intro event member
        have held := List.mem_map_of_mem (f := EventEnvelope.sequence) member
        rw [h.consecutive, List.mem_range'_1] at held
        rw [decide_eq_true_iff]
        omega
      apply completeAfter_of_range (some (since.toNat + 1, oldest.sequence - 1))
      · simp [gapNotice, all]
      · rw [behind, gapSequences, highWatermark]
        rw [show max (sink.sequence - sink.events.length + 1) (since.toNat + 1) =
          since.toNat + 1 + (oldest.sequence - 1 + 1 - (since.toNat + 1)) by omega,
          List.range'_append_1]
        congr 1
        omega
    · apply completeAfter_of_range none
      · simp [gapNotice]
      · rw [behind, gapSequences, highWatermark, List.nil_append]
        congr 1 <;> omega

theorem replay_of_wrap (h : sink.Newest) (now : String) {since : UInt64} (wraps : since + 1 = 0)
    (held : sink.events ≠ [] ∨ since.toNat < sink.sequence) :
    ∃ last events, sink.replay now (some since) = sink.gap now 0 last :: events ∧
      sink.events.length ≤ events.length ∧ sink.sequence ≤ last + events.length := by
  have counted := h.counted
  simp only [replay, wraps]
  cases first : sink.events.head? with
  | none =>
    have empty : sink.events = [] := List.head?_eq_none_iff.mp first
    have ahead : since.toNat < sink.sequence := held.resolve_left (not_not.mpr empty)
    exact ⟨sink.sequence, [], by simp [ahead], by simp [empty], by simp⟩
  | some oldest =>
    obtain ⟨start, _⟩ := h.oldest first
    have later : (0 : UInt64).toNat < oldest.sequence := by simp [start]
    simp only [if_pos later]
    exact ⟨oldest.sequence - 1, sink.events, rfl, Nat.le_refl _, by omega⟩

theorem Newest.complete_iff (h : sink.Newest) (now : String) (since : UInt64) :
    sink.CompleteAfter now since.toNat (sink.replay now (some since)) ↔
      since + 1 ≠ 0 ∨ sink.events = [] ∧ sink.sequence ≤ since.toNat := by
  constructor
  · intro complete
    by_contra wrong
    rw [not_or, not_not, not_and_or, Nat.not_le] at wrong
    obtain ⟨wraps, held⟩ := wrong
    obtain ⟨last, events, answered, longer, reaches⟩ := replay_of_wrap h now wraps held
    rw [answered] at complete
    have counts := complete.notice longer
    omega
  · rintro (fits | ⟨empty, ahead⟩)
    · exact h.complete_of_fits now fits
    · apply completeAfter_of_range none
      · simp [replay, gapNotice, empty, Nat.not_lt.mpr ahead]
      · simp [gapSequences, empty, highWatermark, Nat.sub_eq_zero_of_le ahead]

/-- Whatever was published, of whatever size: the ring is within its bounds, and a
client that resumes is told of every sequence behind its cursor exactly once, unless
the sum behind the cursor wraps while there is something to tell. -/
theorem replay_complete (encodedLength : EventEnvelope → Nat) (maxEvents maxBytes : Nat)
    (publishes : List (EventPayload × String)) (now : String) (since : Option UInt64) :
    let sink := (publishing encodedLength).after (withLimits maxEvents maxBytes) publishes
    Bounded encodedLength sink ∧ (sink.Complete now since (sink.replay now since) ↔
        ∀ cursor, since = some cursor →
          cursor + 1 ≠ 0 ∨ sink.events = [] ∧ sink.sequence ≤ cursor.toNat) := by
  intro sink
  obtain ⟨bounded, newest⟩ := @after_publishes encodedLength maxEvents maxBytes publishes
  refine ⟨bounded, ?_⟩
  cases since with
  | none => simp [Complete, replay]
  | some cursor => simpa [Complete] using newest.complete_iff now cursor

/-- The last cursor of the type, while the ring holds one event: the answer names
sequences from 0 on. -/
theorem replay_of_last_cursor :
    let sink := (publishing fun _ => 100).after (withLimits eventRingMaxEvents eventRingMaxBytes)
      [(.repositoryChanged "repo_1" ["wt_1"] true, "2026-01-01T00:00:00.000Z")]
    ¬sink.Complete "2026-01-01T00:00:01.000Z" (some 18446744073709551615)
        (sink.replay "2026-01-01T00:00:01.000Z" (some 18446744073709551615)) := by
  intro sink complete
  have newest := (@after_publishes (fun _ => 100) eventRingMaxEvents eventRingMaxBytes
    [(.repositoryChanged "repo_1" ["wt_1"] true, "2026-01-01T00:00:00.000Z")]).2
  have wrong := (newest.complete_iff _ _).mp complete
  revert wrong
  decide

end EventSink
end Refyard
