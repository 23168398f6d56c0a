import Mathlib.Data.List.Basic

/-! A broadcast channel that keeps its newest values. A reader that falls further behind
than the channel is deep is moved on to a value that is kept and told how many it lost. -/
namespace Refyard

structure Broadcast (α : Type) where
  depth : Nat
  sent : List α := []

/-- What a reader is answered: the next value, or how many were lost before it. -/
inductive Received (α : Type) where
  | value (value : α)
  | lagged (count : Nat)

/-- A reader stands before `sent[cursor]`. Where it began and what it was answered and
passed over is recorded for the statements about it; no answer depends on that. -/
structure BroadcastReader (α : Type) where
  start : Nat
  cursor : Nat := start
  answers : List (Received α) := []
  skipped : List α := []

namespace Received

variable {α : Type}

def value? : Received α → Option α
  | .value given => some given
  | .lagged _ => none

def lost : Received α → Nat
  | .value _ => 0
  | .lagged count => count

end Received

namespace BroadcastReader

variable {α : Type}

def values (reader : BroadcastReader α) : List α := reader.answers.filterMap Received.value?

def lost (reader : BroadcastReader α) : Nat := (reader.answers.map Received.lost).foldr (· + ·) 0

/-- What was sent since the reader began, up to where it stands. -/
def window (sent : List α) (first last : Nat) : List α := (sent.take last).drop first

/-- Every value the reader has passed it was given, in order, or told that it lost. -/
structure Follows (reader : BroadcastReader α) (sent : List α) : Prop where
  start_le : reader.start ≤ reader.cursor
  cursor_le : reader.cursor ≤ sent.length
  sublist : reader.values.Sublist (window sent reader.start reader.cursor)
  passed : ∀ value ∈ window sent reader.start reader.cursor,
    value ∈ reader.values ∨ value ∈ reader.skipped
  counted : reader.lost = reader.skipped.length

variable {sent : List α}

theorem window_append {first mid last : Nat} (le : first ≤ mid) (lt : mid ≤ last)
    (within : mid ≤ sent.length) :
    window sent first mid ++ window sent mid last = window sent first last := by
  unfold window
  have parts : sent.take last = sent.take mid ++ (sent.take last).drop mid := by
    conv_lhs => rw [← List.take_append_drop mid (sent.take last), List.take_take,
      Nat.min_eq_left lt]
  conv_rhs => rw [parts, List.drop_append_of_le_length (by
    rw [List.length_take]
    omega)]

theorem window_succ {cursor : Nat} {value : α} (h : sent[cursor]? = some value) :
    window sent cursor (cursor + 1) = [value] := by
  unfold window
  obtain ⟨within, rfl⟩ := List.getElem?_eq_some_iff.mp h
  rw [List.take_succ_eq_append_getElem within, List.drop_append_of_le_length (by
    rw [List.length_take]
    omega), List.drop_of_length_le (by
    rw [List.length_take]
    omega), List.nil_append]

theorem window_of_append {first last : Nat} (later : List α) (within : last ≤ sent.length) :
    window (sent ++ later) first last = window sent first last := by
  unfold window
  rw [List.take_append_of_le_length within]

theorem lost_concat (reader : BroadcastReader α) (answer : Received α) :
    lost { reader with answers := reader.answers ++ [answer] } = reader.lost + answer.lost := by
  unfold lost
  induction reader.answers with
  | nil => simp
  | cons first rest ih =>
    simp only [List.cons_append, List.map_cons, List.foldr_cons] at ih ⊢
    omega

/-- Moved to the oldest value kept, and told how many were lost. -/
def lag (reader : BroadcastReader α) (sent : List α) (oldest : Nat) : BroadcastReader α :=
  { reader with
    cursor := oldest
    answers := reader.answers ++ [.lagged (oldest - reader.cursor)]
    skipped := reader.skipped ++ window sent reader.cursor oldest }

def take (reader : BroadcastReader α) (value : α) : BroadcastReader α :=
  { reader with cursor := reader.cursor + 1, answers := reader.answers ++ [.value value] }

variable {reader : BroadcastReader α}

theorem Follows.append (h : reader.Follows sent) (later : List α) : reader.Follows (sent ++ later) := by
  have same := (window_of_append later h.cursor_le : window (sent ++ later) reader.start _ = _)
  constructor
  · exact h.start_le
  · rw [List.length_append]
    exact Nat.le_add_right_of_le h.cursor_le
  · rw [same]
    exact h.sublist
  · rw [same]
    exact h.passed
  · exact h.counted

theorem Follows.lag (h : reader.Follows sent) {oldest : Nat} (behind : reader.cursor < oldest)
    (within : oldest ≤ sent.length) : (reader.lag sent oldest).Follows sent := by
  have parts := window_append h.start_le (Nat.le_of_lt behind) h.cursor_le
  have kept : (reader.lag sent oldest).values = reader.values := by
    simp [values, BroadcastReader.lag, Received.value?]
  constructor
  · exact Nat.le_trans h.start_le (Nat.le_of_lt behind)
  · exact within
  · rw [kept]
    dsimp only [BroadcastReader.lag]
    rw [← parts]
    exact h.sublist.trans (List.sublist_append_left _ _)
  · rw [kept]
    dsimp only [BroadcastReader.lag]
    rw [← parts]
    intro value member
    rw [List.mem_append] at member
    cases member with
    | inl before => exact (h.passed value before).imp_right (List.mem_append_left _)
    | inr skipped => exact .inr (List.mem_append_right _ skipped)
  · refine (lost_concat _ _).trans ?_
    dsimp only [BroadcastReader.lag]
    rw [h.counted, List.length_append, window, List.length_drop, List.length_take,
      Nat.min_eq_left within, Received.lost]

theorem Follows.take (h : reader.Follows sent) {value : α}
    (found : sent[reader.cursor]? = some value) : (reader.take value).Follows sent := by
  have within : reader.cursor < sent.length := (List.getElem?_eq_some_iff.mp found).1
  have parts := window_append h.start_le (Nat.le_add_right reader.cursor 1) h.cursor_le
  rw [window_succ found] at parts
  have more : (reader.take value).values = reader.values ++ [value] := by
    simp [values, BroadcastReader.take, Received.value?]
  constructor
  · exact Nat.le_succ_of_le h.start_le
  · exact within
  · rw [more]
    dsimp only [BroadcastReader.take]
    rw [← parts]
    exact h.sublist.append_right _
  · rw [more]
    dsimp only [BroadcastReader.take]
    rw [← parts]
    intro passed member
    rw [List.mem_append] at member ⊢
    cases member with
    | inl before => exact (h.passed passed before).imp_left .inl
    | inr last => exact .inl (.inr last)
  · refine (lost_concat _ _).trans ?_
    rw [h.counted, Received.lost, Nat.add_zero]
    rfl

end BroadcastReader

/-- What is relied on in a channel: a value is sent behind the others, a reader begins behind
all of them, and it waits, has lost some, or is answered the next. -/
structure Broadcasting (α : Type) where
  send : Broadcast α → α → Broadcast α
  subscribe : Broadcast α → BroadcastReader α
  recv : Broadcast α → BroadcastReader α → Option (Received α) × BroadcastReader α
  sent_send : ∀ channel value, (send channel value).sent = channel.sent ++ [value]
  subscribe_eq : ∀ channel, subscribe channel = { start := channel.sent.length }
  recv_cases : ∀ channel reader, recv channel reader = (none, reader) ∨
    (∃ oldest, reader.cursor < oldest ∧ oldest ≤ channel.sent.length ∧ recv channel reader =
      (some (.lagged (oldest - reader.cursor)), reader.lag channel.sent oldest)) ∨
    ∃ value, channel.sent[reader.cursor]? = some value ∧
      recv channel reader = (some (.value value), reader.take value)

namespace Broadcasting

variable {α : Type} (tokio : Broadcasting α) {channel : Broadcast α} {reader : BroadcastReader α}

theorem follows_subscribe (channel : Broadcast α) :
    (tokio.subscribe channel).Follows channel.sent := by
  rw [tokio.subscribe_eq]
  exact ⟨Nat.le_refl _, Nat.le_refl _, List.nil_sublist _, by simp [BroadcastReader.window], rfl⟩

theorem follows_send (h : reader.Follows channel.sent) (value : α) :
    reader.Follows (tokio.send channel value).sent := by
  rw [tokio.sent_send]
  exact h.append [value]

/-- A reader that follows the channel follows it past its next answer. -/
theorem follows_recv (h : reader.Follows channel.sent) :
    (tokio.recv channel reader).2.Follows channel.sent := by
  obtain idle | ⟨oldest, behind, within, lagged⟩ | ⟨value, found, answered⟩ :=
    tokio.recv_cases channel reader
  · rw [idle]
    exact h
  · rw [lagged]
    exact h.lag behind within
  · rw [answered]
    exact h.take found

end Broadcasting

/-- A channel that keeps its newest values, as many as it is deep. -/
def keepingNewest {α : Type} : Broadcasting α where
  send channel value := { channel with sent := channel.sent ++ [value] }
  subscribe channel := { start := channel.sent.length }
  recv channel reader :=
    let oldest := channel.sent.length - channel.depth
    if reader.cursor < oldest then
      (some (.lagged (oldest - reader.cursor)), reader.lag channel.sent oldest)
    else
      match channel.sent[reader.cursor]? with
      | none => (none, reader)
      | some value => (some (.value value), reader.take value)
  sent_send _ _ := rfl
  subscribe_eq _ := rfl
  recv_cases channel reader := by
    dsimp only
    split
    · rename_i behind
      exact .inr (.inl ⟨_, behind, Nat.sub_le _ _, rfl⟩)
    · split
      · exact .inl rfl
      · rename_i value found
        exact .inr (.inr ⟨value, found, rfl⟩)

end Refyard
