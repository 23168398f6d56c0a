import Mathlib.Data.List.Basic

/-! Decoders that are fed a stream in pieces. One read of the buffer waits for more,
fails for good, or takes a part of it; what has been decided does not change when more
input follows, so the places where the stream was cut do not matter. -/
namespace Refyard

inductive FrameVerdict (μ α ε ο : Type) where
  | wait
  | fail (error : ε)
  | advance (mode : μ) (out : List ο) (rest : List α)

namespace FrameVerdict

variable {μ α ε ο : Type}

def append (more : List α) : FrameVerdict μ α ε ο → FrameVerdict μ α ε ο
  | .wait => .wait
  | .fail error => .fail error
  | .advance mode out rest => .advance mode out (rest ++ more)

end FrameVerdict

structure Framing (μ α ε ο : Type) where
  read : μ → List α → FrameVerdict μ α ε ο
  shorter : ∀ {mode buffer next out rest},
    read mode buffer = .advance next out rest → rest.length < buffer.length
  stable : ∀ {mode buffer}, read mode buffer ≠ .wait →
    ∀ more, read mode (buffer ++ more) = (read mode buffer).append more

structure Pending (μ α : Type) where
  mode : μ
  buffer : List α

namespace Pending

variable {μ α : Type}

def feed (pending : Pending μ α) (piece : List α) : Pending μ α :=
  { pending with buffer := pending.buffer ++ piece }

variable (pending : Pending μ α)

theorem feed_feed (first second : List α) :
    (pending.feed first).feed second = pending.feed (first ++ second) := by
  simp [feed]

@[simp] theorem feed_nil : pending.feed [] = pending := by
  simp [feed]

end Pending

/-- What was decided before comes first, and an error is an error for the whole stream. -/
def Decoded.after {μ α ε ο : Type} (out : List ο) :
    Except ε (List ο × Pending μ α) → Except ε (List ο × Pending μ α)
  | .error error => .error error
  | .ok (later, final) => .ok (out ++ later, final)

variable {μ α ε ο : Type}

@[simp] theorem Decoded.after_nil (result : Except ε (List ο × Pending μ α)) :
    after [] result = result := by
  cases result <;> rfl

theorem Decoded.after_after (first second : List ο) (result : Except ε (List ο × Pending μ α)) :
    after first (after second result) = after (first ++ second) result := by
  cases result with
  | error error => rfl
  | ok decoded => simp [after]

namespace Framing

variable {μ α ε ο : Type} (framing : Framing μ α ε ο)

/-- Reads until the decoder waits. Every read takes something, so the length of the
buffer bounds how many there are. -/
def drainWith : Nat → Pending μ α → Except ε (List ο × Pending μ α)
  | 0, pending => .ok ([], pending)
  | fuel + 1, pending =>
      match framing.read pending.mode pending.buffer with
      | .wait => .ok ([], pending)
      | .fail error => .error error
      | .advance mode out rest => Decoded.after out (drainWith fuel ⟨mode, rest⟩)

def drain (pending : Pending μ α) : Except ε (List ο × Pending μ α) :=
  framing.drainWith (pending.buffer.length + 1) pending

def push (pending : Pending μ α) (piece : List α) : Except ε (List ο × Pending μ α) :=
  framing.drain (pending.feed piece)

def pushAll (pending : Pending μ α) : List (List α) → Except ε (List ο × Pending μ α)
  | [] => .ok ([], pending)
  | piece :: pieces =>
      match framing.push pending piece with
      | .error error => .error error
      | .ok (out, next) => Decoded.after out (pushAll next pieces)

def Settled (pending : Pending μ α) : Prop := framing.read pending.mode pending.buffer = .wait

/-- Reads until the decoder waits, as one that can be fed again after an error: `leave` is what
a failing read leaves behind, and what was decided before the failure is lost. -/
def drainLeftWith (leave : Pending μ α → Pending μ α) :
    Nat → Pending μ α → Except ε (List ο) × Pending μ α
  | 0, pending => (.ok [], pending)
  | fuel + 1, pending =>
      match framing.read pending.mode pending.buffer with
      | .wait => (.ok [], pending)
      | .fail error => (.error error, leave pending)
      | .advance mode out rest =>
          let (answer, last) := drainLeftWith leave fuel ⟨mode, rest⟩
          (answer.map (out ++ ·), last)

def drainLeft (leave : Pending μ α → Pending μ α) (pending : Pending μ α) :
    Except ε (List ο) × Pending μ α :=
  framing.drainLeftWith leave (pending.buffer.length + 1) pending

variable {framing}
variable {pending : Pending μ α} {leave : Pending μ α → Pending μ α}

/-- A drain ends where the decoder waits or at a read that failed, and what every advance keeps
holds there. -/
theorem drainLeft_cases (leave : Pending μ α → Pending μ α) {Kept : Pending μ α → Prop}
    (kept : ∀ {pending : Pending μ α} {mode out rest},
      framing.read pending.mode pending.buffer = .advance mode out rest → Kept pending →
        Kept ⟨mode, rest⟩) (start : Kept pending) :
    (∃ out last, framing.drainLeft leave pending = (.ok out, last) ∧ Kept last) ∨
      ∃ failing error, framing.drainLeft leave pending = (.error error, leave failing) ∧
        Kept failing ∧ framing.read failing.mode failing.buffer = .fail error := by
  unfold drainLeft
  generalize enough : pending.buffer.length + 1 = fuel
  replace enough : pending.buffer.length < fuel := by
    omega
  induction fuel generalizing pending with
  | zero => omega
  | succ fuel ih =>
    unfold drainLeftWith
    cases verdict : framing.read pending.mode pending.buffer with
    | wait => exact .inl ⟨[], pending, rfl, start⟩
    | fail error => exact .inr ⟨pending, error, rfl, start, verdict⟩
    | advance mode out rest =>
      have shorter := framing.shorter verdict
      have enough : rest.length < fuel := by
        omega
      dsimp only
      obtain ⟨later, last, drained, held⟩ | ⟨failing, error, drained, held, fails⟩ :=
        @ih ⟨mode, rest⟩ (kept verdict start) enough
      · rw [drained]
        exact .inl ⟨out ++ later, last, rfl, held⟩
      · rw [drained]
        exact .inr ⟨failing, error, rfl, held, fails⟩

variable {error : ε} {fuel other : Nat} {mode : μ} {out : List ο}

theorem drainLeft_of_fail (fails : framing.read pending.mode pending.buffer = .fail error) :
    framing.drainLeft leave pending = (.error error, leave pending) := by
  unfold drainLeft drainLeftWith
  rw [fails]

theorem drainLeftWith_enough (enough : pending.buffer.length < fuel)
    (alsoEnough : pending.buffer.length < other) :
    framing.drainLeftWith leave fuel pending = framing.drainLeftWith leave other pending := by
  induction fuel generalizing pending other with
  | zero => omega
  | succ fuel ih =>
    obtain ⟨other, rfl⟩ : ∃ fewer, other = fewer + 1 := ⟨other - 1, by omega⟩
    unfold drainLeftWith
    cases verdict : framing.read pending.mode pending.buffer with
    | wait => rfl
    | fail error => rfl
    | advance mode out rest =>
      have shorter := framing.shorter verdict
      dsimp only
      rw [ih (by dsimp only; omega)]
      dsimp only
      omega

theorem drainLeft_of_advance {out rest}
    (advances : framing.read pending.mode pending.buffer = .advance mode out rest) :
    framing.drainLeft leave pending = ((framing.drainLeft leave ⟨mode, rest⟩).1.map (out ++ ·),
        (framing.drainLeft leave ⟨mode, rest⟩).2) := by
  have shorter := framing.shorter advances
  unfold drainLeft
  rw [drainLeftWith, advances]
  dsimp only
  rw [drainLeftWith_enough shorter (Nat.lt_succ_self _)]

theorem drainWith_enough (enough : pending.buffer.length < fuel)
    (alsoEnough : pending.buffer.length < other) :
    framing.drainWith fuel pending = framing.drainWith other pending := by
  induction fuel generalizing pending other with
  | zero => omega
  | succ fuel ih =>
    obtain ⟨other, rfl⟩ : ∃ fewer, other = fewer + 1 := ⟨other - 1, by omega⟩
    unfold drainWith
    cases verdict : framing.read pending.mode pending.buffer with
    | wait => rfl
    | fail error => rfl
    | advance mode out rest =>
      have shorter := framing.shorter verdict
      simp only
      rw [ih (by simp only; omega)]
      simp only
      omega

theorem drain_of_settled (settled : framing.Settled pending) :
    framing.drain pending = .ok ([], pending) := by
  unfold drain drainWith
  rw [show framing.read pending.mode pending.buffer = .wait from settled]

theorem drain_of_fail (fails : framing.read pending.mode pending.buffer = .fail error) :
    framing.drain pending = .error error := by
  unfold drain drainWith
  rw [fails]

theorem drain_of_advance {rest : List α}
    (advances : framing.read pending.mode pending.buffer = .advance mode out rest) :
    framing.drain pending = Decoded.after out (framing.drain ⟨mode, rest⟩) := by
  have shorter := framing.shorter advances
  unfold drain
  rw [drainWith, advances]
  simp only
  rw [drainWith_enough shorter (Nat.lt_succ_self _)]

theorem settled_of_drain {final : Pending μ α} (drained : framing.drain pending = .ok (out, final)) :
    framing.Settled final := by
  induction length : pending.buffer.length using Nat.strongRecOn generalizing pending out with
  | _ length ih =>
    cases verdict : framing.read pending.mode pending.buffer with
    | wait =>
      rw [drain_of_settled verdict, Except.ok.injEq, Prod.mk.injEq] at drained
      exact drained.2 ▸ verdict
    | fail error =>
      rw [drain_of_fail verdict] at drained
      contradiction
    | advance mode now rest =>
      have shorter := framing.shorter verdict
      rw [drain_of_advance verdict] at drained
      cases tail : framing.drain ⟨mode, rest⟩ with
      | error error =>
        rw [tail] at drained
        contradiction
      | ok decoded =>
        obtain ⟨later, last⟩ := decoded
        rw [tail] at drained
        obtain ⟨-, rfl⟩ := drained
        exact ih rest.length (length ▸ shorter) tail rfl

/-- Draining a longer buffer goes on where draining its beginning stopped. -/
theorem drain_feed (pending : Pending μ α) (piece : List α) :
    framing.drain (pending.feed piece) = match framing.drain pending with
      | .error error => .error error
      | .ok (out, next) => Decoded.after out (framing.drain (next.feed piece)) := by
  induction length : pending.buffer.length using Nat.strongRecOn generalizing pending with
  | _ length ih =>
    cases verdict : framing.read pending.mode pending.buffer with
    | wait =>
      rw [drain_of_settled verdict]
      simp only [Decoded.after_nil]
    | fail error =>
      have longer := framing.stable (by rw [verdict]; simp) piece
      rw [verdict] at longer
      rw [drain_of_fail verdict, drain_of_fail longer]
    | advance mode out rest =>
      have shorter := framing.shorter verdict
      have longer := framing.stable (by rw [verdict]; simp) piece
      rw [verdict] at longer
      rw [drain_of_advance verdict, drain_of_advance longer]
      have tail := ih rest.length (length ▸ shorter) ⟨mode, rest⟩ rfl
      rw [show (⟨mode, rest ++ piece⟩ : Pending μ α) = Pending.feed ⟨mode, rest⟩ piece from rfl, tail]
      cases framing.drain ⟨mode, rest⟩ with
      | error error => rfl
      | ok decoded => exact Decoded.after_after _ _ _

/-- Where the stream is cut does not matter. -/
theorem pushAll_eq_drain (settled : framing.Settled pending) (pieces : List (List α)) :
    framing.pushAll pending pieces = framing.drain (pending.feed pieces.flatten) := by
  induction pieces generalizing pending with
  | nil =>
    rw [List.flatten_nil, Pending.feed_nil, drain_of_settled settled]
    rfl
  | cons piece pieces ih =>
    rw [List.flatten_cons, ← Pending.feed_feed, drain_feed]
    unfold pushAll push
    cases drained : framing.drain (pending.feed piece) with
    | error error => rfl
    | ok decoded => simp only [ih (settled_of_drain drained)]

end Framing
end Refyard
