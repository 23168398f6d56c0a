import Mathlib.Data.List.Basic

/-! Readers take values off the front of a list of tokens, count what they took, and can
fail. `Reads` is the rule for reading back what was written, and `Yields` the rule for what
can be said of a value however it was written. -/
namespace Refyard

structure Cursor (τ : Type) where
  rest : List τ
  offset : Nat

abbrev Reader (ε τ α : Type) := StateT (Cursor τ) (Except ε) α

variable {ε τ α β : Type}

def Reader.on (reader : Reader ε τ α) (tokens : List τ) : Except ε α :=
  reader.run' ⟨tokens, 0⟩

/-- The reader takes exactly these tokens and answers with the value, whatever follows them,
if it begins as the reader needs it to. -/
def Reads (reader : Reader ε τ α) (follows : List τ → Prop) (tokens : List τ) (value : α) :
    Prop :=
  ∀ rest, follows rest → ∀ offset,
    reader.run ⟨tokens ++ rest, offset⟩ = .ok (value, ⟨rest, offset + tokens.length⟩)

def Anything : List τ → Prop := fun _ => True

def Nothing : List τ → Prop := fun rest => rest = []

variable {reader first : Reader ε τ α} {follows : List τ → Prop} {tokens front back : List τ}
  {value : α} {next : α → Reader ε τ β} {answer : β} {error : ε}

/-- What a reader takes it takes, too, when more is known of what follows. -/
theorem Reads.before {others : List τ → Prop} (reads : Reads reader follows tokens value)
    (fewer : ∀ rest, others rest → follows rest) : Reads reader others tokens value :=
  fun rest followed => reads rest (fewer rest followed)

theorem Reads.pure (value : α) : Reads (Pure.pure value : Reader ε τ α) follows [] value := by
  intro rest _ offset
  rfl

theorem Reads.lift {answer : Except ε α} (ok : answer = .ok value) :
    Reads (liftM answer : Reader ε τ α) follows [] value := by
  intro rest _ offset
  rw [ok]
  rfl

variable {begins : List τ → Prop}

theorem Reads.bind (reads : Reads first begins front value)
    (goes : Reads (next value) follows back answer)
    (fits : ∀ rest, follows rest → begins (back ++ rest)) :
    Reads (first >>= next) follows (front ++ back) answer := by
  intro rest followed offset
  have taken := reads (back ++ rest) (fits rest followed) offset
  have then_taken := goes rest followed (offset + front.length)
  rw [StateT.run_bind, List.append_assoc, taken]
  refine then_taken.trans ?_
  rw [List.length_append, Nat.add_assoc]

/-- A reader that anything may follow goes first. -/
theorem Reads.then (reads : Reads first Anything front value)
    (goes : Reads (next value) follows back answer) :
    Reads (first >>= next) follows (front ++ back) answer :=
  reads.bind goes fun _ _ => trivial

/-- A reader that takes nothing goes first. -/
theorem Reads.step (reads : Reads first Anything [] value)
    (goes : Reads (next value) follows tokens answer) :
    Reads (first >>= next) follows tokens answer :=
  reads.then goes

/-- What is done with the value takes nothing. -/
theorem Reads.finish (reads : Reads first follows tokens value)
    (goes : Reads (next value) follows [] answer) :
    Reads (first >>= next) follows tokens answer := by
  have both := reads.bind goes fun rest followed => followed
  rwa [List.append_nil] at both

theorem Reads.on_front {rest : List τ} (reads : Reads reader follows tokens value)
    (followed : follows rest) : reader.on (tokens ++ rest) = .ok value := by
  change Prod.fst <$> reader.run ⟨tokens ++ rest, 0⟩ = .ok value
  rw [reads rest followed 0]
  rfl

theorem Reads.on (reads : Reads reader follows tokens value) (ends : follows []) :
    reader.on tokens = .ok value := by
  have front := reads.on_front ends
  rwa [List.append_nil] at front

def Refuses (reader : Reader ε τ α) (tokens : List τ) (error : ε) : Prop :=
  ∀ offset, reader.run ⟨tokens, offset⟩ = .error error

theorem Refuses.lift {answer : Except ε α} (failed : answer = .error error) (tokens : List τ) :
    Refuses (liftM answer : Reader ε τ α) tokens error := by
  intro offset
  rw [failed]
  rfl

/-- What was read so far does not save the rest. -/
theorem Reads.refuses (reads : Reads first begins front value) (fits : begins back)
    (refuses : Refuses (next value) back error) :
    Refuses (first >>= next) (front ++ back) error := by
  intro offset
  rw [StateT.run_bind, reads back fits offset]
  exact refuses _

/-- The value that was read is refused. -/
theorem Reads.rejects (reads : Reads first follows tokens value) (ends : follows [])
    (refuses : Refuses (next value) [] error) : Refuses (first >>= next) tokens error := by
  have both := reads.refuses ends refuses
  rwa [List.append_nil] at both

theorem Refuses.bind (refuses : Refuses first tokens error) :
    Refuses (first >>= next) tokens error := by
  intro offset
  rw [StateT.run_bind, refuses offset]
  rfl

theorem Refuses.on (refuses : Refuses reader tokens error) : reader.on tokens = .error error := by
  change Prod.fst <$> reader.run ⟨tokens, 0⟩ = .error error
  rw [refuses 0]
  rfl

/-- Where every token is as it should be, so is the value, if there is one. -/
def Yields (reader : Reader ε τ α) (kept : τ → Prop) (good : α → Prop) : Prop :=
  ∀ cursor : Cursor τ, (∀ token ∈ cursor.rest, kept token) → ∀ value next,
    reader.run cursor = .ok (value, next) → good value ∧ ∀ token ∈ next.rest, kept token

section
variable {kept : τ → Prop} {good : α → Prop} {fine : β → Prop}

theorem Yields.pure (holds : good value) : Yields (Pure.pure value : Reader ε τ α) kept good := by
  intro cursor clean result next ran
  cases ran
  exact ⟨holds, clean⟩

theorem Yields.throw (error : ε) : Yields (throw error : Reader ε τ α) kept good := by
  intro cursor _ value next ran
  cases ran

theorem Yields.lift {answer : Except ε α} (holds : ∀ value, answer = .ok value → good value) :
    Yields (liftM answer : Reader ε τ α) kept good := by
  intro cursor clean value next ran
  cases answer with
  | error error => cases ran
  | ok result =>
    cases ran
    exact ⟨holds _ rfl, clean⟩

theorem Yields.bind (yields : Yields first kept good)
    (goes : ∀ value, good value → Yields (next value) kept fine) :
    Yields (first >>= next) kept fine := by
  intro cursor clean value last ran
  rw [StateT.run_bind] at ran
  cases taken : first.run cursor with
  | error error =>
    rw [taken] at ran
    cases ran
  | ok result =>
    rw [taken] at ran
    obtain ⟨holds, still⟩ := yields cursor clean result.1 result.2 taken
    exact goes result.1 holds result.2 still value last ran

/-- Nothing need be known of the tokens for nothing to be said of the value. -/
theorem Yields.any (reader : Reader ε τ α) : Yields reader (fun _ => True) fun _ => True :=
  fun _ _ _ _ _ => ⟨trivial, fun _ _ => trivial⟩

/-- What follows a reader of which nothing need be known. -/
theorem Yields.after (goes : ∀ value, Yields (next value) (fun _ => True) fine) :
    Yields (first >>= next) (fun _ => True) fine :=
  (Yields.any first).bind fun value _ => goes value

theorem Yields.on (yields : Yields reader kept good) (clean : ∀ token ∈ tokens, kept token)
    (ran : reader.on tokens = .ok value) : good value := by
  change Prod.fst <$> reader.run ⟨tokens, 0⟩ = .ok value at ran
  cases taken : reader.run ⟨tokens, 0⟩ with
  | error error =>
    rw [taken] at ran
    cases ran
  | ok result =>
    rw [taken] at ran
    cases ran
    exact (yields ⟨tokens, 0⟩ clean result.1 result.2 taken).1

end

/-- A reader does what another does, and makes its value of the other's, where it can. -/
def Tracks {δ : Type} (reader : Reader ε τ α) (other : Reader δ τ β) (make : β → Option α) : Prop :=
  ∀ cursor, (reader.run cursor).toOption =
    (other.run cursor).toOption.bind fun answer => (make answer.1).map fun value => (value, answer.2)

namespace Tracks

variable {δ γ κ : Type} {reader : Reader ε τ α} {other : Reader δ τ β} {make : β → Option α}

theorem pure {raw : β} (made : make raw = some value) :
    Tracks (Pure.pure value : Reader ε τ α) (Pure.pure raw : Reader δ τ β) make := by
  intro cursor
  change some (value, cursor) = (make raw).map fun value => (value, cursor)
  rw [made]
  rfl

/-- Both answer nothing but a value, or fail. -/
theorem lift {answer : Except ε α} {raw : Except δ β}
    (made : answer.toOption = raw.toOption.bind make) :
    Tracks (liftM answer : Reader ε τ α) (liftM raw : Reader δ τ β) make := by
  intro cursor
  have run {ε α : Type} (answer : Except ε α) :
      ((liftM answer : Reader ε τ α).run cursor).toOption =
        answer.toOption.map fun value => (value, cursor) := by
    cases answer <;> rfl
  rw [run, run, made]
  cases raw with
  | error error => rfl
  | ok value => rfl

theorem fails {detail : δ} :
    Tracks (throw error : Reader ε τ α) (throw detail : Reader δ τ β) make :=
  fun _ => rfl

/-- One gives up where nothing could be made of what the other goes on to answer. -/
theorem refuses (useless : Yields other (fun _ => True) fun raw => make raw = none) :
    Tracks (throw error : Reader ε τ α) other make := by
  intro cursor
  cases ran : other.run cursor with
  | error detail => rfl
  | ok answer =>
    have nothing := (useless cursor (fun _ _ => trivial) answer.1 answer.2 ran).1
    change none = (make answer.1).map _
    rw [nothing]
    rfl

variable {next : α → Reader ε τ γ}
variable {more : β → Reader δ τ κ}

/-- What follows is tracked where a value was made, and makes nothing where none was. -/
theorem bind {finish : κ → Option γ} (tracks : Tracks reader other make)
    (goes : ∀ raw value, make raw = some value → Tracks (next value) (more raw) finish)
    (stops : ∀ raw, make raw = none → Yields (more raw) (fun _ => True) fun last => finish last = none) :
    Tracks (reader >>= next) (other >>= more) finish := by
  intro cursor
  have step {ε α β : Type} (first : Reader ε τ α) (rest : α → Reader ε τ β) :
      ((first >>= rest).run cursor).toOption =
        (first.run cursor).toOption.bind fun answer => ((rest answer.1).run answer.2).toOption := by
    rw [StateT.run_bind]
    cases first.run cursor <;> rfl
  rw [step, step, tracks cursor]
  cases (other.run cursor).toOption with
  | none => rfl
  | some answer =>
    simp only [Option.bind_some]
    cases made : make answer.1 with
    | some value => exact goes answer.1 value made answer.2
    | none =>
      cases later : (more answer.1).run answer.2 with
      | error detail => rfl
      | ok last =>
        have nothing := (stops answer.1 made answer.2 (fun _ _ => trivial) last.1 last.2 later).1
        change none = (finish last.1).map _
        rw [nothing]
        rfl

/-- What the other read, read as something else. -/
theorem made {reading : β → α} {finish : κ → Option γ}
    (tracks : Tracks reader other fun raw => some (reading raw))
    (goes : ∀ raw, Tracks (next (reading raw)) (more raw) finish) :
    Tracks (reader >>= next) (other >>= more) finish := by
  refine tracks.bind (fun raw value made => ?_) (fun raw made => by cases made)
  cases made
  exact goes raw

/-- The same value is read by both. -/
theorem same {other : Reader δ τ α} {more : α → Reader δ τ κ} {finish : κ → Option γ}
    (tracks : Tracks reader other some) (goes : ∀ value, Tracks (next value) (more value) finish) :
    Tracks (reader >>= next) (other >>= more) finish :=
  tracks.made goes

/-- A condition that both check. -/
theorem ite {condition : Prop} [Decidable condition] {yes no : Reader ε τ α}
    {otherYes otherNo : Reader δ τ β} (yesTracks : condition → Tracks yes otherYes make)
    (noTracks : ¬condition → Tracks no otherNo make) :
    Tracks (if condition then yes else no) (if condition then otherYes else otherNo) make := by
  split
  · exact yesTracks ‹_›
  · exact noTracks ‹_›

theorem on (tracks : Tracks reader other make) (tokens : List τ) :
    (reader.on tokens).toOption = (other.on tokens).toOption.bind make := by
  have run {ε α : Type} (reader : Reader ε τ α) :
      (reader.on tokens).toOption = (reader.run ⟨tokens, 0⟩).toOption.map Prod.fst := by
    change (Prod.fst <$> reader.run ⟨tokens, 0⟩).toOption = _
    cases reader.run ⟨tokens, 0⟩ <;> rfl
  rw [run, run, tracks]
  cases (other.run ⟨tokens, 0⟩).toOption with
  | none => rfl
  | some answer =>
    simp only [Option.bind_some, Option.map_some]
    cases make answer.1 <;> rfl

end Tracks

end Refyard
