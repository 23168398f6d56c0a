import Refyard.Foundation.Fallible
import Refyard.Writes.Prepare

/-! What a failure says about the repository, and what was read of it before the first and
after the last command that changes something. -/
namespace Refyard

open Interaction

def unchangedClauses : List String :=
  [readBackUnchanged, "was aborted, so the branch is unchanged",
   "was aborted, so nothing was left behind"]

def SaysUnchanged (message : String) : Prop :=
  ∃ clause ∈ unchangedClauses, clause.toList <:+: message.toList

def ClaimsUnchanged (outcome : EffectOutcome) : Prop :=
  ∃ problem, outcome = .failed problem ∧ SaysUnchanged problem.message

abbrev Exchanges := List (GitCommand × GitAnswer)

def factsIn (exchanges : Exchanges) : Option WriteFacts :=
  exchanges.findSome? fun exchange =>
    if exchange.1.plan = planStatus then (factsOf exchange.2).toOption else none

def markerIn (state : Sequencer) (exchanges : Exchanges) : Option Bool :=
  exchanges.findSome? fun exchange =>
    if exchange.1.plan = state.plan then probeOf exchange.2 else none

def beforeFirstChange (exchanges : Exchanges) : Exchanges :=
  exchanges.takeWhile fun exchange => exchange.1.plan.readOnly

def afterLastChange (exchanges : Exchanges) : Exchanges :=
  exchanges.rtakeWhile fun exchange => exchange.1.plan.readOnly

/-- Both sides read HEAD, the index and the sequencer states that count, and read the same. -/
structure SameState (markers : List Sequencer) (earlier later : Exchanges) : Prop where
  facts : ∃ before after, factsIn earlier = some before ∧ factsIn later = some after ∧
    after.head = before.head ∧ after.indexKey = before.indexKey
  sequencer : ∀ state ∈ markers, ∃ standing,
    markerIn state earlier = some standing ∧ markerIn state later = some standing

/-- A failure that says the repository is unchanged is one: nothing was run that changes it,
or what was read behind the last such command is what was read before the first. -/
def HonestFailure (markers : List Sequencer)
    (transcript : Transcript GitCommand GitAnswer EffectOutcome EffectOutcome) : Prop :=
  ClaimsUnchanged (reported transcript.ending) →
    (∀ exchange ∈ transcript.exchanges, OnlyReads exchange.1) ∨
      SameState markers (beforeFirstChange transcript.exchanges)
        (afterLastChange transcript.exchanges)

section Shape
variable {earlier rest front later exchanges : Exchanges} {first last : GitCommand × GitAnswer}

theorem beforeFirstChange_eq (reads : ∀ exchange ∈ earlier, OnlyReads exchange.1)
    (changes : ¬ OnlyReads first.1) : beforeFirstChange (earlier ++ first :: rest) = earlier := by
  unfold beforeFirstChange
  rw [List.takeWhile_append_of_pos reads,
    List.takeWhile_cons_of_neg (p := fun exchange : GitCommand × GitAnswer =>
      exchange.1.plan.readOnly) changes, List.append_nil]

theorem afterLastChange_eq (reads : ∀ exchange ∈ later, OnlyReads exchange.1)
    (changes : ¬ OnlyReads last.1) : afterLastChange (front ++ last :: later) = later := by
  have reversed : ∀ exchange ∈ later.reverse, OnlyReads exchange.1 := by
    intro exchange member
    exact reads exchange (List.mem_reverse.mp member)
  unfold afterLastChange List.rtakeWhile
  rw [List.reverse_append, List.reverse_cons, List.append_assoc, List.singleton_append,
    List.takeWhile_append_of_pos reversed,
    List.takeWhile_cons_of_neg (p := fun exchange : GitCommand × GitAnswer =>
      exchange.1.plan.readOnly) changes, List.append_nil, List.reverse_reverse]

/-- Once something was run that changes the repository, only what was read on both sides of
it counts. -/
theorem honestFailure_iff {markers : List Sequencer} {ending : Except EffectOutcome EffectOutcome}
    (readEarlier : ∀ exchange ∈ earlier, OnlyReads exchange.1)
    (readLater : ∀ exchange ∈ later, OnlyReads exchange.1)
    (firstChanges : ¬ OnlyReads first.1) (lastChanges : ¬ OnlyReads last.1)
    (fromFirst : exchanges = earlier ++ first :: rest)
    (toLast : exchanges = front ++ last :: later) : HonestFailure markers ⟨exchanges, ending⟩ ↔
      (ClaimsUnchanged (reported ending) → SameState markers earlier later) := by
  have changed : ¬ ∀ exchange ∈ exchanges, OnlyReads exchange.1 := by
    intro reads
    exact firstChanges (reads first (by simp [fromFirst]))
  have sides : beforeFirstChange exchanges = earlier ∧ afterLastChange exchanges = later := by
    constructor
    · rw [fromFirst, beforeFirstChange_eq readEarlier firstChanges]
    · rw [toLast, afterLastChange_eq readLater lastChanges]
  unfold HonestFailure
  rw [sides.1, sides.2]
  constructor
  · intro honest claims
    exact (honest claims).resolve_left changed
  · intro same claims
    exact .inr (same claims)

variable {transcript : Transcript GitCommand GitAnswer EffectOutcome EffectOutcome}

theorem honestFailure_of_reads {markers : List Sequencer}
    (reads : ∀ exchange ∈ transcript.exchanges, OnlyReads exchange.1) :
    HonestFailure markers transcript :=
  fun _ => .inl reads

theorem not_sameState {markers : List Sequencer} (unread : factsIn later = none) :
    ¬ SameState markers earlier later := by
  rintro ⟨⟨before, after, -, read, -⟩, -⟩
  rw [unread] at read
  cases read

variable {markers : List Sequencer} {ending : Except EffectOutcome EffectOutcome}

theorem honestFailure_command (readEarlier : ∀ exchange ∈ earlier, OnlyReads exchange.1)
    (readLater : ∀ exchange ∈ later, OnlyReads exchange.1) (changes : ¬ OnlyReads first.1) :
    HonestFailure markers ⟨earlier ++ first :: later, ending⟩ ↔
      (ClaimsUnchanged (reported ending) → SameState markers earlier later) :=
  honestFailure_iff readEarlier readLater changes changes rfl rfl

theorem honestFailure_unread (readEarlier : ∀ exchange ∈ earlier, OnlyReads exchange.1)
    (readLater : ∀ exchange ∈ later, OnlyReads exchange.1) (changes : ¬ OnlyReads first.1)
    (unread : factsIn later = none) : HonestFailure markers ⟨earlier ++ first :: later, ending⟩ ↔
      ¬ ClaimsUnchanged (reported ending) := by
  rw [honestFailure_command readEarlier readLater changes]
  exact ⟨fun honest claims => not_sameState unread (honest claims),
    fun silent claims => absurd claims silent⟩

theorem honestFailure_last (readEarlier : ∀ exchange ∈ earlier, OnlyReads exchange.1)
    (firstChanges : ¬ OnlyReads first.1) (lastChanges : ¬ OnlyReads last.1) :
    HonestFailure markers ⟨earlier ++ first :: (front ++ [last]), ending⟩ ↔
      ¬ ClaimsUnchanged (reported ending) := by
  have toLast : earlier ++ first :: (front ++ [last]) = (earlier ++ first :: front) ++ [last] := by
    simp
  rw [honestFailure_iff readEarlier (List.forall_mem_nil _) firstChanges lastChanges rfl toLast]
  exact ⟨fun honest claims => not_sameState rfl (honest claims), fun silent claims => absurd claims silent⟩

theorem honestFailure_of_silent (silent : ¬ ClaimsUnchanged (reported transcript.ending)) :
    HonestFailure markers transcript :=
  fun claims => absurd claims silent

end Shape

/-- A claim made on what a read says is borne out by a read that agrees, exactly if no read
that leads to the claim disagrees. -/
theorem borneOut_iff {ε α : Type} {claims : Prop} {read : Except ε α} {judged agrees : α → Prop}
    (concluded : claims ↔ ∃ facts, read.toOption = some facts ∧ judged facts) :
    (claims → ∃ facts, read = .ok facts ∧ agrees facts) ↔
      ¬ ∃ facts, read = .ok facts ∧ judged facts ∧ ¬ agrees facts := by
  simp only [toOption_eq_some] at concluded
  constructor
  · rintro honest ⟨facts, found, judges, differs⟩
    obtain ⟨same, again, agreed⟩ := honest (concluded.mpr ⟨facts, found, judges⟩)
    rw [found] at again
    cases again
    exact differs agreed
  · intro noneDiffers claimed
    obtain ⟨facts, found, judges⟩ := concluded.mp claimed
    refine ⟨facts, found, ?_⟩
    by_contra differs
    exact noneDiffers ⟨facts, found, judges, differs⟩

section Words

variable {message : String}

theorem SaysUnchanged.append_left (said : SaysUnchanged message) (front : String) :
    SaysUnchanged (front ++ message) := by
  obtain ⟨clause, listed, inside⟩ := said
  refine ⟨clause, listed, ?_⟩
  rw [String.toList_append]
  exact List.infix_append_of_infix_right inside

theorem SaysUnchanged.append_right (said : SaysUnchanged message) (back : String) :
    SaysUnchanged (message ++ back) := by
  obtain ⟨clause, listed, inside⟩ := said
  refine ⟨clause, listed, ?_⟩
  rw [String.toList_append]
  exact List.infix_append_of_infix_left inside

theorem mark_of_saysUnchanged (said : SaysUnchanged message) :
    ',' ∈ message.toList ∨ ';' ∈ message.toList := by
  obtain ⟨clause, listed, inside⟩ := said
  have marked : ',' ∈ clause.toList ∨ ';' ∈ clause.toList := by
    simp only [unchangedClauses, List.mem_cons, List.not_mem_nil, or_false] at listed
    rcases listed with rfl | rfl | rfl
    · unfold readBackUnchanged
      rw [String.toList_ofList]
      exact .inr (by decide)
    · rw [String.toList_ofList]
      exact .inl (by decide)
    · rw [String.toList_ofList]
      exact .inl (by decide)
  exact marked.imp (fun comma => inside.subset comma) fun semicolon => inside.subset semicolon

theorem not_saysUnchanged_notStarted {command : String}
    (plain : ',' ∉ command.toList ∧ ';' ∉ command.toList) :
    ¬ SaysUnchanged (command ++ " could not be started") := by
  intro said
  have marked := mark_of_saysUnchanged said
  rw [String.toList_append, List.mem_append, List.mem_append] at marked
  rcases marked with (before | behind) | (before | behind)
  · exact plain.1 before
  · exact absurd behind (by decide)
  · exact plain.2 before
  · exact absurd behind (by decide)

theorem saysUnchanged_readBack (front : String) : SaysUnchanged (front ++ readBackUnchanged) :=
  SaysUnchanged.append_left ⟨readBackUnchanged, .head _, List.infix_rfl⟩ front

variable (command : String) (problem : Problem)

theorem saysUnchanged_refusalMessage {outcome : RunOutcome} (started : outcome.state ≠ .notStarted) :
    SaysUnchanged (refusalMessage command outcome) := by
  unfold refusalMessage
  cases state : outcome.state with
  | notStarted => exact absurd state started
  | interrupted =>
    dsimp only
    split
    · exact saysUnchanged_readBack (command ++ " did not finish within its deadline")
    · exact saysUnchanged_readBack (command ++ " was cancelled before it finished")
  | unknown => exact saysUnchanged_readBack (command ++ " ended without a reportable status")
  | completed =>
    dsimp only
    split
    · unfold gitRefusal
      dsimp only
      split
      · exact saysUnchanged_readBack _
      · exact saysUnchanged_readBack ("git refused the operation: " ++ diagnosticOf outcome)
    · exact saysUnchanged_readBack (command ++ " produced more output than the host will hold")

@[simp] theorem message_refusalProblem (outcome : RunOutcome) :
    (refusalProblem command outcome).message = refusalMessage command outcome := by
  unfold refusalProblem
  dsimp only
  split <;> rfl

@[simp] theorem claimsUnchanged_failed :
    ClaimsUnchanged (.failed problem) ↔ SaysUnchanged problem.message := by
  constructor
  · rintro ⟨other, same, said⟩
    cases same
    exact said
  · intro said
    exact ⟨problem, rfl, said⟩

@[simp] theorem claimsUnchanged_refused (operationId : String) (problem : Problem) :
    ClaimsUnchanged (refused operationId problem) ↔ SaysUnchanged problem.message :=
  claimsUnchanged_failed _

@[simp] theorem not_claimsUnchanged_succeeded (result : OperationResult) :
    ¬ ClaimsUnchanged (.succeeded result) := by
  rintro ⟨problem, same, -⟩
  cases same

@[simp] theorem not_claimsUnchanged_needsAttention :
    ¬ ClaimsUnchanged (.needsAttention problem) := by
  rintro ⟨other, same, -⟩
  cases same

@[simp] theorem not_claimsUnchanged_unknown (reason : String) (problem : Problem) :
    ¬ ClaimsUnchanged (.unknown reason problem) := by
  rintro ⟨other, same, -⟩
  cases same

end Words

section Verdicts

/-- The command was started, did not report a clean result, and the commit HEAD names and the
index were read back as they were. -/
structure JudgedUnchanged (outcome : RunOutcome) (before after : WriteFacts) : Prop where
  started : outcome.state ≠ .notStarted
  complained : cleanExit outcome = false
  head : after.head.oid = before.head.oid
  index : after.indexKey = before.indexKey

variable {command : String}

theorem silent_of_notStarted (silent : ¬ SaysUnchanged (command ++ " could not be started"))
    {outcome : RunOutcome} (unstarted : outcome.state = .notStarted) (summary : String) :
    ¬ ClaimsUnchanged (effectOutcome (.failed (refusalProblem command outcome)) summary none) := by
  have mute : refusalMessage command outcome = command ++ " could not be started" := by
    unfold refusalMessage
    rw [unstarted]
    rfl
  rw [effectOutcome, claimsUnchanged_failed, message_refusalProblem, mute]
  exact silent

theorem claimsUnchanged_classifyWrite
    (silent : ¬ SaysUnchanged (command ++ " could not be started")) (postcondition : Postcondition)
    (outcome : RunOutcome) (before : WriteFacts) (after : Option WriteFacts) (summary : String) :
    ClaimsUnchanged (effectOutcome (classifyWrite command postcondition outcome before after)
        summary none) ↔ ∃ facts, after = some facts ∧ JudgedUnchanged outcome before facts := by
  unfold classifyWrite
  by_cases unstarted : outcome.state = .notStarted
  · rw [if_pos unstarted]
    refine iff_of_false (silent_of_notStarted silent unstarted summary) ?_
    rintro ⟨_, _, judged⟩
    exact judged.started unstarted
  · rw [if_neg unstarted]
    by_cases clean : cleanExit outcome = true
    · rw [if_pos clean]
      refine iff_of_false ?_ ?_
      · unfold classifyClean
        split
        · simp [effectOutcome]
        · split <;> simp [effectOutcome]
      · rintro ⟨_, _, judged⟩
        simp [judged.complained] at clean
    · rw [if_neg clean]
      cases after with
      | none => simp [headMoved, effectOutcome]
      | some facts =>
        by_cases moved : facts.head.oid = before.head.oid
        · by_cases same : facts.indexKey = before.indexKey
          · have judged : JudgedUnchanged outcome before facts :=
              ⟨unstarted, by simpa using clean, moved, same⟩
            simp [headMoved, indexMoved, moved, same, effectOutcome, judged,
              saysUnchanged_refusalMessage command unstarted]
          · refine iff_of_false ?_ ?_
            · simp [headMoved, indexMoved, moved, same, effectOutcome]
            · rintro ⟨_, found, judged⟩
              cases found
              exact same judged.index
        · refine iff_of_false ?_ ?_
          · cases postcondition <;> simp [headMoved, moved, effectOutcome, classifyMoved]
          · rintro ⟨_, found, judged⟩
            cases found
            exact moved judged.head

end Verdicts

end Refyard
