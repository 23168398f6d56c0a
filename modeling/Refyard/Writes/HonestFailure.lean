import Refyard.Writes.Readback

/-! When the effects that replay or move history may be believed about a repository they say
is unchanged. -/
namespace Refyard

open Interaction

section Earlier
variable {answers : Nat → GitAnswer} {target : WriteTarget}

theorem Sequencer.plan_ne_status (state : Sequencer) : state.plan ≠ planStatus := by
  cases state <;> decide

theorem Sequencer.plan_inj {state other : Sequencer} : state.plan = other.plan ↔ state = other := by
  cases state <;> cases other <;> decide

variable {own : Sequencer}

theorem markerIn_standingProbes {states : List Sequencer} {n : Nat}
    (clear : NoneStands answers states n) (probed : own ∈ states) (rest : Exchanges) :
    markerIn own (standingProbes answers target states n ++ rest) = some false := by
  induction states generalizing n with
  | nil => cases probed
  | cons state states ih =>
    rw [noneStands_cons] at clear
    unfold standingProbes markerIn
    rw [List.cons_append, List.findSome?_cons]
    by_cases same : state = own
    · simp [same, clear.1]
    · have later : own ∈ states := (List.mem_cons.mp probed).resolve_left fun eq => same eq.symm
      simpa [Sequencer.plan_inj, same, markerIn] using ih clear.2 later

variable {host : WriteHost} {request : EffectRequest} {states : List Sequencer}
  {before : WriteFacts}

theorem factsIn_preparation (ready : Prepared answers host request states target before)
    (rest : Exchanges) : factsIn (preparation answers target states ++ rest) = some before := by
  simp [factsIn, preparation, ready.facts, Except.toOption]

theorem markerIn_preparation (ready : Prepared answers host request states target before)
    (probed : own ∈ states) (rest : Exchanges) :
    markerIn own (preparation answers target states ++ rest) = some false := by
  have skipped : markerIn own (preparation answers target states ++ rest) =
      markerIn own (standingProbes answers target states 1 ++ rest) := by
    simp [markerIn, preparation, own.plan_ne_status.symm]
  rw [skipped, markerIn_standingProbes ready.clear probed]

end Earlier

section Stops
variable (answers : Nat → GitAnswer)

/-- The command finished and complained, and its sequencer's marker, asked for next, stands. -/
def StopStands (outcome : RunOutcome) (n : Nat) : Prop :=
  finishedNonZero outcome = true ∧ probeOf (answers n) = some true

instance (outcome : RunOutcome) (n : Nat) : Decidable (StopStands answers outcome n) :=
  inferInstanceAs (Decidable (_ ∧ _))

/-- The stop is aborted, some answer to the abort comes, and nothing is read behind it. -/
def AbortUnseen (counts : Bool) (n : Nat) : Prop :=
  if counts then
    (conflictedCountOf (answers (n + 1))).getD 0 = 0 ∧ (probeOf (answers (n + 2))).isSome
  else (probeOf (answers (n + 1))).isSome

def markerProbe (target : WriteTarget) (own : Sequencer) (outcome : RunOutcome) (n : Nat) :
    Exchanges :=
  if finishedNonZero outcome then [(target.command own.plan, answers n)] else []

/-- How a stop is judged: passed over when the marker does not stand, and otherwise the end
of the effect. -/
structure JudgesStop (target : WriteTarget) (own : Sequencer) (counts : Bool)
    (judge : RunOutcome → Effect Unit) : Prop where
  passes : ∀ outcome n, ¬ StopStands answers outcome n →
    run answers (judge outcome) n = ⟨markerProbe answers target own outcome n, .ok ()⟩
  stops : ∀ outcome n, StopStands answers outcome n →
    ∃ exchanges exit, run answers (judge outcome) n = ⟨exchanges, .error exit⟩ ∧
      (ClaimsUnchanged exit ↔ AbortUnseen answers counts n) ∧ (AbortUnseen answers counts n →
        ∃ front last, exchanges = front ++ [last] ∧ ¬ OnlyReads last.1)

variable {answers}

theorem run_abortStop (operationId : String) (target : WriteTarget) (abort : GitPlan)
    (unconfirmed : EffectOutcome) (message : String) (n : Nat) :
    run answers (abortStop operationId target abort unconfirmed message) n =
      ⟨[(target.command abort, answers n)],
        .error (if (probeOf (answers n)).isSome then refused operationId (.new .conflict message)
          else unconfirmed)⟩ := by
  unfold abortStop probe
  rw [run_askFor_bind]
  cases probeOf (answers n) <;> rfl

variable {operationId : String} {unconfirmed : EffectOutcome} (target : WriteTarget)

theorem claimsUnchanged_abort {message : String} (claims : SaysUnchanged message)
    (silent : ¬ ClaimsUnchanged unconfirmed) (answered : Bool) :
    ClaimsUnchanged (if answered then refused operationId (.new .conflict message)
      else unconfirmed) ↔ answered = true := by
  cases answered with
  | false => simpa using silent
  | true => simpa [Problem.new] using claims

theorem run_conflictsOr (conflicts : Nat → EffectOutcome) (abort : Effect Unit) (n : Nat) :
    run answers (conflictsOr target conflicts abort) n =
      (if 0 < (conflictedCountOf (answers n)).getD 0 then
        ⟨[], .error (conflicts ((conflictedCountOf (answers n)).getD 0))⟩
      else run answers abort (n + 1)).prepend
        [(target.command planLsFilesUnmerged, answers n)] := by
  unfold conflictsOr conflictedCount
  rw [run_askFor_bind]
  by_cases conflicted : 0 < (conflictedCountOf (answers n)).getD 0
  · rw [if_pos conflicted, if_pos conflicted]
    rfl
  · rw [if_neg conflicted, if_neg conflicted]

variable (own : Sequencer) {outcome : RunOutcome} {n : Nat} {abort : GitPlan}
  {message : RunOutcome → String}

theorem run_whenStopped_passes (stop : Effect Unit) (passes : ¬ StopStands answers outcome n) :
    run answers (whenStopped target own outcome stop) n =
      ⟨markerProbe answers target own outcome n, .ok ()⟩ := by
  unfold whenStopped probe markerProbe
  by_cases complained : finishedNonZero outcome = true
  · have absent : probeOf (answers n) ≠ some true := fun stands => passes ⟨complained, stands⟩
    rw [if_pos complained, if_pos complained, run_askFor_bind, if_neg absent]
    rfl
  · rw [if_neg complained, if_neg complained]
    rfl

theorem run_whenStopped_stops (stop : Effect Unit) (stands : StopStands answers outcome n) :
    run answers (whenStopped target own outcome stop) n =
      (run answers stop (n + 1)).prepend [(target.command own.plan, answers n)] := by
  unfold whenStopped probe
  rw [if_pos stands.1, run_askFor_bind, if_pos stands.2]

theorem judges_abort {target : WriteTarget} {own : Sequencer} (changes : abort.readOnly = false)
    (claims : ∀ outcome, SaysUnchanged (message outcome)) (silent : ¬ ClaimsUnchanged unconfirmed) :
    JudgesStop answers target own false fun outcome =>
      whenStopped target own outcome
        (abortStop operationId target abort unconfirmed (message outcome)) where
  passes _ _ passes := run_whenStopped_passes target own _ passes
  stops outcome n stands := by
    rw [run_whenStopped_stops target own _ stands, run_abortStop]
    refine ⟨_, _, rfl, ?_, fun _ => ?_⟩
    · rw [claimsUnchanged_abort (claims outcome) silent]
      simp [AbortUnseen]
    · exact ⟨[_], (target.command abort, answers (n + 1)), rfl, by simp [OnlyReads, changes]⟩

theorem judges_conflictsOr {target : WriteTarget} {own : Sequencer}
    {conflicts : RunOutcome → Nat → EffectOutcome} (changes : abort.readOnly = false)
    (claims : ∀ outcome, SaysUnchanged (message outcome)) (silent : ¬ ClaimsUnchanged unconfirmed)
    (alsoSilent : ∀ outcome count, ¬ ClaimsUnchanged (conflicts outcome count)) :
    JudgesStop answers target own true fun outcome =>
      whenStopped target own outcome (conflictsOr target (conflicts outcome)
        (abortStop operationId target abort unconfirmed (message outcome))) where
  passes _ _ passes := run_whenStopped_passes target own _ passes
  stops outcome n stands := by
    rw [run_whenStopped_stops target own _ stands, run_conflictsOr]
    by_cases counted : 0 < (conflictedCountOf (answers (n + 1))).getD 0
    · have none_unseen : ¬ AbortUnseen answers true n := by
        rintro ⟨zero, -⟩
        omega
      rw [if_pos counted]
      exact ⟨_, _, rfl, iff_of_false (alsoSilent outcome _) none_unseen,
        fun unseen => absurd unseen none_unseen⟩
    · have zero : (conflictedCountOf (answers (n + 1))).getD 0 = 0 := by omega
      rw [if_neg counted, run_abortStop]
      refine ⟨_, _, rfl, ?_, fun _ => ?_⟩
      · rw [claimsUnchanged_abort (claims outcome) silent]
        simp [AbortUnseen, zero]
      · exact ⟨[_, _], (target.command abort, answers (n + 2)), rfl, by simp [OnlyReads, changes]⟩

end Stops

section Tail

def replayTail (operationId : String) (target : WriteTarget) (plan : GitPlan)
    (judge : RunOutcome → Effect Unit) (refusal : RunOutcome → Option String)
    (conclude : RunOutcome → Option WriteFacts → EffectOutcome) : Effect EffectOutcome := do
  let outcome ← orRefuse operationId (← tryRun target plan)
  judge outcome
  match refusal outcome with
  | some message => refuse operationId .conflict message
  | none => do
      let after ← readBack target
      pure (conclude outcome after)

/-- Where the status behind the command is read: behind the marker's probe, if that was made. -/
def readBackAt (outcome : RunOutcome) (n : Nat) : Nat :=
  if finishedNonZero outcome then n + 2 else n + 1

/-- Every sequencer state that counts was asked for again and does not stand. -/
def MarkersSeen (markers : List Sequencer) (own : Sequencer) (outcome : RunOutcome)
    (answer : GitAnswer) : Prop :=
  ∀ state ∈ markers, state = own ∧ finishedNonZero outcome = true ∧ probeOf answer = some false

/-- The command's outcome says unchanged, and what was read does not bear it out. -/
def JudgedAmiss (markers : List Sequencer) (own : Sequencer) (before : WriteFacts)
    (outcome : RunOutcome) (answers : Nat → GitAnswer) (n : Nat) : Prop :=
  ∃ after, factsOf (answers (readBackAt outcome n)) = .ok after ∧
    JudgedUnchanged outcome before after ∧
      ¬ (after.head = before.head ∧ after.indexKey = before.indexKey ∧
        MarkersSeen markers own outcome (answers (n + 1)))

/-- With which answers from its command on, the `n`th, a replaying effect says that the
repository is unchanged without having read it: the executor's own words say it, a stop is
aborted, Git's quoted words say it, or the read-back leaves something out. -/
def ReplayMisreports (markers : List Sequencer) (own : Sequencer) (counts : Bool)
    (refusal : RunOutcome → Option String) (before : WriteFacts) (answers : Nat → GitAnswer)
    (n : Nat) : Prop :=
  match answers n with
  | .error problem => SaysUnchanged problem.message
  | .ok outcome =>
      if StopStands answers outcome (n + 1) then AbortUnseen answers counts (n + 1)
      else
        match refusal outcome with
        | some message => SaysUnchanged message
        | none => JudgedAmiss markers own before outcome answers n

variable {answers : Nat → GitAnswer} {target : WriteTarget}
variable (own : Sequencer)
variable (outcome : RunOutcome) {markers : List Sequencer} {before : WriteFacts}
  {earlier : Exchanges} {n : Nat}

theorem add_length_markerProbe (n : Nat) :
    n + 1 + (markerProbe answers target own outcome (n + 1)).length = readBackAt outcome n := by
  unfold markerProbe readBackAt
  split <;> rfl

theorem onlyReads_markerProbe (n : Nat) :
    ∀ exchange ∈ markerProbe answers target own outcome n, OnlyReads exchange.1 := by
  unfold markerProbe
  intro exchange member
  split at member
  · rw [List.mem_singleton] at member
    exact member ▸ own.readOnly_plan
  · cases member

theorem factsIn_markerProbe (n : Nat) :
    factsIn (markerProbe answers target own outcome n) = none := by
  unfold markerProbe factsIn
  split
  · simp [own.plan_ne_status]
  · rfl

/-- What is read behind a command that stopped nowhere: its marker, if it complained, and the
status. -/
def readBehind (answers : Nat → GitAnswer) (target : WriteTarget) (own : Sequencer)
    (outcome : RunOutcome) (n : Nat) : Exchanges :=
  markerProbe answers target own outcome (n + 1) ++
    [(target.command planStatus, answers (readBackAt outcome n))]

theorem onlyReads_readBehind (n : Nat) :
    ∀ exchange ∈ readBehind answers target own outcome n, OnlyReads exchange.1 := by
  unfold readBehind
  intro exchange member
  rw [List.mem_append, List.mem_singleton] at member
  cases member with
  | inl probed => exact onlyReads_markerProbe own outcome (n + 1) exchange probed
  | inr status => exact status ▸ readOnly_planStatus

theorem factsIn_readBehind (n : Nat) : factsIn (readBehind answers target own outcome n) =
      (factsOf (answers (readBackAt outcome n))).toOption := by
  have skipped : factsIn (markerProbe answers target own outcome (n + 1)) = none :=
    factsIn_markerProbe own outcome (n + 1)
  unfold readBehind
  unfold factsIn at skipped ⊢
  rw [List.findSome?_append, skipped]
  simp

theorem markerIn_readBehind (state own : Sequencer) (outcome : RunOutcome) (n : Nat) :
    markerIn state (readBehind answers target own outcome n) =
      if state = own ∧ finishedNonZero outcome = true then probeOf (answers (n + 1)) else none := by
  unfold readBehind markerProbe markerIn
  by_cases complained : finishedNonZero outcome = true
  · by_cases same : state = own
    · cases probed : probeOf (answers (n + 1)) <;>
        simp [complained, same, probed, own.plan_ne_status.symm]
    · have other : own.plan ≠ state.plan := fun eq => same (Sequencer.plan_inj.mp eq).symm
      simp [complained, same, other, state.plan_ne_status.symm]
  · simp [complained, state.plan_ne_status.symm]

/-- The two sides of such a command agree exactly if the status reads the same HEAD and index
and every sequencer state that counts was read again. -/
theorem sameState_readBehind {own : Sequencer} {outcome : RunOutcome}
    (facts : factsIn earlier = some before) (marker : markerIn own earlier = some false) :
    SameState markers earlier (readBehind answers target own outcome n) ↔
      ∃ after, factsOf (answers (readBackAt outcome n)) = .ok after ∧
        after.head = before.head ∧ after.indexKey = before.indexKey ∧
          MarkersSeen markers own outcome (answers (n + 1)) := by
  constructor
  · rintro ⟨⟨first, after, found, read, head, index⟩, sequencer⟩
    rw [facts] at found
    cases found
    rw [factsIn_readBehind] at read
    refine ⟨after, toOption_eq_some.mp read, head, index, ?_⟩
    intro state counts
    obtain ⟨standing, was, is⟩ := sequencer state counts
    rw [markerIn_readBehind] at is
    split at is
    · rename_i seen
      rw [seen.1, marker] at was
      cases was
      exact ⟨seen.1, seen.2, is⟩
    · cases is
  · rintro ⟨after, read, head, index, seen⟩
    refine ⟨⟨before, after, facts, ?_, head, index⟩, ?_⟩
    · rw [factsIn_readBehind, read]
      rfl
    · intro state counts
      obtain ⟨same, complained, absent⟩ := seen state counts
      refine ⟨false, same ▸ marker, ?_⟩
      rw [markerIn_readBehind, if_pos ⟨same, complained⟩, absent]

/-- A replaying effect, prepared by reads, is honest about its failure exactly if it does not
come to one of the reports that nothing bears out. -/
theorem replayTail_honest_iff {own : Sequencer} {counts : Bool} {operationId : String}
    {plan : GitPlan} {judge : RunOutcome → Effect Unit} {refusal : RunOutcome → Option String}
    {conclude : RunOutcome → Option WriteFacts → EffectOutcome}
    (readEarlier : ∀ exchange ∈ earlier, OnlyReads exchange.1)
    (facts : factsIn earlier = some before) (marker : markerIn own earlier = some false)
    (changes : plan.readOnly = false) (judges : JudgesStop answers target own counts judge)
    (concluded : ∀ outcome after, ClaimsUnchanged (conclude outcome after) ↔
      ∃ facts, after = some facts ∧ JudgedUnchanged outcome before facts) :
    HonestFailure markers ((run answers
        (replayTail operationId target plan judge refusal conclude) n).prepend earlier) ↔
      ¬ ReplayMisreports markers own counts refusal before answers n := by
  have command : ¬ OnlyReads (target.command plan) := by
    simp [OnlyReads, changes]
  unfold replayTail tryRun ReplayMisreports
  rw [run_askFor_bind]
  cases answered : answers n with
  | error problem =>
    have ended : HonestFailure markers ⟨earlier ++ [(target.command plan, .error problem)],
        .error (refused operationId problem)⟩ ↔ ¬ ClaimsUnchanged (refused operationId problem) :=
      honestFailure_unread readEarlier (List.forall_mem_nil _) command rfl
    rw [claimsUnchanged_refused] at ended
    exact ended
  | ok outcome =>
    dsimp only [id]
    rw [orRefuse_ok, done_bind]
    by_cases stands : StopStands answers outcome (n + 1)
    · obtain ⟨exchanges, exit, ran, claims, last⟩ := judges.stops outcome (n + 1) stands
      rw [run_bind_of_error answers ran, if_pos stands]
      by_cases unseen : AbortUnseen answers counts (n + 1)
      · obtain ⟨front, last, rfl, changed⟩ := last unseen
        exact (honestFailure_last readEarlier command changed).trans (not_congr claims)
      · exact iff_of_true (honestFailure_of_silent fun said => unseen (claims.mp said)) unseen
    · rw [run_bind_of_ok answers (judges.passes outcome (n + 1) stands), if_neg stands]
      cases refuses : refusal outcome with
      | some message =>
        have ended : HonestFailure markers
            ⟨earlier ++ (target.command plan, .ok outcome) ::
                markerProbe answers target own outcome (n + 1),
              .error (refused operationId (.new .conflict message))⟩ ↔
              ¬ ClaimsUnchanged (refused operationId (.new .conflict message)) :=
          honestFailure_unread readEarlier (onlyReads_markerProbe own outcome (n + 1)) command
            (factsIn_markerProbe own outcome (n + 1))
        rw [claimsUnchanged_refused] at ended
        simpa [refuse, Problem.new] using ended
      | none =>
        have ended : HonestFailure markers
            ⟨earlier ++ (target.command plan, .ok outcome) :: readBehind answers target own outcome n,
              .ok (conclude outcome (factsOf (answers (readBackAt outcome n))).toOption)⟩ ↔
              ¬ JudgedAmiss markers own before outcome answers n := by
          rw [honestFailure_command readEarlier (onlyReads_readBehind own outcome n) command,
            sameState_readBehind facts marker]
          exact borneOut_iff (concluded outcome _)
        simpa [readBack, readBehind, add_length_markerProbe] using ended

end Tail

end Refyard
