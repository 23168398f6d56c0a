import Refyard.GitCore.Network

/-! When the network workflows tell what became of the repository. -/
namespace Refyard.GitCore
open Interaction

def GitRunResult.cutOff (result : GitRunResult) : Bool :=
  result.termination == .timeout || result.termination == .signal ||
    result.termination == .outputLimit

def GitRunResult.leftAlone (result : GitRunResult) : Bool :=
  result.termination == .spawnError ||
    (result.termination == .exit && result.exitCode != some 0)

def fetches (spec : GitCommandSpec) : Bool := spec.argv.head? == some "fetch"

def merges (spec : GitCommandSpec) : Bool := spec.argv.head? == some "merge"

def configures (spec : GitCommandSpec) : Bool :=
  spec.argv.head? == some "remote" &&
    ["add", "set-url", "rename", "remove"].contains ((spec.argv[1]?).getD "")

def mutates (spec : GitCommandSpec) : Bool :=
  fetches spec || merges spec || configures spec || spec.argv.head? == some "push"

abbrev EngineExchanges := List (GitCommandSpec × GitRunResult)

def resultsOf (kind : GitCommandSpec → Bool) (exchanges : EngineExchanges) : List GitRunResult :=
  (exchanges.filter fun exchange => kind exchange.1).map Prod.snd

inductive OutcomeKind where
  | done | partly | refused | uncertain

structure Report where
  kind : OutcomeKind
  branchMoved : Option Bool := none

def CommandOutcome.report : CommandOutcome → Report
  | .done => { kind := .done }
  | .refused _ => { kind := .refused }

def NetworkOutcome.report {α : Type} (branchMoved : α → Option Bool) : NetworkOutcome α → Report
  | .done result => { kind := .done, branchMoved := branchMoved result }
  | .partly result _ => { kind := .partly, branchMoved := branchMoved result }
  | .refused _ => { kind := .refused }
  | .uncertain _ => { kind := .uncertain }

inductive NetworkWorkflow where
  | addRemote (input : AddRemoteInput)
  | updateRemote (input : UpdateRemoteInput)
  | fetchRemote (input : FetchInput)
  | pushRef (input : PushInput)
  | pullFastForward (input : PullInput)

def NetworkWorkflow.program (context : PlanContext) : NetworkWorkflow → Workflow Report
  | .addRemote input => do
      let outcome ← GitCore.addRemote context input
      pure outcome.report
  | .updateRemote input => do
      let outcome ← GitCore.updateRemote context input
      pure outcome.report
  | .fetchRemote input => do
      let outcome ← GitCore.fetchRemote context input
      pure (outcome.report fun _ => none)
  | .pushRef input => do
      let outcome ← GitCore.pushRef context input
      pure (outcome.report fun _ => none)
  | .pullFastForward input => do
      let outcome ← GitCore.pullFastForward context input
      pure (outcome.report fun result => some result.branchMoved)

def reportOf (transcript : Transcript GitCommandSpec GitRunResult Empty Report) : Report :=
  match transcript.ending with
  | .ok report => report
  | .error never => never.elim

def Touched (exchanges : EngineExchanges) : Prop :=
  ∃ result ∈ resultsOf mutates exchanges, result.completed = true ∨ result.cutOff = true

/-- A refusal leaves everything as it was; what was done in part is told as such; and of the
branch a pull tells what became of it, and that it did not move only where that is known. -/
structure Honest (exchanges : EngineExchanges) (report : Report) : Prop where
  refused : report.kind = .refused → ¬ Touched exchanges
  told : Touched exchanges → (∃ result ∈ resultsOf mutates exchanges, result.completed = false) →
    report.kind = .partly ∨ report.kind = .uncertain
  moved : ∀ moved, report.branchMoved = some moved →
    (moved = true ↔ ∃ result ∈ resultsOf merges exchanges, result.movedBranch = true) ∧
      (moved = false → ∀ result ∈ resultsOf merges exchanges, result.leftAlone = true)

def StepsHold (results : List GitRunResult) : Prop :=
  (∀ result ∈ results, result.completed = true) ∨ ∃ only, results = [only] ∧ only.cutOff = false

def FetchHolds (result : GitRunResult) : Prop :=
  result.cutOff = true → parseFetchPorcelain result.stdout = none

def PushHolds (result : GitRunResult) : Prop :=
  result.cutOff = true → ∀ parsed, parsePushPorcelain result.stdout = some parsed →
    0 < parsed.refs.length

def MergeHolds (result : GitRunResult) : Prop :=
  if result.completed then result.movedBranch = true
  else result.leftAlone = true ∧ result.movedBranch = false

def NetworkWorkflow.Holds (exchanges : EngineExchanges) : NetworkWorkflow → Prop
  | .addRemote _ | .updateRemote _ => StepsHold (resultsOf mutates exchanges)
  | .fetchRemote _ => ∀ result ∈ resultsOf mutates exchanges, FetchHolds result
  | .pushRef _ => ∀ result ∈ resultsOf mutates exchanges, PushHolds result
  | .pullFastForward _ =>
      (∀ result ∈ resultsOf fetches exchanges, FetchHolds result) ∧
        ∀ result ∈ resultsOf merges exchanges, MergeHolds result

/-! Which commands change what. -/

theorem resultsOf_cons (kind : GitCommandSpec → Bool) (spec : GitCommandSpec)
    (result : GitRunResult) (rest : EngineExchanges) : resultsOf kind ((spec, result) :: rest) =
      if kind spec then result :: resultsOf kind rest else resultsOf kind rest := by
  unfold resultsOf
  rw [List.filter_cons]
  split <;> rfl

section Kinds
variable (context : PlanContext)

variable (input : FetchInput) (branchName ref : String)

@[simp] theorem mutates_planFetch : mutates (planFetch context input) = true :=
  rfl

@[simp] theorem mutates_planPush (input : PushInput) : mutates (planPush context input) = true :=
  rfl

end Kinds

section Steps
variable (answers : Nat → GitRunResult)

def runSteps : List GitCommandSpec → Workflow CommandOutcome
  | [] => pure .done
  | spec :: rest => do
      let outcome ← runQuiet spec
      match outcome with
      | .refused failure => pure (.refused failure)
      | .done => runSteps rest

theorem runQuiet_eq (spec : GitCommandSpec) : runQuiet spec = runSteps [spec] := by
  change ask spec _ = ask spec _
  congr 1
  funext result
  change done (quietOutcome result) = match quietOutcome result with
    | .refused failure => done (.refused failure)
    | .done => done .done
  cases quietOutcome result <;> rfl

variable (context : PlanContext) {specs : List GitCommandSpec}

theorem addRemote_eq (input : AddRemoteInput) :
    addRemote context input = runSteps (planRemoteAdd context input.name input.fetchUrl ::
        input.pushUrl.toList.map (planRemoteSetUrl context input.name · true)) := by
  change (runQuiet _ >>= _) = (runQuiet _ >>= _)
  congr 1
  funext added
  cases added with
  | refused failure => rfl
  | done =>
    cases input.pushUrl with
    | none => rfl
    | some url => exact runQuiet_eq _

theorem runAsked_bind (plan : String → GitCommandSpec) (asked : Option String)
    (rest : List GitCommandSpec) : (runAsked plan asked >>= fun outcome =>
        match outcome with
        | .refused failure => (pure (.refused failure) : Workflow CommandOutcome)
        | .done => runSteps rest) = runSteps (asked.toList.map plan ++ rest) := by
  cases asked <;> rfl

theorem updateRemote_eq (input : UpdateRemoteInput) : updateRemote context input =
      runSteps (input.newName.toList.map (planRemoteRename context input.name) ++
        (input.fetchUrl.toList.map
            (planRemoteSetUrl context (input.newName.getD input.name) · false) ++
          input.pushUrl.toList.map
            (planRemoteSetUrl context (input.newName.getD input.name) · true))) := by
  unfold updateRemote
  rw [← runAsked_bind]
  congr 1
  funext renamed
  cases renamed with
  | refused failure => rfl
  | done =>
    rw [← runAsked_bind]
    change (runAsked _ _ >>= _) = (runAsked _ _ >>= _)
    congr 1
    funext set
    cases set with
    | refused failure => rfl
    | done =>
      cases input.pushUrl with
      | none => rfl
      | some url => exact runQuiet_eq _

theorem runSteps_cases (all : ∀ spec ∈ specs, mutates spec = true) (n : Nat) :
    ((run answers (runSteps specs) n).ending = .ok .done ∧
        ∀ result ∈ resultsOf mutates (run answers (runSteps specs) n).exchanges,
          result.completed = true) ∨
      ∃ failure front last, (run answers (runSteps specs) n).ending = .ok (.refused failure) ∧
        resultsOf mutates (run answers (runSteps specs) n).exchanges = front ++ [last] ∧
        (∀ result ∈ front, result.completed = true) ∧ last.completed = false := by
  induction specs generalizing n with
  | nil => exact .inl ⟨rfl, fun _ none => absurd none List.not_mem_nil⟩
  | cons spec rest ih =>
    rw [List.forall_mem_cons] at all
    have asked : run answers (runSteps (spec :: rest)) n =
        (run answers (match quietOutcome (answers n) with
          | .refused failure => (pure (.refused failure) : Workflow CommandOutcome)
          | .done => runSteps rest) (n + 1)).prepend [(spec, answers n)] := rfl
    rw [asked]
    cases completed : (answers n).completed with
    | false =>
      rw [show quietOutcome (answers n) = .refused (failureOf (answers n)) by
        rw [quietOutcome, completed, if_neg Bool.false_ne_true]]
      refine .inr ⟨failureOf (answers n), [], answers n, rfl, ?_,
        fun _ none => absurd none List.not_mem_nil, completed⟩
      change resultsOf mutates [(spec, answers n)] = _
      rw [resultsOf_cons, if_pos all.1]
      rfl
    | true =>
      rw [show quietOutcome (answers n) = .done by rw [quietOutcome, completed, if_pos rfl]]
      rw [Transcript.ending_prepend, Transcript.exchanges_prepend, List.singleton_append,
        resultsOf_cons, if_pos all.1]
      obtain ⟨ending, done⟩ | ⟨failure, front, last, ending, results, done, failed⟩ := ih all.2 (n + 1)
      · exact .inl ⟨ending, List.forall_mem_cons.mpr ⟨completed, done⟩⟩
      · exact .inr ⟨failure, answers n :: front, last, ending, by rw [results]; rfl,
          List.forall_mem_cons.mpr ⟨completed, done⟩, failed⟩

theorem not_cutOff_of_completed {result : GitRunResult} (completed : result.completed = true) :
    result.cutOff = false := by
  rw [GitRunResult.completed, Bool.and_eq_true, beq_iff_eq] at completed
  rw [GitRunResult.cutOff, completed.1]
  rfl

theorem run_reported {α : Type} {program : Workflow α} {n : Nat} {outcome : α}
    (ended : (run answers program n).ending = .ok outcome) (report : α → Report) :
    (run answers (program >>= fun outcome => pure (report outcome)) n).exchanges =
        (run answers program n).exchanges ∧
      reportOf (run answers (program >>= fun outcome => pure (report outcome)) n) =
        report outcome := by
  have ran : run answers program n = ⟨(run answers program n).exchanges, .ok outcome⟩ := by
    rw [← ended]
  rw [run_bind_of_ok answers ran]
  exact ⟨List.append_nil _, rfl⟩

theorem honest_runSteps_iff (all : ∀ spec ∈ specs, mutates spec = true) :
    let transcript := run answers (do
      let outcome ← runSteps specs
      pure outcome.report) 0
    Honest transcript.exchanges (reportOf transcript) ↔
      StepsHold (resultsOf mutates transcript.exchanges) := by
  dsimp only
  obtain ⟨ending, done⟩ | ⟨failure, front, last, ending, results, done, failed⟩ :=
    runSteps_cases answers all 0
  · obtain ⟨exchanges, report⟩ := run_reported answers ending CommandOutcome.report
    rw [exchanges, report]
    refine iff_of_true ⟨nofun, ?_, nofun⟩ (.inl done)
    rintro - ⟨result, member, failed⟩
    rw [done result member] at failed
    cases failed
  · obtain ⟨exchanges, report⟩ := run_reported answers ending CommandOutcome.report
    rw [exchanges, report, results]
    constructor
    · rintro ⟨untouched, -, -⟩
      have clean := untouched rfl
      rw [Touched, results] at clean
      cases front with
      | nil =>
        refine .inr ⟨last, rfl, Bool.eq_false_iff.mpr fun cutOff => clean ?_⟩
        exact ⟨last, List.mem_cons_self, .inr cutOff⟩
      | cons first rest =>
        exact absurd ⟨first, List.mem_cons_self, .inl (done first List.mem_cons_self)⟩ clean
    · rintro (completed | ⟨only, single, plain⟩)
      · rw [completed last (by simp)] at failed
        cases failed
      · obtain ⟨rfl, same⟩ := List.append_eq_singleton_iff.mp single |>.resolve_right (by simp)
        obtain rfl := List.singleton_inj.mp same
        have clean : ¬ Touched (run answers (runSteps specs) 0).exchanges := by
          rw [Touched, results]
          rintro ⟨result, member, completed | cutOff⟩
          · rw [List.nil_append, List.mem_singleton] at member
            rw [member, failed] at completed
            cases completed
          · rw [List.nil_append, List.mem_singleton] at member
            rw [member, plain] at cutOff
            cases cutOff
        exact ⟨fun _ => clean, fun touched => absurd touched clean, nofun⟩

end Steps

section Contacts
variable (answers : Nat → GitRunResult) (context : PlanContext)

def contact {α : Type} (name : String) (direction : Direction) (spec : GitCommandSpec)
    (outcomeOf : GitRunResult → NetworkOutcome α) : Workflow (NetworkOutcome α) := do
  let safety ← checkConfiguredRemote context name direction
  match safety with
  | some failure => pure (.refused failure)
  | none => .askFor spec outcomeOf

theorem fetchRemote_eq (input : FetchInput) : fetchRemote context input =
      contact context input.remoteName .fetch (planFetch context input) fetchOutcome := rfl

variable {α : Type} {result : GitRunResult}

theorem run_contact (name : String) (direction : Direction) (spec : GitCommandSpec)
    (outcomeOf : GitRunResult → NetworkOutcome α) (n : Nat) :
    (∃ failure, run answers (contact context name direction spec outcomeOf) n =
        ⟨[(planRemotes context, answers n)], .ok (.refused failure)⟩) ∨
      run answers (contact context name direction spec outcomeOf) n =
        ⟨[(planRemotes context, answers n), (spec, answers (n + 1))],
          .ok (outcomeOf (answers (n + 1)))⟩ := by
  unfold contact checkConfiguredRemote
  rw [run_askFor_bind]
  cases remoteRefusal name direction (answers n) with
  | some failure => exact .inl ⟨failure, rfl⟩
  | none => exact .inr rfl

theorem cutOff_of_touched (touched : result.completed = true ∨ result.cutOff = true)
    (failed : result.completed = false) : result.cutOff = true := by
  rw [failed] at touched
  exact touched.resolve_left Bool.false_ne_true

theorem failed_of_cutOff (cutOff : result.cutOff = true) : result.completed = false := by
  rw [Bool.eq_false_iff]
  intro completed
  rw [not_cutOff_of_completed completed] at cutOff
  cases cutOff

variable {exchanges : EngineExchanges}

theorem honest_single_iff {report : Report} (one : resultsOf mutates exchanges = [result])
    (silent : report.branchMoved = none) : Honest exchanges report ↔
      (report.kind = .refused → result.completed = false ∧ result.cutOff = false) ∧
        (result.cutOff = true → report.kind = .partly ∨ report.kind = .uncertain) := by
  constructor
  · rintro ⟨refused, told, -⟩
    rw [Touched, one] at refused told
    constructor
    · intro kind
      have clean := refused kind
      exact ⟨Bool.eq_false_iff.mpr fun completed =>
          clean ⟨result, List.mem_singleton_self _, .inl completed⟩,
        Bool.eq_false_iff.mpr fun cutOff => clean ⟨result, List.mem_singleton_self _, .inr cutOff⟩⟩
    · intro cutOff
      exact told ⟨result, List.mem_singleton_self _, .inr cutOff⟩
        ⟨result, List.mem_singleton_self _, failed_of_cutOff cutOff⟩
  · rintro ⟨refused, told⟩
    refine ⟨?_, ?_, fun moved said => by rw [silent] at said; cases said⟩
    · intro kind
      rw [Touched, one]
      rintro ⟨other, member, touched⟩
      rw [List.mem_singleton.mp member, (refused kind).1, (refused kind).2] at touched
      exact touched.elim Bool.false_ne_true Bool.false_ne_true
    · rw [Touched, one]
      rintro ⟨other, member, touched⟩ ⟨another, alsoMember, failed⟩
      rw [List.mem_singleton.mp member] at touched
      rw [List.mem_singleton.mp alsoMember] at failed
      exact told (cutOff_of_touched touched failed)

theorem honest_nothing {report : Report} (none_ : resultsOf mutates exchanges = [])
    (silent : report.branchMoved = none) : Honest exchanges report := by
  have clean : ¬ Touched exchanges := by
    rw [Touched, none_]
    rintro ⟨result, member, -⟩
    cases member
  exact ⟨fun _ => clean, fun touched => absurd touched clean,
    fun moved said => by rw [silent] at said; cases said⟩

theorem silent_report (outcome : NetworkOutcome α) :
    (outcome.report fun _ => none).branchMoved = none := by
  cases outcome <;> rfl

theorem fetchHolds_iff (result : GitRunResult) :
    (((fetchOutcome result).report fun _ => none).kind = .refused →
        result.completed = false ∧ result.cutOff = false) ∧
      (result.cutOff = true → ((fetchOutcome result).report fun _ => none).kind = .partly ∨
        ((fetchOutcome result).report fun _ => none).kind = .uncertain) ↔ FetchHolds result := by
  unfold fetchOutcome FetchHolds
  cases parseFetchPorcelain result.stdout with
  | none => simp [NetworkOutcome.report]
  | some parsed =>
    cases completed : result.completed with
    | true => simp [NetworkOutcome.report, not_cutOff_of_completed completed]
    | false => simp [NetworkOutcome.report]

theorem pushHolds_iff (result : GitRunResult) :
    (((pushOutcome result).report fun _ => none).kind = .refused →
        result.completed = false ∧ result.cutOff = false) ∧
      (result.cutOff = true → ((pushOutcome result).report fun _ => none).kind = .partly ∨
        ((pushOutcome result).report fun _ => none).kind = .uncertain) ↔ PushHolds result := by
  unfold pushOutcome PushHolds
  cases parsePushPorcelain result.stdout with
  | none => simp [NetworkOutcome.report]
  | some parsed =>
    cases completed : result.completed with
    | true => simp [NetworkOutcome.report, not_cutOff_of_completed completed]
    | false =>
      by_cases named : 0 < parsed.refs.length
      · simp [NetworkOutcome.report, named]
      · simp [NetworkOutcome.report, named]

theorem honest_contact_iff (name : String) (direction : Direction) {spec : GitCommandSpec}
    (changes : mutates spec = true) (outcomeOf : GitRunResult → NetworkOutcome α)
    {holds : GitRunResult → Prop}
    (holds_iff : ∀ result, (((outcomeOf result).report fun _ => none).kind = .refused →
        result.completed = false ∧ result.cutOff = false) ∧
      (result.cutOff = true → ((outcomeOf result).report fun _ => none).kind = .partly ∨
        ((outcomeOf result).report fun _ => none).kind = .uncertain) ↔ holds result) :
    let transcript := run answers (do
      let outcome ← contact context name direction spec outcomeOf
      pure (outcome.report fun _ => none)) 0
    Honest transcript.exchanges (reportOf transcript) ↔
      ∀ result ∈ resultsOf mutates transcript.exchanges, holds result := by
  dsimp only
  obtain ⟨failure, ran⟩ | ran := run_contact answers context name direction spec outcomeOf 0
  · obtain ⟨exchanges, report⟩ := run_reported answers (congrArg Transcript.ending ran)
      fun outcome => outcome.report fun _ => none
    rw [exchanges, report, ran]
    exact iff_of_true (honest_nothing rfl rfl) fun _ none => absurd none List.not_mem_nil
  · obtain ⟨exchanges, report⟩ := run_reported answers (congrArg Transcript.ending ran)
      fun outcome => outcome.report fun _ => none
    have one : resultsOf mutates [(planRemotes context, answers 0), (spec, answers 1)] =
        [answers 1] := by
      rw [resultsOf_cons, resultsOf_cons, changes]
      rfl
    rw [exchanges, report, ran, honest_single_iff one (silent_report _), holds_iff, one,
      List.forall_mem_singleton]

end Contacts

section Pulls
variable (answers : Nat → GitRunResult) (context : PlanContext)

theorem mergeBehind_cases (upstreamRef : String) (fetched : GitRunResult) :
    (∃ outcome, mergeBehind context upstreamRef (fetchOutcome fetched) = pure outcome ∧
        outcome.report (fun result => some result.branchMoved) =
          (fetchOutcome fetched).report fun _ => none) ∨
      ∃ parsed : FetchParseResult, fetched.completed = true ∧
        mergeBehind context upstreamRef (fetchOutcome fetched) =
          .askFor (planFastForwardMerge context upstreamRef) (mergeOutcome parsed.refs) := by
  unfold fetchOutcome
  cases parseFetchPorcelain fetched.stdout with
  | none => exact .inl ⟨_, rfl, rfl⟩
  | some parsed =>
    cases completed : fetched.completed with
    | false => exact .inl ⟨.refused (failureOf fetched), rfl, rfl⟩
    | true => exact .inr ⟨parsed, rfl, rfl⟩

theorem run_pull_cases (input : PullInput) :
    (∃ exchanges failure, run answers (pullFastForward context input) 0 =
        ⟨exchanges, .ok (.refused failure)⟩ ∧ resultsOf mutates exchanges = [] ∧
        resultsOf fetches exchanges = [] ∧ resultsOf merges exchanges = []) ∨
      (∃ exchanges outcome, run answers (pullFastForward context input) 0 =
        ⟨exchanges, .ok outcome⟩ ∧ resultsOf mutates exchanges = [answers 2] ∧
        resultsOf fetches exchanges = [answers 2] ∧ resultsOf merges exchanges = [] ∧
        outcome.report (fun result => some result.branchMoved) =
          (fetchOutcome (answers 2)).report fun _ => none) ∨
      ∃ exchanges fetchRefs, run answers (pullFastForward context input) 0 =
        ⟨exchanges, .ok (mergeOutcome fetchRefs (answers 3))⟩ ∧
        resultsOf mutates exchanges = [answers 2, answers 3] ∧
        resultsOf fetches exchanges = [answers 2] ∧ resultsOf merges exchanges = [answers 3] ∧
        (answers 2).completed = true := by
  unfold pullFastForward
  rw [run_askFor_bind]
  cases upstreamOf input (answers 0) with
  | error failure => exact .inl ⟨_, failure, rfl, rfl, rfl, rfl⟩
  | ok upstreamRef =>
    rw [fetchRemote_eq]
    obtain ⟨failure, ran⟩ | ran := run_contact answers context input.remoteName .fetch
      (planFetch context ⟨input.remoteName, false, .none⟩) fetchOutcome 1
    · rw [run_bind_of_ok answers ran]
      exact .inl ⟨_, failure, rfl, rfl, rfl, rfl⟩
    · rw [run_bind_of_ok answers ran]
      obtain ⟨outcome, ended, report⟩ | ⟨parsed, completed, ended⟩ :=
        mergeBehind_cases context upstreamRef (answers 2)
      · rw [ended]
        exact .inr (.inl ⟨_, outcome, rfl, rfl, rfl, rfl, report⟩)
      · rw [ended]
        exact .inr (.inr ⟨_, parsed.refs, rfl, rfl, rfl, rfl, completed⟩)

theorem honest_merge_iff {exchanges : EngineExchanges} {fetched merged : GitRunResult}
    (fetchRefs : List FetchRefResult) (changes : resultsOf mutates exchanges = [fetched, merged])
    (merging : resultsOf merges exchanges = [merged]) (completed : fetched.completed = true) :
    Honest exchanges
        ((mergeOutcome fetchRefs merged).report fun result => some result.branchMoved) ↔
      MergeHolds merged := by
  unfold mergeOutcome MergeHolds
  cases done : merged.completed with
  | true =>
    constructor
    · intro honest
      obtain ⟨result, member, moved⟩ := (honest.moved true rfl).1.mp rfl
      rw [merging, List.mem_singleton] at member
      rwa [member] at moved
    · intro moved
      refine ⟨nofun, ?_, ?_⟩
      · rintro - ⟨result, member, failed⟩
        rw [changes, List.mem_cons, List.mem_singleton] at member
        obtain rfl | rfl := member
        · rw [completed] at failed
          cases failed
        · rw [done] at failed
          cases failed
      · rintro said ⟨⟩
        rw [merging]
        exact ⟨iff_of_true rfl ⟨merged, List.mem_singleton_self _, moved⟩, nofun⟩
  | false =>
    constructor
    · intro honest
      obtain ⟨told, known⟩ := honest.moved false rfl
      rw [merging] at told known
      refine ⟨known rfl merged (List.mem_singleton_self _), Bool.eq_false_iff.mpr fun moved => ?_⟩
      exact Bool.false_ne_true (told.mpr ⟨merged, List.mem_singleton_self _, moved⟩)
    · rintro ⟨alone, still⟩
      refine ⟨nofun, fun _ _ => .inl rfl, ?_⟩
      rintro said ⟨⟩
      rw [merging]
      refine ⟨iff_of_false Bool.false_ne_true ?_, fun _ result member => ?_⟩
      · rintro ⟨result, member, moved⟩
        rw [List.mem_singleton.mp member, still] at moved
        cases moved
      · rwa [List.mem_singleton.mp member]

theorem honest_pull_iff (input : PullInput) :
    let transcript := run answers ((NetworkWorkflow.pullFastForward input).program context) 0
    Honest transcript.exchanges (reportOf transcript) ↔
      (NetworkWorkflow.pullFastForward input).Holds transcript.exchanges := by
  dsimp only [NetworkWorkflow.program, NetworkWorkflow.Holds]
  obtain ⟨exchanges, failure, ran, changes, fetching, merging⟩ |
      ⟨exchanges, outcome, ran, changes, fetching, merging, told⟩ |
      ⟨exchanges, fetchRefs, ran, changes, fetching, merging, completed⟩ :=
    run_pull_cases answers context input
  all_goals
    obtain ⟨same, report⟩ := run_reported answers (congrArg Transcript.ending ran)
      fun outcome => outcome.report fun result => some result.branchMoved
    rw [same, report, ran]
    rw [fetching, merging]
  · exact iff_of_true (honest_nothing changes rfl) ⟨nofun, nofun⟩
  · rw [told, honest_single_iff changes (silent_report _), fetchHolds_iff,
      List.forall_mem_singleton]
    exact (and_iff_left fun _ none => absurd none List.not_mem_nil).symm
  · rw [honest_merge_iff _ changes merging completed, List.forall_mem_singleton,
      List.forall_mem_singleton]
    refine (and_iff_right fun cutOff => ?_).symm
    rw [not_cutOff_of_completed completed] at cutOff
    cases cutOff

end Pulls

/-- When the workflows are honest. -/
theorem networkWorkflow_honest_iff (answers : Nat → GitRunResult) (context : PlanContext)
    (workflow : NetworkWorkflow) :
    let transcript := run answers (workflow.program context) 0
    Honest transcript.exchanges (reportOf transcript) ↔ workflow.Holds transcript.exchanges := by
  cases workflow with
  | addRemote input =>
    dsimp only [NetworkWorkflow.program, NetworkWorkflow.Holds]
    rw [addRemote_eq]
    refine honest_runSteps_iff answers fun spec member => ?_
    obtain rfl | ⟨url, -, rfl⟩ := by simpa only [List.mem_cons, List.mem_map] using member
    · rfl
    · rfl
  | updateRemote input =>
    dsimp only [NetworkWorkflow.program, NetworkWorkflow.Holds]
    rw [updateRemote_eq]
    refine honest_runSteps_iff answers fun spec member => ?_
    obtain ⟨name, -, rfl⟩ | ⟨url, -, rfl⟩ | ⟨url, -, rfl⟩ := by
      simpa only [List.mem_append, List.mem_map] using member
    · rfl
    · rfl
    · rfl
  | fetchRemote input =>
    exact honest_contact_iff answers context input.remoteName .fetch (mutates_planFetch context input)
      fetchOutcome fetchHolds_iff
  | pushRef input =>
    exact honest_contact_iff answers context input.remoteName .push (mutates_planPush context input)
      pushOutcome pushHolds_iff
  | pullFastForward input => exact honest_pull_iff answers context input

/-- Both URLs are asked for; the remote is there when the second command is stopped. -/
theorem added_remote_refused :
    let transcript := run
      (fun n => ⟨if n = 0 then .exit else .timeout, if n = 0 then some 0 else none, [], [], false⟩)
      ((NetworkWorkflow.addRemote ⟨"origin", "https://git.example/a", some "https://git.example/b"⟩
        ).program ⟨"worktree"⟩) 0
    ¬ Honest transcript.exchanges (reportOf transcript) := by
  intro transcript honest
  refine honest.refused rfl ?_
  exact ⟨⟨.exit, some 0, [], [], false⟩, List.mem_cons_self, .inl rfl⟩

end Refyard.GitCore
