import Refyard.HostNode.QueueKept

/-! A client request id names one operation of its actor, and a request that is sent again is
answered from the record. -/
namespace Refyard

namespace InsertionMap

variable {α β γ : Type} [DecidableEq α] {key : β → α}
variable {values : List β}

theorem setIn_of_new {value : β} (fresh : ∀ other ∈ values, key other ≠ key value) :
    setIn key value values = values ++ [value] := by
  induction values with
  | nil => rfl
  | cons first rest ih =>
    unfold setIn
    rw [if_neg (fresh first List.mem_cons_self),
      ih fun other member => fresh other (List.mem_cons_of_mem _ member), List.cons_append]

theorem map_setIn_of_held {image : β → γ} {value : β}
    (held : ∃ other ∈ values, key other = key value)
    (same : ∀ other ∈ values, key other = key value → image other = image value) :
    (setIn key value values).map image = values.map image := by
  induction values with
  | nil =>
    obtain ⟨other, member, -⟩ := held
    cases member
  | cons first rest ih =>
    unfold setIn
    split
    · rename_i here
      rw [List.map_cons, List.map_cons, same first List.mem_cons_self here]
    · rename_i differs
      rw [List.map_cons, List.map_cons, ih]
      · obtain ⟨other, member, named⟩ := held
        rcases List.mem_cons.mp member with rfl | later
        · exact absurd named differs
        · exact ⟨other, later, named⟩
      · exact fun other member => same other (List.mem_cons_of_mem _ member)

theorem ofList_values (distinct : (values.map key).Nodup) :
    (ofList values : InsertionMap key).values = values := by
  induction values using List.reverseRecOn with
  | nil => rfl
  | append_singleton front value ih =>
    rw [List.map_append, List.nodup_append] at distinct
    rw [ofList_concat]
    have earlier := ih distinct.1
    have added : ((ofList front : InsertionMap key).set value).values =
        setIn key value (ofList front : InsertionMap key).values := rfl
    rw [added, earlier]
    refine setIn_of_new fun other member same => ?_
    exact distinct.2.2 (key other) (List.mem_map_of_mem member) (key value)
      (by simp) same

end InsertionMap

namespace HostNode

def JournalEntry.requestKey (entry : JournalEntry) : String × String :=
  (entry.actor, entry.clientRequestId)

def Submission.requestKey (submission : Submission) : String × String :=
  (submission.actor, submission.request.clientRequestId)

def Acceptance.requestKey (acceptance : Acceptance) : String × String :=
  acceptance.entry.requestKey

namespace Ledger

variable {ledger : Ledger} {entry : JournalEntry}

theorem map_requestKey_append (backs : Coordinator.Backs ledger entry) (appended : Appended) :
    (ledger.append entry appended).entries.values.map JournalEntry.requestKey =
      ledger.entries.values.map JournalEntry.requestKey := by
  unfold append
  split
  · obtain ⟨held, found, -, actor, request⟩ := backs
    obtain ⟨member, named⟩ := InsertionMap.get?_eq_some.mp found
    apply InsertionMap.map_setIn_of_held ⟨held, member, named⟩
    intro other also same
    have single : other = held :=
      List.inj_on_of_nodup_map ledger.entries.distinct also member (same.trans named.symm)
    rw [single]
    unfold JournalEntry.requestKey
    rw [actor, request]
  · rfl

theorem tally_append_new (absent : ledger.get entry.operationId = none) (appended : Appended)
    (key : String × String) :
    tally JournalEntry.requestKey (ledger.append entry appended).entries.values key ≤
      tally JournalEntry.requestKey ledger.entries.values key +
        if entry.requestKey = key then 1 else 0 := by
  unfold append
  split
  · have fresh : ∀ other ∈ ledger.entries.values, other.operationId ≠ entry.operationId := by
      intro other member same
      have found := InsertionMap.get?_eq_some.mpr ⟨member, same⟩
      exact Option.some_ne_none _ (found.symm.trans absent)
    have added : (ledger.entries.set entry).values = ledger.entries.values ++ [entry] :=
      InsertionMap.setIn_of_new fresh
    rw [added, tally_concat]
  · exact Nat.le_add_right _ _

theorem tally_compact (policy : RetentionPolicy) (nowMs : Int) (key : String × String) :
    tally JournalEntry.requestKey (ledger.compact policy nowMs).entries.values key ≤
      tally JournalEntry.requestKey ledger.entries.values key := by
  unfold compact
  split
  · have values : (InsertionMap.ofList (keptEntries ledger.entries nowMs policy) : Entries).values =
        keptEntries ledger.entries nowMs policy :=
      InsertionMap.ofList_values (keptEntries_nodup _ _ _)
    rw [values]
    have sorted := List.perm_insertionSort
      (fun first second : JournalEntry => first.sequence ≤ second.sequence) ledger.entries.values
    rw [← tally_perm _ sorted]
    exact List.filter_sublist.countP_le
  · exact Nat.le_refl _

theorem mem_list {actor : String} {limit : Nat} (member : entry ∈ ledger.list actor limit) :
    entry ∈ ledger.entries.values ∧ entry.actor = actor := by
  have sorted := List.mem_of_mem_take member
  rw [List.mem_insertionSort, List.mem_filter] at sorted
  exact ⟨sorted.1, by simpa using sorted.2⟩

theorem list_nodup (once : (ledger.entries.values.map JournalEntry.requestKey).Nodup)
    (actor : String) (limit : Nat) :
    ((ledger.list actor limit).map JournalEntry.clientRequestId).Nodup := by
  have owned : ∀ entry ∈ ledger.list actor limit,
      entry.requestKey = (actor, entry.clientRequestId) := by
    intro entry member
    unfold JournalEntry.requestKey
    rw [(mem_list member).2]
  have listed : ((ledger.list actor limit).map JournalEntry.requestKey).Nodup := by
    refine List.Nodup.sublist ((List.take_sublist _ _).map _) ?_
    rw [((List.perm_insertionSort _ _).map _).nodup_iff]
    exact List.Nodup.sublist (List.filter_sublist.map _) once
  have same : (ledger.list actor limit).map JournalEntry.requestKey =
      ((ledger.list actor limit).map JournalEntry.clientRequestId).map fun request =>
        (actor, request) := by
    rw [List.map_map]
    exact List.map_congr_left owned
  rw [same] at listed
  exact List.Nodup.of_map _ listed

end Ledger

namespace Coordinator

/-- How many operations a client has under a key, on record and on the way to it. -/
def requests (coordinator : Coordinator) (key : String × String) : Nat :=
  tally JournalEntry.requestKey coordinator.ledger.entries.values key +
    tally Submission.requestKey coordinator.submissions key +
    tally Acceptance.requestKey coordinator.acceptances key

def latest (coordinator : Coordinator) (actor : String) : List JournalEntry :=
  coordinator.ledger.list actor idempotencyMaxEntries

def effectRuns (coordinator : Coordinator) (actor clientRequestId : String) : Nat :=
  coordinator.history.effects.countP fun start => (coordinator.latest actor).any fun entry =>
    entry.operationId = start.operationId && entry.clientRequestId = clientRequestId

structure OncePerRequest (coordinator : Coordinator) : Prop where
  operation : ∀ actor, ((coordinator.latest actor).map JournalEntry.clientRequestId).Nodup
  effect : ∀ actor clientRequestId, coordinator.effectRuns actor clientRequestId ≤ 1

def AnswersRecorded (setting : Setting) (coordinator : Coordinator) : CoordinatorInput → Prop
  | .submit actor request => ∀ entry ∈ coordinator.latest actor,
      entry.clientRequestId = request.clientRequestId →
        (coordinator.submit setting actor request).2 =
          if entry.payloadDigest = setting.digest request then answerRecord entry true
          else .problem (conflictProblem entry)
  | _ => True

/-- A submission is made with its request on record, or while no other submission of the
request is under way and no operation of it is left behind the latest ones. -/
def SubmittedAlone (coordinator : Coordinator) : CoordinatorInput → Prop
  | .submit actor request =>
      (∃ entry ∈ coordinator.latest actor, entry.clientRequestId = request.clientRequestId) ∨
        coordinator.requests (actor, request.clientRequestId) = 0
  | _ => True

variable {setting : Setting} {coordinator changed : Coordinator}

def Keyed (coordinator : Coordinator) : Prop := ∀ key, coordinator.requests key ≤ 1

theorem Keyed.of_le (keyed : coordinator.Keyed)
    (fewer : ∀ key, changed.requests key ≤ coordinator.requests key) : changed.Keyed :=
  fun key => (fewer key).trans (keyed key)

theorem Keyed.append (keyed : coordinator.Keyed) {entry : JournalEntry}
    (backs : Backs coordinator.ledger entry) (appended : Appended) :
    Keyed { coordinator with ledger := coordinator.ledger.append entry appended } := by
  refine keyed.of_le fun key => ?_
  have same := Ledger.map_requestKey_append backs appended
  have counts : tally JournalEntry.requestKey
      (coordinator.ledger.append entry appended).entries.values key =
        tally JournalEntry.requestKey coordinator.ledger.entries.values key := by
    have first := tally_map (fun key => key) JournalEntry.requestKey
      (coordinator.ledger.append entry appended).entries.values key
    have second := tally_map (fun key => key) JournalEntry.requestKey
      coordinator.ledger.entries.values key
    rw [← first, ← second, same]
  unfold requests
  rw [counts]

theorem Keyed.submit (keyed : coordinator.Keyed) {actor : String}
    {request : ParsedMutationRequest}
    (alone : coordinator.SubmittedAlone (.submit actor request)) :
    (coordinator.submit setting actor request).1.Keyed := by
  obtain same | ⟨repositoryId, -, unknown, same⟩ :=
    coordinator.submit_cases setting actor request
  · rw [same]
    exact keyed
  · rw [same]
    have free : coordinator.requests (actor, request.clientRequestId) = 0 := by
      obtain ⟨entry, member, known⟩ | free := alone
      · have differs := List.find?_eq_none.mp unknown entry member
        rw [decide_eq_true known] at differs
        exact absurd rfl differs
      · exact free
    intro key
    have once := keyed key
    unfold requests at once free ⊢
    dsimp only
    rw [tally_concat]
    have named : Submission.requestKey
        { actor, request, digest := setting.digest request, repositoryId,
          block := coordinator.blockFor repositoryId } = (actor, request.clientRequestId) := rfl
    rw [named]
    split
    · rename_i here
      rw [here] at free
      omega
    · omega

theorem Keyed.check (keyed : coordinator.Keyed) (place : Nat) (lookups : Lookups)
    (now : Timestamp) : (coordinator.check setting place lookups now).1.Keyed := by
  obtain same | ⟨submission, found, outcome⟩ :=
    coordinator.check_cases setting place lookups now
  · rw [same]
    exact keyed
  · have erased := tally_eraseIdx Submission.requestKey found
    obtain same | ⟨-, same⟩ := outcome
    · rw [same]
      refine keyed.of_le fun key => ?_
      have counts := erased key
      unfold requests
      dsimp only
      omega
    · rw [same]
      refine keyed.of_le fun key => ?_
      have counts := erased key
      unfold requests admitting
      dsimp only
      rw [tally_concat]
      have named : Acceptance.requestKey ⟨coordinator.acceptedEntry setting submission now,
        submission.request⟩ = submission.requestKey := rfl
      rw [named]
      omega

theorem Keyed.answering (keyed : coordinator.Keyed) (tracked : coordinator.Tracked setting)
    {place : Nat} {acceptance : Acceptance}
    (found : coordinator.acceptances[place]? = some acceptance) (appended : Appended) :
    (coordinator.answering place acceptance appended).Keyed := by
  have absent := (tracked.unrecorded acceptance (List.mem_of_getElem? found)).2
  refine keyed.of_le fun key => ?_
  have erased := tally_eraseIdx Acceptance.requestKey found key
  have added := Ledger.tally_append_new absent appended key
  have named : acceptance.requestKey = acceptance.entry.requestKey := rfl
  rw [named] at erased
  unfold requests Coordinator.answering
  dsimp only
  omega

theorem Keyed.pump (keyed : coordinator.Keyed) (tracked : coordinator.Tracked setting)
    (now : Timestamp) : (coordinator.pump now).Keyed := by
  obtain ⟨started, tasks, sequence, queue, pumped⟩ := tracked.pumped now
  rw [pumped.same]
  exact keyed

theorem Keyed.accept (keyed : coordinator.Keyed) (tracked : coordinator.Tracked setting)
    (place : Nat) (appended : Appended) (now : Timestamp) :
    (coordinator.accept place appended now).1.Keyed := by
  obtain ⟨same, -⟩ | ⟨acceptance, found, same | ⟨rfl, ⟨_, same⟩ | ⟨ticket, of, same⟩⟩⟩ :=
    coordinator.accept_cases place appended now
  · rw [same]
    exact keyed
  · rw [same]
    exact keyed.answering tracked found appended
  · rw [same]
    exact keyed.answering tracked found .stored
  · rw [same]
    have answered : ((coordinator.answering place acceptance .stored).joining acceptance
        ticket).Keyed := keyed.answering tracked found .stored
    obtain ⟨-, -, further⟩ := tracked.accepted found .stored
    exact answered.pump ((further rfl).2 ticket of) now

theorem Keyed.refuse (keyed : coordinator.Keyed) (tracked : coordinator.Tracked setting)
    (place : Nat) (appended : Appended) : (coordinator.refuse place appended).1.Keyed := by
  obtain same | ⟨refusal, found, same⟩ := coordinator.refuse_cases place appended
  · rw [same]
    exact keyed
  · have member : refusal.entry ∈ coordinator.underWay :=
      List.mem_append_left _ (List.mem_append_left _
        (List.mem_map_of_mem (List.mem_of_getElem? found)))
    rw [same]
    exact keyed.append (tracked.backed refusal.entry member) appended

theorem Keyed.cancel (keyed : coordinator.Keyed) (actor operationId : String) (now : Timestamp) :
    (coordinator.cancel actor operationId now).1.Keyed := by
  obtain same | ⟨_, _, _, _, -, -, -, -, -, same⟩ :=
    coordinator.cancel_cases actor operationId now
  · rw [same]
    exact keyed
  · rw [same]
    exact keyed

theorem Keyed.recordCancellation (keyed : coordinator.Keyed)
    (tracked : coordinator.Tracked setting) (place : Nat) (appended : Appended) :
    (coordinator.recordCancellation place appended).Keyed := by
  obtain same | ⟨entry, found, same⟩ := coordinator.recordCancellation_cases place appended
  · rw [same]
    exact keyed
  · have member : entry ∈ coordinator.underWay :=
      List.mem_append_right _ (List.mem_of_getElem? found)
    rw [same]
    exact keyed.append (tracked.backed entry member) appended

theorem Tracked.backs_task (tracked : coordinator.Tracked setting) {task : Task}
    (member : task ∈ coordinator.tasks) : Backs coordinator.ledger task.entry :=
  tracked.backed task.entry
    (List.mem_append_left _ (List.mem_append_right _ (List.mem_map_of_mem member)))

theorem Keyed.recordStart (keyed : coordinator.Keyed) (tracked : coordinator.Tracked setting)
    (place : Nat) (appended : Appended) : (coordinator.recordStart place appended).Keyed := by
  obtain same | ⟨task, found, -, ⟨_, -, same⟩ | ⟨-, same⟩ | ⟨-, same⟩⟩ :=
    coordinator.recordStart_cases place appended
  · rw [same]
    exact keyed
  · rw [same]
    exact keyed.append (tracked.backs_task (List.mem_of_getElem? found)) appended
  · rw [same]
    exact keyed.append (tracked.backs_task (List.mem_of_getElem? found)) .stored
  · rw [same]
    exact keyed

theorem Keyed.begin (keyed : coordinator.Keyed) (place : Nat) (now : Timestamp) :
    (coordinator.begin place now).Keyed := by
  obtain same | ⟨task, -, -, ⟨_, same⟩ | same⟩ := coordinator.begin_cases place now
  · rw [same]
    exact keyed
  · rw [same]
    exact keyed
  · rw [same]
    exact keyed

theorem Keyed.finish (keyed : coordinator.Keyed) (place : Nat) (ended : EffectEnd)
    (now : Timestamp) : (coordinator.finish place ended now).Keyed := by
  obtain same | ⟨_, _, -, -, same⟩ := coordinator.finish_cases place ended now
  · rw [same]
    exact keyed
  · rw [same]
    exact keyed

theorem Keyed.recordOutcome (keyed : coordinator.Keyed) (tracked : coordinator.Tracked setting)
    (place : Nat) (appended : Appended) : (coordinator.recordOutcome place appended).Keyed := by
  obtain same | ⟨task, found, -, same⟩ := coordinator.recordOutcome_cases place appended
  · rw [same]
    exact keyed
  · rw [same]
    exact keyed.append (tracked.backs_task (List.mem_of_getElem? found)) appended

theorem Keyed.runPump (keyed : coordinator.Keyed) (tracked : coordinator.Tracked setting)
    (now : Timestamp) : (coordinator.runPump now).Keyed := by
  unfold Coordinator.runPump
  split
  · exact keyed
  · have fewer : Keyed { coordinator with pumps := coordinator.pumps - 1 } := keyed
    exact fewer.pump tracked.pumpFewer now

theorem Keyed.compact (keyed : coordinator.Keyed) (policy : RetentionPolicy) (nowMs : Int) :
    Keyed { coordinator with ledger := coordinator.ledger.compact policy nowMs } := by
  refine keyed.of_le fun key => ?_
  have fewer := coordinator.ledger.tally_compact policy nowMs key
  unfold requests
  dsimp only
  omega

theorem Keyed.next (keyed : coordinator.Keyed) (tracked : coordinator.Tracked setting)
    {input : CoordinatorInput} (alone : coordinator.SubmittedAlone input) :
    ((machine setting).next coordinator input).Keyed := by
  cases input with
  | submit actor request => exact keyed.submit alone
  | check place lookups now => exact keyed.check place lookups now
  | accept place appended now => exact keyed.accept tracked place appended now
  | refuse place appended => exact keyed.refuse tracked place appended
  | cancel actor operationId now => exact keyed.cancel actor operationId now
  | recordCancellation place appended => exact keyed.recordCancellation tracked place appended
  | recordStart place appended => exact keyed.recordStart tracked place appended
  | begin place now => exact keyed.begin place now
  | finish place ended now => exact keyed.finish place ended now
  | recordOutcome place appended => exact keyed.recordOutcome tracked place appended
  | pump now => exact keyed.runPump tracked now
  | compact nowMs => exact keyed.compact setting.retention nowMs
  | registerEffect kind => exact keyed
  | resolveBlock repositoryId => exact keyed

theorem Keyed.values_nodup (keyed : coordinator.Keyed) :
    (coordinator.ledger.entries.values.map JournalEntry.requestKey).Nodup := by
  rw [← tally_le_one]
  intro key
  have once := keyed key
  unfold requests at once
  omega

theorem Keyed.latest_nodup (keyed : coordinator.Keyed) (actor : String) :
    ((coordinator.latest actor).map JournalEntry.clientRequestId).Nodup :=
  Ledger.list_nodup keyed.values_nodup actor idempotencyMaxEntries

theorem Keyed.answersRecorded (keyed : coordinator.Keyed) (input : CoordinatorInput) :
    coordinator.AnswersRecorded setting input := by
  cases input with
  | submit actor request =>
    intro entry member known
    have found : (coordinator.latest actor).find? (fun entry =>
        entry.clientRequestId = request.clientRequestId) = some entry := by
      cases found : (coordinator.latest actor).find? fun entry =>
          entry.clientRequestId = request.clientRequestId with
      | none =>
        have differs := List.find?_eq_none.mp found entry member
        rw [decide_eq_true known] at differs
        exact absurd rfl differs
      | some other =>
        have same : other.clientRequestId = request.clientRequestId := by
          simpa using List.find?_some found
        rw [List.inj_on_of_nodup_map (keyed.latest_nodup actor) (List.mem_of_find?_eq_some found)
          member (same.trans known.symm)]
    unfold latest at found
    unfold Coordinator.submit
    rw [found]
    dsimp only
    by_cases same : entry.payloadDigest = setting.digest request
    · rw [if_neg (not_not.mpr same), if_pos same]
    · rw [if_pos same, if_neg same]
  | _ => trivial

theorem oncePerRequest_of (keyed : coordinator.Keyed) (claimed : coordinator.Claimed setting) :
    coordinator.OncePerRequest where
  operation := keyed.latest_nodup
  effect := by
    intro actor clientRequestId
    unfold effectRuns
    -- the operations of a request are one, and its effect is counted under its id
    by_cases known : ∃ entry ∈ coordinator.latest actor, entry.clientRequestId = clientRequestId
    · obtain ⟨entry, member, named⟩ := known
      have executed : tally EffectStart.operationId coordinator.history.effects
          entry.operationId ≤ 1 := by
        have once := claimed.once entry.operationId
        unfold claims at once
        omega
      refine le_trans (List.countP_mono_left fun start _ runs => ?_) executed
      obtain ⟨other, also, same⟩ := List.any_eq_true.mp runs
      simp only [Bool.and_eq_true, decide_eq_true_eq] at same
      have single := List.inj_on_of_nodup_map (keyed.latest_nodup actor) also member
        (same.2.trans named.symm)
      rw [← single, same.1]
      exact decide_eq_true rfl
    · have none : ∀ start ∈ coordinator.history.effects,
          ¬ ((coordinator.latest actor).any fun entry =>
            entry.operationId = start.operationId && entry.clientRequestId = clientRequestId) =
              true := by
        intro start _ runs
        obtain ⟨entry, member, same⟩ := List.any_eq_true.mp runs
        simp only [Bool.and_eq_true, decide_eq_true_eq] at same
        exact known ⟨entry, member, same.2⟩
      rw [List.countP_eq_zero.mpr none]
      exact Nat.zero_le 1

end Coordinator

open Coordinator

/-- Where every request is submitted alone or again, each state of every run has one operation
and at most one effect for a request, and every submission is answered from the record. -/
theorem submits_recorded_once {setting : Setting} (opening : Opening setting)
    (once : (opening.ledger.entries.values.map JournalEntry.requestKey).Nodup)
    (inputs : List CoordinatorInput)
    (alone : (machine setting).Meets SubmittedAlone opening.coordinator inputs) :
    ((machine setting).after opening.coordinator inputs).OncePerRequest ∧
      (machine setting).Meets (AnswersRecorded setting) opening.coordinator inputs := by
  let Holds (coordinator : Coordinator) : Prop :=
    coordinator.Tracked setting ∧ coordinator.Claimed setting ∧ coordinator.Keyed
  have keeps : ∀ coordinator input, Holds coordinator → coordinator.SubmittedAlone input →
      Holds ((machine setting).next coordinator input) :=
    fun _ input held alone => ⟨held.1.next input, held.2.1.next held.1 input,
      held.2.2.next held.1 alone⟩
  have start : Holds opening.coordinator := ⟨opening.tracked, opening.claimed, tally_le_one.mpr once⟩
  have holds := (machine setting).invariant_of_step Holds keeps start alone
  exact ⟨oncePerRequest_of holds.2.2 holds.2.1, (machine setting).meets_of_step Holds keeps
      (fun _ input held _ => held.2.2.answersRecorded input) start alone⟩

def sentAgain : List CoordinatorInput :=
  [.submit "user" (workspaceRequest "one"), .check 0 noLookups epoch, .accept 0 .stored epoch,
    .submit "user" (workspaceRequest "one")]

theorem submits_recorded_once_sent_again :
    ((machine sampleSetting).after sampleOpening.coordinator sentAgain).OncePerRequest ∧
      (machine sampleSetting).Meets (AnswersRecorded sampleSetting) sampleOpening.coordinator
        sentAgain :=
  submits_recorded_once sampleOpening List.nodup_nil sentAgain
    ⟨.inr rfl, trivial, trivial, .inl ⟨_, List.mem_cons_self, rfl⟩, trivial⟩

def sentTwice : List CoordinatorInput :=
  [.submit "user" (workspaceRequest "one"), .submit "user" (workspaceRequest "one"),
    .check 0 noLookups epoch, .check 0 noLookups epoch, .accept 0 .stored epoch,
    .accept 0 .stored epoch]

theorem submitted_twice :
    ¬ ((machine sampleSetting).after sampleOpening.coordinator sentTwice).OncePerRequest := by
  intro kept
  have twice : (((machine sampleSetting).after sampleOpening.coordinator sentTwice).latest
      "user").map JournalEntry.clientRequestId = ["one", "one"] := by decide
  have once := kept.operation "user"
  exact absurd once (by decide)

end HostNode
end Refyard
