import Refyard.HostNode.CoordinatorSteps

/-! The TypeScript host over restarts. Each process loads the journal file, reconciles what the
last one left in flight, and holds its write blocks in memory. -/
namespace Refyard.HostNode

open Coordinator

def reconciledEntry (entry : JournalEntry) (now : Timestamp) : JournalEntry :=
  { entry with
    status := statusName .unknown
    sequence := entry.sequence + 1
    finishedAtMs := some now
    result := .null
    problem :=
      problemJson "UncertainOutcome"
        "this service restarted while this operation was in flight; Git may have changed something, so the result is unknown and the operation will not be retried"
        entry.operationId
    unknownReason := some "process restarted with the operation in flight" }

abbrev WriteBlocks := Table WriteBlock.repositoryId

def blockOperation (blocks : WriteBlocks) (entry : JournalEntry) (now : Timestamp) : WriteBlocks :=
  match blocks.get? entry.repositoryId with
  | none =>
      blocks.insert {
        repositoryId := entry.repositoryId
        operationIds := [entry.operationId]
        reason :=
          "an operation was in flight when the service stopped; confirm the repository state before writing again"
        since := now }
  | some existing =>
      blocks.insert { existing with operationIds := existing.operationIds ++ [entry.operationId] }

structure RecoveryAppend where
  compactedAt : Option Int
  appended : Appended

/-- `run` over the unfinished operations. An append that finds the journal full is passed over,
one that rejects ends the run. -/
def recover (retention : RetentionPolicy) (answers : String → RecoveryAppend) (now : Timestamp) :
    List JournalEntry → Ledger → WriteBlocks → Ledger × WriteBlocks × Bool
  | [], ledger, blocks => (ledger, blocks, true)
  | entry :: rest, ledger, blocks =>
      let answer := answers entry.operationId
      let ledger := (answer.compactedAt.elim ledger (ledger.compact retention)).append
        (reconciledEntry entry now) answer.appended
      match answer.appended with
      | .rejected _ => (ledger, blocks, false)
      | _ => recover retention answers now rest ledger (blockOperation blocks entry now)

/-- How a process starts: whether its journal file can be read, how the appends of its recovery
answer, which effects it has, and which repository or root each of its write keys stands for.
Handles are minted anew in each process. -/
structure Restart where
  readable : Bool
  answers : String → RecoveryAppend
  now : Timestamp
  effects : List MutationKind
  names : String → String

inductive HostInput where
  | call (input : CoordinatorInput)
  /-- The process is gone, in whatever state it was, and another one starts. -/
  | restart (restart : Restart)

structure Host where
  coordinator : Coordinator
  /-- The process serves requests. -/
  up : Bool
  names : String → String
  /-- What each operation wrote to, and what has an operation of unknown outcome that nobody
  resolved. Neither is part of the program. -/
  origins : String → String
  unresolved : List String

namespace Host

def loaded (host : Host) : Ledger where
  entries := .ofList host.coordinator.ledger.file
  file := host.coordinator.ledger.file
  log := host.coordinator.ledger.log

def origin (host : Host) (recorded : List JournalEntry) (operationId : String) : String :=
  match recorded.find? fun entry => entry.operationId = operationId with
  | some entry => host.names entry.repositoryId
  | none => host.origins operationId

/-- An operation becomes unknown with its record. `resolveBlock` resolves what its key names. -/
def unresolvedAfter (host : Host) (recorded : List JournalEntry) : CoordinatorInput → List String
  | .resolveBlock repositoryId =>
      host.unresolved.filter fun name => name ≠ host.names repositoryId
  | _ =>
      host.unresolved ++ (recorded.filter fun entry => entry.status = "unknown").map fun entry =>
        host.names entry.repositoryId

def call (setting : Setting) (host : Host) (input : CoordinatorInput) : Host :=
  if host.up then
    { host with
      coordinator := (Coordinator.machine setting).next host.coordinator input
      origins := host.origin (host.coordinator.recorded input)
      unresolved := host.unresolvedAfter (host.coordinator.recorded input) input }
  else host

/-- What is unresolved at a restart: what was, and whatever the last process left in flight. -/
def unresolvedAtRestart (host : Host) : List String :=
  host.unresolved ++ host.loaded.unfinished.map fun entry => host.origins entry.operationId

def restart (setting : Setting) (host : Host) (restart : Restart) : Host :=
  if restart.readable then
    let (ledger, blocks, recovered) :=
      recover setting.retention restart.answers restart.now host.loaded.unfinished host.loaded .empty
    { coordinator := { ledger, blocks, effects := restart.effects, minted := host.coordinator.minted }
      up := recovered
      names := restart.names
      origins := host.origins
      unresolved := host.unresolvedAtRestart }
  else { host with up := false }

def step (setting : Setting) (host : Host) : HostInput → Host
  | .call input => host.call setting input
  | .restart restart => host.restart setting restart

def machine (setting : Setting) : Machine Host HostInput Unit :=
  ⟨fun host input => (host.step setting input, ())⟩

def AcceptsResolved (host : Host) : HostInput → Prop
  | .call input => host.up = true → ∀ entry ∈ host.coordinator.recorded input,
      entry.status = "accepted" → host.names entry.repositoryId ∉ host.unresolved
  | .restart _ => True

instance (host : Host) (input : HostInput) : Decidable (host.AcceptsResolved input) :=
  match input with
  | .call input => inferInstanceAs (Decidable (_ → ∀ entry ∈ host.coordinator.recorded input, _))
  | .restart _ => isTrue trivial

def Recovers (host : Host) (restart : Restart) : Prop :=
  ∀ entry ∈ host.loaded.unfinished, ∀ landed,
    (restart.answers entry.operationId).appended ≠ .rejected landed

/-- While a process runs no outcome is recorded as unknown, and one starts only where each of
its keys for what is unresolved is that of an operation the journal has in flight. -/
def Remembers (host : Host) : HostInput → Prop
  | .call input => host.up = true →
      ∀ entry ∈ host.coordinator.recorded input, entry.status ≠ "unknown"
  | .restart restart => restart.readable = true → host.Recovers restart →
      ∀ key, restart.names key ∈ host.unresolvedAtRestart →
        ∃ entry ∈ host.loaded.unfinished, entry.repositoryId = key

end Host

section
variable {blocks : WriteBlocks} {entry : JournalEntry} {now : Timestamp} {key : String}

theorem contains_blockOperation : (blockOperation blocks entry now).contains key =
    (decide (key = entry.repositoryId) || blocks.contains key) := by
  unfold blockOperation Table.contains
  split
  · rw [Table.get?_insert]
    split <;> simp_all
  · rename_i existing held
    have named := Table.key_of_get? held
    rw [Table.get?_insert]
    split <;> simp_all

theorem recover_blocks {retention : RetentionPolicy} {answers : String → RecoveryAppend}
    {entries : List JournalEntry} {ledger : Ledger}
    (ends : (recover retention answers now entries ledger blocks).2.2 = true) :
    (∀ entry ∈ entries, ∀ landed, (answers entry.operationId).appended ≠ .rejected landed) ∧
      ∀ key, (blocks.contains key = true ∨ ∃ entry ∈ entries, entry.repositoryId = key) →
        (recover retention answers now entries ledger blocks).2.1.contains key = true := by
  induction entries generalizing ledger blocks with
  | nil =>
    refine ⟨by simp, ?_⟩
    rintro key (held | ⟨entry, member, -⟩)
    · exact held
    · cases member
  | cons entry rest ih =>
    unfold recover at ends ⊢
    dsimp only at ends ⊢
    split at ends
    · cases ends
    · rename_i answered
      obtain ⟨others, kept⟩ := ih ends
      constructor
      · intro other member landed
        rcases List.mem_cons.mp member with rfl | later
        · exact answered landed
        · exact others other later landed
      · intro key found
        apply kept
        rw [contains_blockOperation]
        obtain held | ⟨other, member, named⟩ := found
        · rw [held, Bool.or_true]
          exact .inl rfl
        · rcases List.mem_cons.mp member with rfl | later
          · rw [decide_eq_true named.symm, Bool.true_or]
            exact .inl rfl
          · exact .inr ⟨other, later, named⟩

end

namespace Coordinator

variable {setting : Setting} {coordinator : Coordinator}

theorem block_none_of_accepts {lookups : Lookups} {block : Option RestartWriteBlock}
    {request : ParsedMutationRequest} (accepts : Accepts (preconditionsFor lookups block request)) :
    block = none := by
  have repository : ∀ named : NamedTarget, request.target = named.target → block = none := by
    intro named target
    rw [preconditionsFor_named named target, accepts_iff] at accepts
    obtain ⟨worktree, headOid, status, snapshot, ready⟩ := accepts
    exact ready.unblocked
  cases target : request.target with
  | workspace allowedRootId relativeDestination =>
    unfold preconditionsFor at accepts
    rw [target] at accepts
    exact ((checkPreconditions_ok rfl).mp (accepts_some.mp accepts)).restartBlock
  | repository repositoryId expectedSnapshotId =>
    exact repository ⟨repositoryId, none, expectedSnapshotId⟩ target
  | worktree repositoryId worktreeId expectedSnapshotId =>
    exact repository ⟨repositoryId, some worktreeId, expectedSnapshotId⟩ target

/-- Every key of something unresolved is blocked, and nothing on its way can be accepted under
one. -/
structure Blocking (unresolved : String → Prop) (coordinator : Coordinator) : Prop where
  blocked : ∀ key, unresolved key → coordinator.blocks.contains key = true
  submissions : ∀ submission ∈ coordinator.submissions,
    unresolved submission.repositoryId → submission.block ≠ none
  acceptances : ∀ acceptance ∈ coordinator.acceptances, ¬unresolved acceptance.entry.repositoryId
  underWay : ∀ entry ∈ coordinator.underWay, entry.status ≠ "accepted"

variable {unresolved : String → Prop} {changed : Coordinator}

theorem Blocking.frame (blocking : coordinator.Blocking unresolved)
    (blocks : changed.blocks = coordinator.blocks)
    (submissions : changed.submissions ⊆ coordinator.submissions)
    (acceptances : changed.acceptances ⊆ coordinator.acceptances)
    (refusals : ∀ refusal ∈ changed.refusals,
      refusal ∈ coordinator.refusals ∨ refusal.entry.status ≠ "accepted")
    (tasks : ∀ task ∈ changed.tasks, task ∈ coordinator.tasks ∨ task.entry.status ≠ "accepted")
    (cancellations : ∀ entry ∈ changed.cancellations,
      entry ∈ coordinator.cancellations ∨ entry.status ≠ "accepted") :
    changed.Blocking unresolved where
  blocked := by
    intro key pending
    rw [blocks]
    exact blocking.blocked key pending
  submissions submission member := blocking.submissions submission (submissions member)
  acceptances acceptance member := blocking.acceptances acceptance (acceptances member)
  underWay := by
    have before := blocking.underWay
    unfold Coordinator.underWay at before ⊢
    simp only [List.mem_append, List.mem_map] at before ⊢
    rintro entry ((⟨refusal, member, rfl⟩ | ⟨task, member, rfl⟩) | member)
    · rcases refusals refusal member with earlier | other
      · exact before _ (.inl (.inl ⟨refusal, earlier, rfl⟩))
      · exact other
    · rcases tasks task member with earlier | other
      · exact before _ (.inl (.inr ⟨task, earlier, rfl⟩))
      · exact other
    · rcases cancellations entry member with earlier | other
      · exact before _ (.inr earlier)
      · exact other

theorem Blocking.submit (blocking : coordinator.Blocking unresolved) (actor : String)
    (request : ParsedMutationRequest) :
    (coordinator.submit setting actor request).1.Blocking unresolved := by
  obtain same | ⟨repositoryId, -, -, same⟩ :=
    coordinator.submit_cases setting actor request
  · rw [same]
    exact blocking
  · rw [same]
    refine ⟨blocking.blocked, ?_, blocking.acceptances, blocking.underWay⟩
    intro submission member pending
    rcases List.mem_append.mp member with earlier | last
    · exact blocking.submissions submission earlier pending
    · rw [List.mem_singleton.mp last] at pending ⊢
      have held := blocking.blocked repositoryId pending
      obtain ⟨block, found⟩ := Option.isSome_iff_exists.mp held
      unfold blockFor
      rw [found]
      exact Option.some_ne_none _

theorem Blocking.check (blocking : coordinator.Blocking unresolved) (place : Nat)
    (lookups : Lookups) (now : Timestamp) :
    (coordinator.check setting place lookups now).1.Blocking unresolved := by
  obtain same | ⟨submission, found, same | ⟨admits, same⟩⟩ :=
    coordinator.check_cases setting place lookups now
  · rw [same]
    exact blocking
  · rw [same]
    exact blocking.frame rfl (List.eraseIdx_subset ..) (List.Subset.refl _)
      (fun _ member => .inl member) (fun _ member => .inl member) (fun _ member => .inl member)
  · rw [same]
    refine ⟨blocking.blocked, ?_, ?_, blocking.underWay⟩
    · intro other member
      exact blocking.submissions other (List.mem_of_mem_eraseIdx member)
    · intro acceptance member pending
      rcases List.mem_append.mp member with earlier | last
      · exact blocking.acceptances acceptance earlier pending
      · rw [List.mem_singleton.mp last] at pending
        exact blocking.submissions submission (List.mem_of_getElem? found) pending
          (block_none_of_accepts admits)

theorem Blocking.pump (blocking : coordinator.Blocking unresolved) (now : Timestamp) :
    (coordinator.pump now).Blocking unresolved := by
  obtain ⟨tasks, _, _, _, pumped, starting⟩ := coordinator.pump_frame now
  rw [pumped]
  refine blocking.frame rfl (List.Subset.refl _) (List.Subset.refl _) (fun _ member => .inl member)
    ?_ (fun _ member => .inl member)
  intro task member
  rcases List.mem_append.mp member with earlier | begins
  · exact .inl earlier
  · rw [(starting task begins).status]
    exact .inr (by decide)

theorem Blocking.accept (blocking : coordinator.Blocking unresolved) (place : Nat)
    (appended : Appended) (now : Timestamp) :
    (coordinator.accept place appended now).1.Blocking unresolved := by
  obtain ⟨same, -⟩ | ⟨acceptance, found, outcome⟩ := coordinator.accept_cases place appended now
  · rw [same]
    exact blocking
  · have answered : (coordinator.answering place acceptance appended).Blocking unresolved :=
      blocking.frame rfl (List.Subset.refl _) (List.eraseIdx_subset ..)
        (fun _ member => .inl member) (fun _ member => .inl member) (fun _ member => .inl member)
    obtain same | ⟨rfl, ⟨refusal, same⟩ | ⟨ticket, -, same⟩⟩ := outcome
    · rw [same]
      exact answered
    · rw [same]
      refine answered.frame rfl (List.Subset.refl _) (List.Subset.refl _) ?_
        (fun _ member => .inl member) (fun _ member => .inl member)
      intro refused member
      rcases List.mem_append.mp member with earlier | last
      · exact .inl earlier
      · rw [List.mem_singleton.mp last]
        exact .inr (by simp [Transition.apply, refusalTransition, statusName])
    · rw [same]
      refine Blocking.pump ?_ now
      exact answered.frame rfl (List.Subset.refl _) (List.Subset.refl _)
        (fun _ member => .inl member) (fun _ member => .inl member) (fun _ member => .inl member)

theorem Blocking.refuse (blocking : coordinator.Blocking unresolved) (place : Nat)
    (appended : Appended) : (coordinator.refuse place appended).1.Blocking unresolved := by
  obtain same | ⟨_, -, same⟩ := coordinator.refuse_cases place appended
  · rw [same]
    exact blocking
  · rw [same]
    exact blocking.frame rfl (List.Subset.refl _) (List.Subset.refl _)
      (fun _ member => .inl (List.mem_of_mem_eraseIdx member)) (fun _ member => .inl member)
      (fun _ member => .inl member)

theorem Blocking.cancel (blocking : coordinator.Blocking unresolved) (actor operationId : String)
    (now : Timestamp) : (coordinator.cancel actor operationId now).1.Blocking unresolved := by
  obtain same | ⟨_, _, _, _, -, -, -, -, -, same⟩ :=
    coordinator.cancel_cases actor operationId now
  · rw [same]
    exact blocking
  · rw [same]
    refine blocking.frame rfl (List.Subset.refl _) (List.Subset.refl _)
      (fun _ member => .inl member) (fun _ member => .inl member) ?_
    intro cancelled member
    rcases List.mem_append.mp member with earlier | last
    · exact .inl earlier
    · rw [List.mem_singleton.mp last]
      exact .inr (by simp [cancelledEntry, statusName])

theorem Blocking.recordCancellation (blocking : coordinator.Blocking unresolved) (place : Nat)
    (appended : Appended) :
    (coordinator.recordCancellation place appended).Blocking unresolved := by
  obtain same | ⟨_, -, same⟩ := coordinator.recordCancellation_cases place appended
  · rw [same]
    exact blocking
  · rw [same]
    exact blocking.frame rfl (List.Subset.refl _) (List.Subset.refl _)
      (fun _ member => .inl member) (fun _ member => .inl member)
      (fun _ member => .inl (List.mem_of_mem_eraseIdx member))

theorem Blocking.setTask (blocking : coordinator.Blocking unresolved) (place : Nat) (next : Task)
    (further : next.entry.status ≠ "accepted") (ledger : Ledger) (sequence : Int)
    (history : History) : Blocking unresolved { coordinator with
      ledger, sequence, history, tasks := coordinator.tasks.set place next } := by
  refine blocking.frame rfl (List.Subset.refl _) (List.Subset.refl _)
    (fun _ member => .inl member) ?_ (fun _ member => .inl member)
  intro task member
  rcases List.mem_or_eq_of_mem_set member with earlier | rfl
  · exact .inl earlier
  · exact .inr further

theorem Blocking.endTask (blocking : coordinator.Blocking unresolved) (place : Nat)
    (ledger : Ledger) (awaitingStart : Table AwaitingStart.operationId) (pumps : Nat)
    (queue : Queue ParsedMutationRequest) : Blocking unresolved { coordinator with
      ledger, awaitingStart, pumps, queue, tasks := coordinator.tasks.eraseIdx place } :=
  blocking.frame rfl (List.Subset.refl _) (List.Subset.refl _) (fun _ member => .inl member)
    (fun _ member => .inl (List.mem_of_mem_eraseIdx member)) (fun _ member => .inl member)

theorem Blocking.task (blocking : coordinator.Blocking unresolved) {place : Nat} {task : Task}
    (found : coordinator.tasks[place]? = some task) : task.entry.status ≠ "accepted" :=
  blocking.underWay task.entry (List.mem_append_left _ (List.mem_append_right _
    (List.mem_map_of_mem (List.mem_of_getElem? found))))

theorem Blocking.recordStart (blocking : coordinator.Blocking unresolved) (place : Nat)
    (appended : Appended) : (coordinator.recordStart place appended).Blocking unresolved := by
  obtain same | ⟨task, found, -, ⟨_, -, same⟩ | ⟨-, same⟩ | ⟨-, same⟩⟩ :=
    coordinator.recordStart_cases place appended
  · rw [same]
    exact blocking
  · rw [same]
    exact blocking.endTask place _ _ _ _
  · rw [same]
    have status := blocking.task found
    exact blocking.setTask place { task with stage := .recorded } status _ _ _
  · rw [same]
    exact blocking.setTask place
      { task with entry := HostNode.unrecorded task.entry, stage := .recorded }
      (by simp [HostNode.unrecorded, statusName]) _ _ _

theorem Blocking.begin (blocking : coordinator.Blocking unresolved) (place : Nat)
    (now : Timestamp) : (coordinator.begin place now).Blocking unresolved := by
  obtain same | ⟨task, found, -, ⟨_, same⟩ | same⟩ := coordinator.begin_cases place now
  · rw [same]
    exact blocking
  · rw [same]
    exact blocking.setTask place _
      (by simp [Transition.apply, unsupportedTransition, statusName]) _ _ _
  · rw [same]
    have status := blocking.task found
    exact blocking.setTask place { task with stage := .running } status _ _ _

theorem status_transition_ne (operationId : String) (ended : EffectEnd) :
    statusName (ended.transition operationId).status ≠ "accepted" := by
  rcases ended with ((result | problem | problem | problem) | message) <;>
    simp [EffectEnd.transition, statusName]

theorem Blocking.finish (blocking : coordinator.Blocking unresolved) (place : Nat)
    (ended : EffectEnd) (now : Timestamp) :
    (coordinator.finish place ended now).Blocking unresolved := by
  obtain same | ⟨task, _, found, -, same⟩ := coordinator.finish_cases place ended now
  · rw [same]
    exact blocking
  · rw [same]
    exact blocking.setTask place _ (status_transition_ne _ _) _ _ _

theorem Blocking.recordOutcome (blocking : coordinator.Blocking unresolved) (place : Nat)
    (appended : Appended) : (coordinator.recordOutcome place appended).Blocking unresolved := by
  obtain same | ⟨task, -, -, same⟩ := coordinator.recordOutcome_cases place appended
  · rw [same]
    exact blocking
  · rw [same]
    exact blocking.endTask place _ _ _ _

theorem Blocking.runPump (blocking : coordinator.Blocking unresolved) (now : Timestamp) :
    (coordinator.runPump now).Blocking unresolved := by
  unfold Coordinator.runPump
  split
  · exact blocking
  · refine Blocking.pump ?_ now
    exact blocking.frame rfl (List.Subset.refl _) (List.Subset.refl _)
      (fun _ member => .inl member) (fun _ member => .inl member) (fun _ member => .inl member)

theorem Blocking.resolveBlock (blocking : coordinator.Blocking unresolved) {repositoryId : String}
    {fewer : String → Prop} (resolved : ∀ key, fewer key → unresolved key ∧ key ≠ repositoryId) :
    (coordinator.resolveBlock repositoryId).Blocking fewer where
  blocked := by
    intro key pending
    obtain ⟨before, other⟩ := resolved key pending
    have held := blocking.blocked key before
    unfold Table.contains at held ⊢
    unfold Coordinator.resolveBlock
    rw [Table.get?_erase, if_neg other]
    exact held
  submissions submission member pending :=
    blocking.submissions submission member (resolved _ pending).1
  acceptances acceptance member pending :=
    blocking.acceptances acceptance member (resolved _ pending).1
  underWay := blocking.underWay

theorem Blocking.next (blocking : coordinator.Blocking unresolved) {input : CoordinatorInput}
    (keeps : ∀ repositoryId, input ≠ .resolveBlock repositoryId) :
    ((machine setting).next coordinator input).Blocking unresolved := by
  cases input with
  | submit actor request => exact blocking.submit actor request
  | check place lookups now => exact blocking.check place lookups now
  | accept place appended now => exact blocking.accept place appended now
  | refuse place appended => exact blocking.refuse place appended
  | cancel actor operationId now => exact blocking.cancel actor operationId now
  | recordCancellation place appended => exact blocking.recordCancellation place appended
  | recordStart place appended => exact blocking.recordStart place appended
  | begin place now => exact blocking.begin place now
  | finish place ended now => exact blocking.finish place ended now
  | recordOutcome place appended => exact blocking.recordOutcome place appended
  | pump now => exact blocking.runPump now
  | compact nowMs =>
    exact blocking.frame rfl (List.Subset.refl _) (List.Subset.refl _)
      (fun _ member => .inl member) (fun _ member => .inl member) (fun _ member => .inl member)
  | registerEffect kind =>
    exact blocking.frame rfl (List.Subset.refl _) (List.Subset.refl _)
      (fun _ member => .inl member) (fun _ member => .inl member) (fun _ member => .inl member)
  | resolveBlock repositoryId => exact absurd rfl (keeps repositoryId)

theorem Blocking.recorded (blocking : coordinator.Blocking unresolved) {input : CoordinatorInput}
    {entry : JournalEntry} (member : entry ∈ coordinator.recorded input)
    (accepted : entry.status = "accepted") : ¬unresolved entry.repositoryId := by
  have puts : ∀ {appended : Appended} {found : Option JournalEntry},
      entry ∈ appended.puts found → found = some entry := by
    intro appended found inside
    unfold Appended.puts at inside
    split at inside
    · exact Option.mem_toList.mp inside
    · cases inside
  have other : entry ∉ coordinator.underWay := fun also => blocking.underWay entry also accepted
  unfold Coordinator.underWay at other
  simp only [List.mem_append, List.mem_map, not_or] at other
  obtain ⟨⟨refusals, tasks⟩, cancellations⟩ := other
  have started : ∀ {place : Nat} {test : Task → Bool},
      ((coordinator.tasks[place]?).filter test).map Task.entry ≠ some entry := by
    intro place test same
    obtain ⟨task, found, rfl⟩ := Option.map_eq_some_iff.mp same
    exact tasks ⟨task, List.mem_of_getElem? (Option.filter_eq_some_iff.mp found).1, rfl⟩
  cases input with
  | accept place appended now =>
    obtain ⟨acceptance, found, rfl⟩ := Option.map_eq_some_iff.mp (puts member)
    exact blocking.acceptances acceptance (List.mem_of_getElem? found)
  | refuse place appended =>
    obtain ⟨refusal, found, same⟩ := Option.map_eq_some_iff.mp (puts member)
    exact absurd ⟨refusal, List.mem_of_getElem? found, same⟩ refusals
  | recordCancellation place appended =>
    exact absurd (List.mem_of_getElem? (puts member)) cancellations
  | recordStart place appended => exact absurd (puts member) started
  | recordOutcome place appended => exact absurd (puts member) started
  | submit actor request | check place lookups now | cancel actor operationId now
  | begin place now | finish place ended now | pump now | compact nowMs | registerEffect kind
  | resolveBlock repositoryId => cases member

end Coordinator

namespace Host

def Guarded (host : Host) : Prop :=
  host.up = true → host.coordinator.Blocking fun key => host.names key ∈ host.unresolved

variable {setting : Setting} {host : Host}

theorem Guarded.call (guarded : host.Guarded) {input : CoordinatorInput}
    (remembers : host.Remembers (.call input)) : (host.call setting input).Guarded := by
  unfold Host.call
  split
  · rename_i serves
    intro _
    have blocking := guarded serves
    have known : (host.coordinator.recorded input).filter (fun entry => entry.status = "unknown") =
        [] := by
      rw [List.filter_eq_nil_iff]
      intro entry member
      simpa using remembers serves entry member
    by_cases resolves : ∃ repositoryId, input = .resolveBlock repositoryId
    · obtain ⟨repositoryId, rfl⟩ := resolves
      refine blocking.resolveBlock ?_
      intro key pending
      obtain ⟨before, other⟩ := List.mem_filter.mp pending
      refine ⟨before, ?_⟩
      rintro rfl
      simp at other
    · have same : host.unresolvedAfter (host.coordinator.recorded input) input = host.unresolved := by
        unfold unresolvedAfter
        split
        · exact absurd ⟨_, rfl⟩ resolves
        · rw [known, List.map_nil, List.append_nil]
      rw [same]
      exact blocking.next fun repositoryId equal => resolves ⟨repositoryId, equal⟩
  · exact guarded

theorem Guarded.restart (host : Host) {restart : Restart}
    (remembers : host.Remembers (.restart restart)) : (host.restart setting restart).Guarded := by
  unfold Host.restart
  split
  · rename_i readable
    intro recovered
    obtain ⟨answered, blocked⟩ := recover_blocks recovered
    refine ⟨?_, fun _ member => absurd member List.not_mem_nil,
      fun _ member => absurd member List.not_mem_nil,
      fun _ member => absurd member List.not_mem_nil⟩
    intro key pending
    exact blocked key (.inr (remembers readable answered key pending))
  · intro serves
    cases serves

theorem Guarded.next (guarded : host.Guarded) {input : HostInput}
    (remembers : host.Remembers input) : ((machine setting).next host input).Guarded := by
  cases input with
  | call input => exact guarded.call remembers
  | restart restart => exact Guarded.restart host remembers

theorem Guarded.acceptsResolved (guarded : host.Guarded) (input : HostInput) :
    host.AcceptsResolved input := by
  cases input with
  | call input =>
    intro serves entry member accepted
    exact (guarded serves).recorded member accepted
  | restart restart => trivial

end Host

/-- Where outcomes stay known while a process runs, and each start finds what is unresolved in
flight, no operation on it is accepted in any process until it is resolved. -/
theorem unresolved_accepts_nothing (setting : Setting) (host : Host) (down : host.up = false)
    (inputs : List HostInput)
    (remembers : (Host.machine setting).Meets Host.Remembers host inputs) :
    (Host.machine setting).Meets Host.AcceptsResolved host inputs := by
  refine (Host.machine setting).meets_of_step Host.Guarded
    (fun _ _ guarded remembers => guarded.next remembers)
    (fun _ input guarded _ => guarded.acceptsResolved input) ?_ remembers
  intro serves
  rw [down] at serves
  cases serves

def sampleHost : Host where
  coordinator := { ledger := {}, blocks := .empty, effects := [] }
  up := false
  names key := key
  origins operationId := operationId
  unresolved := []

def sampleRestart : Restart where
  readable := true
  answers _ := { compactedAt := none, appended := .stored }
  now := epoch
  effects := [.initRepository]
  names key := key

def acceptedCalls (clientRequestId : String) : List HostInput :=
  [.call (.submit "user" (workspaceRequest clientRequestId)), .call (.check 0 noLookups epoch),
    .call (.accept 0 .stored epoch)]

/-- The process is gone once an operation is accepted, and the same repository is written to
after the next start. -/
def restartedRun : List HostInput :=
  .restart sampleRestart :: acceptedCalls "one" ++ .restart sampleRestart :: acceptedCalls "two"

theorem unresolved_accepts_nothing_restarted :
    (Host.machine sampleSetting).Meets Host.AcceptsResolved sampleHost restartedRun := by
  apply unresolved_accepts_nothing sampleSetting sampleHost rfl
  refine ⟨?_, ?_, ?_, ?_, ?_, ?_, ?_, ?_, trivial⟩
  · intro _ _ key pending
    exact absurd pending List.not_mem_nil
  · exact fun _ => by decide
  · exact fun _ => by decide
  · exact fun _ => by decide
  · -- what is in flight is what is unresolved
    intro _ _ key pending
    have single : key ∈ ["root:root"] := pending
    rw [List.mem_singleton] at single
    exact ⟨_, List.mem_cons_self, single.symm⟩
  · exact fun _ => by decide
  · exact fun _ => by decide
  · exact fun _ => by decide

def restartedTwice : List HostInput :=
  .restart sampleRestart :: acceptedCalls "one" ++
    .restart sampleRestart :: .restart sampleRestart :: acceptedCalls "two"

def threwRun : List HostInput :=
  .restart sampleRestart :: acceptedCalls "one" ++
    .call (.recordStart 0 .stored) :: .call (.begin 0 epoch) ::
      .call (.finish 0 (.threw none) epoch) :: .call (.recordOutcome 0 .stored) ::
        acceptedCalls "two"

theorem unresolved_accepts_write :
    ¬ (Host.machine sampleSetting).Meets Host.AcceptsResolved sampleHost restartedTwice ∧
      ¬ (Host.machine sampleSetting).Meets Host.AcceptsResolved sampleHost threwRun := by
  constructor <;> decide

end Refyard.HostNode
