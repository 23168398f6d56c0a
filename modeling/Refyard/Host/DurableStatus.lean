import Refyard.Host.Lineage

/-! The status a directory holds for an operation: how it moves, and that an effect runs
only after its running record is there. -/
namespace Refyard

namespace Journal

variable {journal : Journal}

theorem named_of_publishIndex {root : StateRoot} (coherent : journal.publishIndex.Coherent)
    (rooted : journal.publishIndex.root = some root) {id : String} {record : JournalRecord}
    (held : journal.get id = some record) : id ∈ root.named := by
  have ordered : journal.Ordered := ⟨coherent.once, coherent.mem_order⟩
  obtain ⟨before, -, rfl⟩ := exists_root_of_publish rooted
  rw [StateRoot.named_publish_index, indexOf_ids ordered, ordered.mem_order]
  exact ⟨record, held⟩

theorem Evolves.named {next : Journal} (evolves : journal.Evolves next)
    (coherent : journal.Coherent) {root : StateRoot} (rooted : next.root = some root) :
    ∃ earlier, journal.root = some earlier ∧ earlier.named ⊆ root.named := by
  induction evolves using Relation.ReflTransGen.head_induction_on with
  | refl => exact ⟨root, rooted, List.Subset.refl _⟩
  | head change _ ih =>
    obtain ⟨call, change⟩ := change
    obtain ⟨middle, hmiddle, later⟩ := ih (coherent.change change)
    have both := change_root_isSome change
    rw [hmiddle, Option.isSome_some] at both
    obtain ⟨earlier, hearlier⟩ := Option.isSome_iff_exists.mp both.symm
    obtain ⟨after, hafter, kept⟩ := change_named coherent change hearlier
    rw [hmiddle] at hafter
    cases Option.some.inj hafter
    exact ⟨earlier, hearlier, fun _ member => later (kept member)⟩

theorem Evolves.rooted {next : Journal} (evolves : journal.Evolves next) :
    next.root.isSome = journal.root.isSome := by
  induction evolves with
  | refl => rfl
  | tail _ change ih =>
    obtain ⟨call, change⟩ := change
    exact (change_root_isSome change).trans ih

end Journal

namespace Host

def Published (host : Host) : Prop :=
  ∀ root, host.engine.journal.root = some root →
    ∀ ticket, host.engine.queue.Holds ticket → ticket.id ∈ root.named

section
variable {digest : MutationRequest → String} {host next : Host}

theorem published_fresh (path : Option String) (effects : List MutationKind) :
    (fresh path effects).Published := by
  intro root rooted ticket held
  simp [Queue.Holds, fresh, MutationEngine.build, Queue.new] at held

variable {input : HostInput}

theorem Published.move (published : host.Published) (wired : host.Wired)
    (move : Move digest host input next) : next.Published := by
  intro root rooted ticket held
  obtain evolves | ⟨-, -, idle⟩ := move.evolves_or_inherits
  · have coherent := (wired.move digest move).trusted.toCoherent
    rcases move.holds wired held with before |
      ⟨hid, -, -, -, -, nowMs, -, submission, -, -, -, -, -, journal⟩
    · obtain ⟨earlier, hearlier, kept⟩ := evolves.named wired.trusted.toCoherent rooted
      exact kept (published earlier hearlier ticket before)
    · rw [journal] at rooted coherent
      rw [hid]
      exact Journal.named_of_publishIndex coherent rooted (Journal.get_enrol_self _ _)
  · exact absurd held (idle ticket)

/-- The directory names the operation of every ticket in the queue, in every state a host
reaches. -/
theorem published_after (path : Option String) (effects : List MutationKind)
    (inputs : List HostInput) : ((machine digest).after (fresh path effects) inputs).Published :=
  ((machine digest).invariant (fun host => host.Wired ∧ host.Published)
    (fun _ input held => ⟨held.1.move digest (move_next digest held.1 input),
      held.2.move held.1 (move_next digest held.1 input)⟩)
    ⟨wired_fresh path effects, published_fresh path effects⟩ inputs).2

theorem Move.rooted (move : Move digest host input next) :
    next.engine.journal.root.isSome = host.engine.journal.root.isSome := by
  obtain evolves | ⟨-, inherits, -⟩ := move.evolves_or_inherits
  · exact evolves.rooted
  · exact inherits.root

theorem rooted_after (directory : String) (effects : List MutationKind) (inputs : List HostInput) :
    ((machine digest).after (fresh (some directory) effects) inputs).engine.journal.root.isSome =
      true :=
  ((machine digest).invariant
    (fun host => host.Wired ∧ host.engine.journal.root.isSome = true)
    (fun _ input held => ⟨held.1.move digest (move_next digest held.1 input),
      (move_next digest held.1 input).rooted.trans held.2⟩)
    ⟨wired_fresh _ effects, rfl⟩ inputs).2

theorem durable_of_started (wired : host.Wired) (published : host.Published)
    (rooted : host.engine.journal.root.isSome = true) {ticket : QueueTicket MutationRequest}
    (h : (machine digest).output host input = .effectStarted ticket) :
    ((machine digest).next host input).engine.journal.durableStatus ticket.id = some .running := by
  have move := move_next digest wired input
  obtain ⟨fault, nowMs, record, -, task, held, -, -, hnext⟩ := started_of_output wired h
  have coherent := (wired.move digest move).trusted.toCoherent
  obtain ⟨root, hroot⟩ := Option.isSome_iff_exists.mp (move.rooted.trans rooted)
  have named := published.move wired move root hroot ticket
    (hnext ▸ .inr (wired.running task).2)
  have stored : ((machine digest).next host input).engine.journal.get ticket.id =
      some (Journal.startedRecord nowMs record) := by
    have hid : record.operationId = ticket.id := Table.key_of_get? held
    rw [hnext, ← hid]
    exact Journal.get_store_self _ (Journal.startedRecord nowMs record)
  rw [Journal.durableStatus,
    (Journal.durableRecord_eq_some coherent).mpr ⟨root, hroot, named, stored⟩]
  rfl

/-- A durable status moves only as the call at hand allows, and never once it is terminal;
and an effect starts only when the directory has its operation as running. -/
theorem durable_status_machine (digest : MutationRequest → String) (directory : String)
    (effects : List MutationKind) :
    (∀ (events : List JournalEvent) (event : JournalEvent) (id : String) (status : OperationStatus),
      (journalMachine.after (.fresh (some directory)) events).durableStatus id = some status →
        ∃ moved, (journalMachine.next (journalMachine.after (.fresh (some directory)) events)
            event).durableStatus id = some moved ∧
          (moved = status ∨ event.moves status moved = true)) ∧
    (∀ (events later : List JournalEvent) (id : String) (status : OperationStatus),
      (journalMachine.after (.fresh (some directory)) events).durableStatus id = some status →
        status ≠ .accepted ∧ status ≠ .running →
          (journalMachine.after (.fresh (some directory)) (events ++ later)).durableStatus id =
            some status) ∧
    (∀ (inputs : List HostInput) (input : HostInput) (ticket : QueueTicket MutationRequest),
      (machine digest).output ((machine digest).after (fresh (some directory) effects) inputs)
          input = .effectStarted ticket → ((machine digest).after (fresh (some directory) effects)
          (inputs ++ [input])).engine.journal.durableStatus ticket.id = some .running) := by
  refine ⟨fun events event id status h => ?_, fun events later id status h terminal => ?_,
    fun inputs input ticket h => ?_⟩
  · exact Journal.durableStatus_event (Journal.coherent_after _ events) event h
  · rw [journalMachine.after_append]
    exact Journal.durableStatus_terminal (Journal.coherent_after _ events) terminal h later
  · rw [(machine digest).after_append]
    exact durable_of_started (wired_after digest (wired_fresh _ effects) inputs)
      (published_after _ effects inputs) (rooted_after directory effects inputs) h

/-- An operation that is accepted, starts, and is found running. -/
theorem durable_status_machine_started :
    (machine sampleDigest).output ((machine sampleDigest).after sampleHost (accept "a" "repo_1"))
        (.start "op_1" none 2) =
      .effectStarted ⟨"op_1", "owner", sampleKey, .write, 0, sampleRequest "a" "repo_1"⟩ ∧
    ((machine sampleDigest).after sampleHost
      (accept "a" "repo_1" ++ [.start "op_1" none 2])).engine.journal.durableStatus "op_1" =
        some .running :=
  ⟨rfl, (durable_status_machine sampleDigest "state" [.unstagePaths]).2.2
    (accept "a" "repo_1") (.start "op_1" none 2)
    ⟨"op_1", "owner", sampleKey, .write, 0, sampleRequest "a" "repo_1"⟩ rfl⟩

end

end Host
end Refyard
