import Refyard.Host.Invariant

/-! Whether an accepted operation is left waiting although nothing is in its way. Only an
accepted submission starts what the queue has room for; a slot that is given back starts
nothing. -/
namespace Refyard

/-- Once a writer gives its slot back nothing waits that could start, exactly when all that
waits does so behind another writer. -/
theorem Queue.release_drained_iff {J : Type} {queue : Queue J} (valid : queue.Valid) {id : String}
    {ticket : QueueTicket J} (held : queue.running.get? id = some ticket)
    (write : ticket.mode = .write) (writes : ∀ waiting ∈ queue.pending, waiting.mode = .write) :
    (∀ waiting ∈ (queue.release id).pending, (queue.release id).canStart waiting = false) ↔
      ∀ waiting ∈ queue.pending,
        waiting.repositoryId ∈ queue.writers ∧ waiting.repositoryId ≠ ticket.repositoryId := by
  have room : (queue.running.erase id).size < queue.limits.maxGlobalGitProcesses := by
    have shrunk := Table.size_erase held
    have few := valid.fewRunning
    omega
  rw [release_pending]
  refine forall₂_congr fun waiting member => ?_
  rw [Bool.eq_false_iff, ne_eq, canStart_iff, mem_release_writers held]
  simp [room, write, writes waiting member, eq_comm]

namespace Host

def Drained (host : Host) : Prop :=
  ∀ ticket ∈ host.engine.queue.pending, host.engine.queue.canStart ticket = false

def Quiescent (host : Host) : Prop := host.tasks.values = [] ∧ host.submissions = []

def WaitsBehindOthers (host : Host) (ticket : QueueTicket MutationRequest) : Prop :=
  ∀ waiting ∈ host.engine.queue.pending,
    waiting.repositoryId ∈ host.engine.queue.writers ∧ waiting.repositoryId ≠ ticket.repositoryId

def ReachesEffect (host : Host) (id : String) (ticket : QueueTicket MutationRequest)
    (fault : Option WriteFault) : Prop :=
  ticket.job.operation.kind ∈ host.engine.effects ∧
    ∃ record ∈ host.engine.journal.get id, record.status = .accepted ∧
      host.engine.journal.takesRecord fault id = true

/-- The steps that strand nobody: whoever gives a slot back is not the one others wait
for, and none of them waits for a slot alone. -/
def StrandsNobody (host : Host) : HostInput → Prop
  | .start id fault _ =>
      ∀ task ∈ host.tasks.get? id, task.effectRunning = false →
        host.ReachesEffect id task.ticket fault ∨ host.WaitsBehindOthers task.ticket
  | .finish id _ _ _ _ | .abandon id =>
      ∀ task ∈ host.tasks.get? id, task.effectRunning = true → host.WaitsBehindOthers task.ticket
  | _ => True

instance (host : Host) (ticket : QueueTicket MutationRequest) :
    Decidable (host.WaitsBehindOthers ticket) := by
  unfold WaitsBehindOthers
  infer_instance

instance (host : Host) (id : String) (ticket : QueueTicket MutationRequest)
    (fault : Option WriteFault) : Decidable (host.ReachesEffect id ticket fault) := by
  unfold ReachesEffect
  infer_instance

instance (host : Host) : DecidablePred host.StrandsNobody
  | .start .. | .finish .. | .abandon .. => by unfold StrandsNobody; infer_instance
  | .submit .. | .resume .. | .drop .. | .cancel .. | .acknowledge .. | .restart .. =>
      inferInstanceAs (Decidable True)

section
variable {digest : MutationRequest → String} {host next : Host}

theorem drained_fresh (path : Option String) (effects : List MutationKind) :
    (fresh path effects).Drained := by
  simp [Drained, fresh, MutationEngine.build, Queue.new]

theorem drained_ended_iff (wired : host.Wired) {id : String} {effectRunning : Bool}
    {ticket : QueueTicket MutationRequest}
    (task : host.tasks.get? id = some ⟨ticket, effectRunning⟩) :
    (host.ended id).Drained ↔ host.WaitsBehindOthers ticket := by
  obtain ⟨rfl, runs⟩ := wired.running task
  exact Queue.release_drained_iff wired.sound.toValid runs (wired.writes ticket (.inr runs))
    fun waiting member => wired.writes waiting (.inl member)

theorem behindOthers_iff {id : String} {ticket : QueueTicket MutationRequest}
    (task : host.tasks.get? id = some ⟨ticket, true⟩) :
    (∀ other ∈ host.tasks.get? id, other.effectRunning = true →
        host.WaitsBehindOthers other.ticket) ↔ host.WaitsBehindOthers ticket := by
  simp [task]

theorem drained_next_iff (wired : host.Wired) (drained : host.Drained) (input : HostInput) :
    ((machine digest).next host input).Drained ↔ host.StrandsNobody input := by
  have move := move_next digest wired input
  generalize (machine digest).next host input = next at move
  cases move with
  | still idle =>
    refine iff_of_true drained ?_
    cases input with
    | start id fault nowMs =>
      rintro ⟨ticket, effectRunning⟩ task waits
      obtain rfl : effectRunning = false := waits
      exact absurd task (idle ticket)
    | finish id outcome fault nowMs laterMs =>
      rintro ⟨ticket, effectRunning⟩ task runs
      obtain rfl : effectRunning = true := runs
      exact absurd task (idle ticket)
    | abandon id =>
      rintro ⟨ticket, effectRunning⟩ task runs
      obtain rfl : effectRunning = true := runs
      exact absurd task (idle ticket)
    | _ => trivial
  | waits | gone | refused | unrecorded | crowded => exact iff_of_true drained trivial
  | queued waiting passed recorded joined hid hactor hkey hmode hjob absent =>
    have idle := mintedId_idle wired (append_ok recorded).1
    rw [← hid] at idle absent
    exact iff_of_true (Queue.takeStartable_spec (wired.sound.joined idle absent)).stuck trivial
  | unstarted task why =>
    rw [drained_ended_iff wired task]
    refine ⟨fun behind other hother _ => ?_, fun strands => ?_⟩
    · cases Option.some.inj (task.symm.trans hother)
      exact .inr behind
    · refine (strands _ task rfl).resolve_left ?_
      rintro ⟨-, record, held, accepted, takes⟩
      rw [why record held accepted] at takes
      contradiction
  | started task record held accepted takes implemented =>
    refine iff_of_true drained fun other hother _ => .inl ?_
    cases Option.some.inj (task.symm.trans hother)
    exact ⟨implemented, record, held, accepted, takes⟩
  | unrunnable task record held accepted takes missing =>
    refine (drained_ended_iff wired task).trans
      ⟨fun behind other hother _ => ?_, fun strands => ?_⟩
    · cases Option.some.inj (task.symm.trans hother)
      exact .inr behind
    · exact (strands _ task rfl).resolve_left fun reaches => missing reaches.1
  | unfinished task | finished task | abandoned task =>
    exact (drained_ended_iff wired task).trans (behindOthers_iff task).symm
  | cancelled before ticket after parts =>
    refine iff_of_true (fun waiting member => drained waiting ?_) trivial
    rw [parts]
    exact ((List.sublist_cons_self _ _).append_left _).subset member
  | acknowledged => exact iff_of_true drained trivial
  | restarted final recovery =>
    exact iff_of_true (by simp [Drained, MutationEngine.build, Queue.new]) trivial

/-- As long as every slot that is given back strands nobody, whatever the interleaving,
nothing waits that could start; and the first other step leaves such an operation
behind. -/
theorem nobody_stranded (digest : MutationRequest → String) (path : Option String)
    (effects : List MutationKind) (inputs : List HostInput)
    (strands : (machine digest).Meets StrandsNobody (fresh path effects) inputs) :
    ((machine digest).after (fresh path effects) inputs).Drained ∧
      ∀ input, ((machine digest).next ((machine digest).after (fresh path effects) inputs)
          input).Drained ↔
        ((machine digest).after (fresh path effects) inputs).StrandsNobody input := by
  have wired := wired_after digest (wired_fresh path effects) inputs
  have held := (machine digest).invariant_of_step (fun host => host.Wired ∧ host.Drained)
    (fun _ input held met => ⟨held.1.move digest (move_next digest held.1 input),
      (drained_next_iff held.1 held.2 input).mpr met⟩)
    ⟨wired_fresh path effects, drained_fresh path effects⟩ strands
  exact ⟨held.2, drained_next_iff wired held.2⟩

/-- Two writers under two keys run to their ends; a third that waits is cancelled. -/
theorem nobody_stranded_two_writers :
    ((machine sampleDigest).after (fresh (some "state") [.unstagePaths])
      (accept "a" "repo_1" ++ accept "b" "repo_2" ++
        run "op_2" (.succeeded ⟨"unstaged", [], some 1, true, none⟩) ++ accept "c" "repo_1" ++
        [.cancel "owner" "op_3" none 4] ++ run "op_1" (.failed failure))).Drained :=
  (nobody_stranded sampleDigest (some "state") [.unstagePaths] _ (by decide)).1

/-- The second of two writers of one key waits on after the first has ended. -/
theorem second_writer_is_stranded :
    ¬∀ inputs, ((machine sampleDigest).after sampleHost inputs).Quiescent →
      ((machine sampleDigest).after sampleHost inputs).Drained := by
  intro drained
  have quiescent : ((machine sampleDigest).after sampleHost (accept "a" "repo_1" ++
      accept "b" "repo_1" ++ run "op_1" (.failed failure))).Quiescent := by
    unfold Quiescent
    decide
  have left := drained _ quiescent
  unfold Drained at left
  exact absurd left (by decide)

end

end Host
end Refyard
