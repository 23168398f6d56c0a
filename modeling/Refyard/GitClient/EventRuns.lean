import Refyard.GitClient.EventClient

/-! Runs of the event stream client against a server that answers in order. -/
namespace Refyard.GitClient

/-- The frame goes on where the server stands: with the next event, or with a notice that
stands for events up to the one before it. -/
def Reading.Follows (position : Int) : Reading → Prop
  | .gap sequence fromSequence toSequence =>
      fromSequence ≤ position + 1 ∧ position < toSequence ∧ toSequence ≤ sequence
  | .event sequence _ => sequence = position + 1
  | _ => True

instance (position : Int) : (reading : Reading) → Decidable (reading.Follows position)
  | .nothing | .unparsable => inferInstanceAs (Decidable True)
  | .gap _ _ _ => inferInstanceAs (Decidable (_ ∧ _))
  | .event _ _ => inferInstanceAs (Decidable (_ = _))

def Answers (position : Int) : List (List Char) → Prop
  | [] => True
  | frame :: rest =>
      (readFrame frame).Follows position ∧ Answers ((readFrame frame).after position) rest

instance decidableAnswers (position : Int) (frames : List (List Char)) :
    Decidable (Answers position frames) :=
  match frames with
  | [] => isTrue trivial
  | frame :: rest =>
      haveI := decidableAnswers ((readFrame frame).after position) rest
      inferInstanceAs (Decidable (_ ∧ _))

/-- Every answer holds exactly what comes after the position that was asked for. -/
def Honest (client : EventClient) : ClientInput → Prop
  | .accepted _ standing => 0 ≤ standing
  | .chunk place bytes => ∀ connection ∈ client.connections[place]?,
      connection.stage = .reading → Answers connection.position (connection.body.push bytes).2
  | _ => True

instance (client : EventClient) : (input : ClientInput) → Decidable (Honest client input)
  | .accepted _ standing => inferInstanceAs (Decidable (0 ≤ standing))
  | .chunk place bytes => inferInstanceAs (Decidable (∀ connection ∈ client.connections[place]?,
      connection.stage = .reading → Answers connection.position (connection.body.push bytes).2))
  | .start _ | .stop | .refused _ _ | .failed _ _ | .ended _ | .goOn _ | .elapsed _ =>
      inferInstanceAs (Decidable True)

/-- The step sends a request. A wait that elapses when the client is stopped sends none. -/
def requests (client : EventClient) : ClientInput → Bool
  | .start token => token.isSome
  | .elapsed token =>
      match client.loop with
      | .waiting _ => !client.stopped && token.isSome
      | _ => false
  | _ => false

/-- A request is sent while no connection is in flight, and when the events behind the last
notice of a gap have come. -/
def Alone (client : EventClient) (input : ClientInput) : Prop :=
  requests client input = true →
    (∀ connection ∈ client.connections, connection.inFlight = false) ∧
      ¬ client.reached < client.sequence

instance (client : EventClient) (input : ClientInput) : Decidable (Alone client input) :=
  inferInstanceAs (Decidable (_ → _))

/-- The sequences `onEvent` was called with. -/
def sequences (told : List Note) : List Int :=
  told.filterMap fun note =>
    match note with
    | .event sequence _ => some sequence
    | _ => none

def Told (told : List Note) (number : Int) : Prop :=
  number ∈ sequences told ∨ ∃ fromSequence toSequence, Note.gap fromSequence toSequence ∈ told ∧
      fromSequence ≤ number ∧ number ≤ toSequence

namespace EventClient

def Single (client : EventClient) : Prop :=
  ∀ (place other : Nat) (connection second : Connection),
    client.connections[place]? = some connection → client.connections[other]? = some second →
      connection.inFlight = true → second.inFlight = true → place = other

structure Progress (client : EventClient) : Prop where
  positive : 0 ≤ client.base
  begun : client.base ≤ client.reached
  within : 0 < client.sequence → client.reached ≤ client.sequence
  silent : client.sequence ≤ 0 → sequences client.told = []
  increasing : (sequences client.told).Pairwise (· < ·)
  between : ∀ number ∈ sequences client.told, client.base < number ∧ number ≤ client.reached
  covered : ∀ number, client.base < number → number ≤ client.reached → Told client.told number

structure InOrder (client : EventClient) : Prop extends client.Progress where
  asked : ∀ connection ∈ client.connections, connection.stage = .fetching →
    if client.sequence > 0 then connection.since = some client.sequence ∧
      client.reached = client.sequence
    else connection.since = none
  stands : ∀ connection ∈ client.connections, connection.stage = .reading →
    connection.position = client.reached

def Uncut (client : EventClient) : Prop :=
  ∀ connection ∈ client.connections,
    Body.push {} connection.received = (connection.body, connection.frames)

/-- Nothing is heard in a step, and what is in flight behind it was in flight before it. -/
structure Keeps (client next : EventClient) : Prop where
  sequence : next.sequence = client.sequence
  base : next.base = client.base
  reached : next.reached = client.reached
  told : ∃ more, next.told = client.told ++ more ∧ sequences more = []
  flying : ∀ (place : Nat) (connection : Connection), next.connections[place]? = some connection →
    connection.inFlight = true → client.connections[place]? = some connection
  uncut : client.Uncut → next.Uncut

/-- What a step does: it hears nothing, sends a request, or goes on with one in flight. -/
inductive Moves (client : EventClient) : ClientInput → EventClient → Prop
  | keeps {input : ClientInput} {next : EventClient} (kept : client.Keeps next) :
      Moves client input next
  | sends {input : ClientInput} {next : EventClient} (sent : requests client input = true)
      (ofLoop : Bool) (sequence : next.sequence = client.sequence)
      (base : next.base = client.base) (reached : next.reached = client.reached)
      (told : next.told = client.told) (connections : next.connections = client.connections ++
        [{ ofLoop, since := if client.sequence > 0 then some client.sequence else none,
           stage := .fetching }]) : Moves client input next
  | accepts {place : Nat} {connection : Connection} {standing : Int}
      (found : client.connections[place]? = some connection)
      (fetching : connection.stage = .fetching) :
      Moves client (.accepted place standing) (client.accepted place connection.since standing)
  | reads {place : Nat} {connection : Connection} {bytes : Bytes}
      (found : client.connections[place]? = some connection)
      (reading : connection.stage = .reading) :
      Moves client (.chunk place bytes) (client.chunk place connection bytes)

variable {client later : EventClient} {place : Nat} {change : Connection → Connection}
  {connection : Connection} {input : ClientInput}

theorem inFlight_iff :
    connection.inFlight = true ↔ connection.stage = .fetching ∨ connection.stage = .reading := by
  simp [Connection.inFlight]

theorem getElem?_put {other : Nat}
    (found : (client.put place change).connections[other]? = some connection) :
    ∃ before, client.connections[other]? = some before ∧
      connection = if place = other then change before else before := by
  unfold put at found
  rw [List.getElem?_modify] at found
  obtain ⟨before, stood, now⟩ := Option.map_eq_some_iff.mp found
  refine ⟨before, stood, ?_⟩
  exact now.symm

theorem no_more (client : EventClient) :
    ∃ more, client.told = client.told ++ more ∧ sequences more = [] :=
  ⟨[], (List.append_nil _).symm, rfl⟩

theorem Keeps.put (kept : client.Keeps later) (place : Nat) {stage : Stage}
    (grounded : stage = .settled ∨ stage = .done) :
    client.Keeps (later.put place fun connection => { connection with stage }) where
  sequence := kept.sequence
  base := kept.base
  reached := kept.reached
  told := kept.told
  flying := by
    intro other connection found flies
    obtain ⟨before, stood, rfl⟩ := getElem?_put found
    split at flies
    · obtain rfl | rfl := grounded <;> cases flies
    · rename_i elsewhere
      rw [if_neg elsewhere]
      exact kept.flying other before stood flies
  uncut := by
    intro uncut connection member
    obtain ⟨other, found⟩ := List.mem_iff_getElem?.mp member
    obtain ⟨before, stood, rfl⟩ := getElem?_put found
    have held := kept.uncut uncut before (List.mem_of_getElem? stood)
    split <;> exact held

theorem Keeps.settle (kept : client.Keeps later) (place : Nat) : client.Keeps (later.settle place) :=
  kept.put place (.inl rfl)

theorem Keeps.again (kept : client.Keeps later) : client.Keeps later.again := by
  unfold EventClient.again
  split <;> exact { kept with }

@[simp] theorem connections_handleFrame (client : EventClient) (frame : List Char) :
    (client.handleFrame frame).connections = client.connections := by
  unfold handleFrame handle
  split <;> rfl

@[simp] theorem connections_handleAll (client : EventClient) (frames : List (List Char)) :
    (frames.foldl handleFrame client).connections = client.connections := by
  induction frames generalizing client with
  | nil => rfl
  | cons frame frames ih => rw [List.foldl_cons, ih, connections_handleFrame]

theorem requests_elapsed {ms : Nat} {token : Option String} (waiting : client.loop = .waiting ms)
    (running : ¬ client.stopped) (some : token.isSome) : requests client (.elapsed token) = true := by
  unfold requests
  rw [waiting]
  simp [running, some]

theorem moves_connect {begun : EventClient} (stands : client.Keeps begun)
    (told : begun.told = client.told) (connections : begun.connections = client.connections)
    (ofLoop : Bool) {token : Option String}
    (sent : ¬ begun.stopped → token.isSome → requests client input = true) :
    client.Moves input (begun.connect ofLoop token) := by
  -- a connection that sends no request is never in flight
  have settled : ∀ later : EventClient, later.sequence = begun.sequence → later.base = begun.base →
      later.reached = begun.reached →
        (∃ more, later.told = client.told ++ more ∧ sequences more = []) →
          later.connections = client.connections ++ [{ ofLoop, stage := .settled }] →
            client.Keeps later := by
    intro later sequence base reached told same
    refine ⟨sequence.trans stands.sequence, base.trans stands.base, reached.trans stands.reached,
      told, ?_, ?_⟩
    · intro place connection found flies
      rw [same, List.getElem?_append] at found
      split at found
      · exact found
      · rw [List.mem_singleton.mp (List.mem_of_getElem? found)] at flies
        cases flies
    · intro uncut connection member
      rw [same, List.mem_append, List.mem_singleton] at member
      obtain old | rfl := member
      · exact uncut connection old
      · rfl
  unfold EventClient.connect
  split
  · exact .keeps (settled _ rfl rfl rfl stands.told (congrArg (· ++ _) connections))
  · rename_i running
    split
    · exact .keeps (settled _ rfl rfl rfl ⟨_, congrArg (· ++ _) told, rfl⟩
        (congrArg (· ++ _) connections))
    · refine .sends (sent running rfl) ofLoop stands.sequence stands.base stands.reached told ?_
      dsimp only
      rw [connections, stands.sequence]

theorem moves_at' {stages : List Stage} {act : Connection → EventClient}
    (moves : ∀ connection, client.connections[place]? = some connection →
      connection.stage ∈ stages → client.Moves input (act connection)) :
    client.Moves input (client.at' place stages act) := by
  have idle : client.Keeps client := ⟨rfl, rfl, rfl, client.no_more, fun _ _ found _ => found, id⟩
  unfold EventClient.at'
  split
  · rename_i connection found
    split
    · rename_i staged
      exact moves connection found staged
    · exact .keeps idle
  · exact .keeps idle

theorem moves (client : EventClient) (input : ClientInput) :
    client.Moves input (streaming.next client input) := by
  have idle : client.Keeps client := ⟨rfl, rfl, rfl, client.no_more, fun _ _ found _ => found, id⟩
  cases input with
  | start token =>
    have begun : client.Keeps { client with stopped := false } :=
      ⟨rfl, rfl, rfl, client.no_more, idle.flying, id⟩
    exact moves_connect begun rfl rfl false fun _ some => some
  | stop => exact .keeps ⟨rfl, rfl, rfl, client.no_more, idle.flying, id⟩
  | accepted place standing =>
    apply moves_at'
    intro connection found staged
    exact .accepts found (List.mem_singleton.mp staged)
  | refused place status =>
    apply moves_at'
    intro connection _ _
    apply Moves.keeps
    unfold EventClient.refused
    split
    · apply Keeps.settle
      exact ⟨rfl, rfl, rfl, ⟨_, rfl, rfl⟩, idle.flying, id⟩
    · apply Keeps.settle
      exact ⟨rfl, rfl, rfl, client.no_more, idle.flying, id⟩
  | failed place message =>
    apply moves_at'
    intro connection _ _
    apply Moves.keeps
    unfold EventClient.failed
    dsimp only
    split
    · apply Keeps.settle
      exact ⟨rfl, rfl, rfl, client.no_more, idle.flying, id⟩
    · apply Keeps.settle
      exact ⟨rfl, rfl, rfl, ⟨_, rfl, rfl⟩, idle.flying, id⟩
  | chunk place bytes =>
    apply moves_at'
    intro connection found staged
    exact .reads found (List.mem_singleton.mp staged)
  | ended place =>
    apply moves_at'
    intro connection _ _
    apply Moves.keeps
    apply Keeps.settle
    exact ⟨rfl, rfl, rfl, client.no_more, idle.flying, id⟩
  | goOn place =>
    apply moves_at'
    intro connection _ _
    have done := idle.put place (.inr rfl)
    apply Moves.keeps
    unfold EventClient.goOn
    dsimp only
    split
    · apply Keeps.again
      split
      · exact { done with }
      · exact done
    · split
      · exact done
      · exact done.again
  | elapsed token =>
    change client.Moves _ (client.elapsed token)
    unfold EventClient.elapsed
    split
    · rename_i waiting
      split
      · exact .keeps ⟨rfl, rfl, rfl, client.no_more, idle.flying, id⟩
      · have begun : client.Keeps { client with loop := .connecting } :=
          ⟨rfl, rfl, rfl, client.no_more, idle.flying, id⟩
        exact moves_connect begun rfl rfl true (requests_elapsed waiting)
    · exact .keeps idle

/-- What goes on with the only connection in flight leaves no other one in flight. -/
theorem Single.of_put (single : client.Single) (found : client.connections[place]? = some connection)
    (flies : connection.inFlight = true) (same : later.connections = client.connections)
    (change : Connection → Connection) (index : Nat) (other : Connection)
    (stands : (later.put place change).connections[index]? = some other)
    (alsoFlies : other.inFlight = true) : index = place ∧ other = change connection := by
  obtain ⟨before, stood, rfl⟩ := getElem?_put stands
  rw [same] at stood
  by_cases here : place = index
  · rw [if_pos here]
    rw [← here, found, Option.some_inj] at stood
    exact ⟨here.symm, congrArg change stood.symm⟩
  · rw [if_neg here] at alsoFlies
    exact absurd (single place index connection before found stood flies alsoFlies) here

theorem Single.put (single : client.Single) (found : client.connections[place]? = some connection)
    (flies : connection.inFlight = true) (same : later.connections = client.connections)
    (change : Connection → Connection) : (later.put place change).Single := by
  intro index other second third stands alsoStands secondFlies thirdFlies
  rw [(single.of_put found flies same change index second stands secondFlies).1,
    (single.of_put found flies same change other third alsoStands thirdFlies).1]

@[simp] theorem connections_begun (client : EventClient) (standing : Int) :
    (if client.sequence > 0 then client
      else { client with base := standing, reached := standing }).connections =
        client.connections := by
  split <;> rfl

theorem Single.next (single : client.Single) (alone : Alone client input)
    (moves : client.Moves input later) : later.Single := by
  cases moves with
  | keeps kept =>
    intro place other connection second found alsoFound flies alsoFlies
    exact single place other connection second (kept.flying place connection found flies)
      (kept.flying other second alsoFound alsoFlies) flies alsoFlies
  | sends sent ofLoop _ _ _ _ connections =>
    have last : ∀ place connection, later.connections[place]? = some connection →
        connection.inFlight = true → place = client.connections.length := by
      intro place connection found flies
      rw [connections, List.getElem?_append] at found
      split at found
      · rw [(alone sent).1 connection (List.mem_of_getElem? found)] at flies
        cases flies
      · have within := (List.getElem?_eq_some_iff.mp found).1
        rw [List.length_singleton] at within
        omega
    intro place other connection second found alsoFound flies alsoFlies
    rw [last place connection found flies, last other second alsoFound alsoFlies]
  | accepts found fetching =>
    exact single.put found (inFlight_iff.mpr (.inl fetching)) (connections_begun ..) _
  | reads found reading =>
    exact single.put found (inFlight_iff.mpr (.inr reading)) (connections_handleAll ..) _

theorem Told.append {told : List Note} {number : Int} (known : Told told number) (more : List Note) :
    Told (told ++ more) number := by
  unfold Told sequences at *
  rw [List.filterMap_append]
  obtain event | ⟨fromSequence, toSequence, gap, range⟩ := known
  · exact .inl (List.mem_append_left _ event)
  · exact .inr ⟨fromSequence, toSequence, List.mem_append_left _ gap, range⟩

theorem sequences_append (told more : List Note) :
    sequences (told ++ more) = sequences told ++ sequences more :=
  List.filterMap_append

theorem Progress.keep {next : EventClient} (progress : client.Progress)
    (sequence : next.sequence = client.sequence) (base : next.base = client.base)
    (reached : next.reached = client.reached)
    (told : ∃ more, next.told = client.told ++ more ∧ sequences more = []) : next.Progress := by
  obtain ⟨more, told, none⟩ := told
  have same : sequences next.told = sequences client.told := by
    rw [told, sequences_append, none, List.append_nil]
  refine ⟨?_, ?_, ?_, ?_, ?_, ?_, ?_⟩
  · rw [base]
    exact progress.positive
  · rw [base, reached]
    exact progress.begun
  · rw [sequence, reached]
    exact progress.within
  · rw [sequence, same]
    exact progress.silent
  · rw [same]
    exact progress.increasing
  · rw [same, base, reached]
    exact progress.between
  · rw [base, reached, told]
    intro number above below
    exact Told.append (progress.covered number above below) more

theorem Told.prepend {more : List Note} {number : Int} (known : Told more number)
    (told : List Note) : Told (told ++ more) number := by
  unfold Told
  rw [sequences_append]
  obtain event | ⟨fromSequence, toSequence, gap, range⟩ := known
  · exact .inl (List.mem_append_right _ event)
  · exact .inr ⟨fromSequence, toSequence, List.mem_append_right _ gap, range⟩

theorem Progress.advance {next : EventClient} (progress : client.Progress) {note : Note}
    {sequence : Int} (sequenced : next.sequence = max client.sequence sequence)
    (base : next.base = client.base) (told : next.told = client.told ++ [note])
    (farther : client.reached < next.reached) (last : next.reached ≤ sequence)
    (own : sequences [note] = [] ∨ sequences [note] = [next.reached])
    (known : ∀ number, client.reached < number → number ≤ next.reached → Told [note] number) :
    next.Progress := by
  have positive := progress.positive
  have begun := progress.begun
  have only : ∀ number ∈ sequences [note], number = next.reached := by
    intro number member
    obtain none | single := own
    · rw [none] at member
      cases member
    · rw [single] at member
      exact List.mem_singleton.mp member
  have same : sequences next.told = sequences client.told ++ sequences [note] := by
    rw [told, sequences_append]
  refine ⟨?_, ?_, ?_, ?_, ?_, ?_, ?_⟩
  · rw [base]
    exact positive
  · rw [base]
    omega
  · rw [sequenced]
    omega
  · rw [sequenced]
    omega
  · rw [same, List.pairwise_append]
    refine ⟨progress.increasing, ?_, ?_⟩
    · obtain none | single := own
      · rw [none]
        exact List.Pairwise.nil
      · rw [single]
        exact List.pairwise_singleton _ _
    · intro number member other also
      have := (progress.between number member).2
      rw [only other also]
      omega
  · rw [same, base]
    intro number member
    obtain earlier | now := List.mem_append.mp member
    · have := progress.between number earlier
      omega
    · rw [only number now]
      omega
  · rw [base, told]
    intro number above below
    by_cases earlier : number ≤ client.reached
    · exact Told.append (progress.covered number above earlier) _
    · exact Told.prepend (known number (by omega) below) _

theorem Progress.handle (progress : client.Progress) {reading : Reading}
    (follows : reading.Follows client.reached) : (client.handle reading).Progress ∧
      (client.handle reading).reached = reading.after client.reached := by
  cases reading with
  | nothing => exact ⟨progress, rfl⟩
  | unparsable => exact ⟨progress.keep rfl rfl rfl ⟨_, rfl, rfl⟩, rfl⟩
  | gap sequence fromSequence toSequence =>
    obtain ⟨first, farther, last⟩ := follows
    refine ⟨progress.advance rfl rfl rfl farther last (.inl rfl) ?_, rfl⟩
    intro number above below
    refine .inr ⟨fromSequence, toSequence, List.mem_singleton_self _, ?_, below⟩
    omega
  | event sequence envelope =>
    change sequence = client.reached + 1 at follows
    have farther : client.reached < sequence := by omega
    refine ⟨progress.advance rfl rfl rfl farther (Int.le_refl _) (.inr rfl) ?_, rfl⟩
    intro number above below
    change number ≤ sequence at below
    have same : number = sequence := by omega
    exact .inl (List.mem_singleton.mpr same)

theorem Progress.handleAll (progress : client.Progress) {frames : List (List Char)} {position : Int}
    (stands : position = client.reached) (answers : Answers position frames) :
    (frames.foldl handleFrame client).Progress ∧ (frames.foldl handleFrame client).reached =
        frames.foldl (fun position frame => (readFrame frame).after position) position := by
  subst stands
  induction frames generalizing client with
  | nil => exact ⟨progress, rfl⟩
  | cons frame frames ih =>
    obtain ⟨progressed, reached⟩ := progress.handle answers.1
    have later : Answers (client.handleFrame frame).reached frames := by
      unfold EventClient.handleFrame
      rw [reached]
      exact answers.2
    obtain ⟨done, last⟩ := ih progressed later
    rw [List.foldl_cons, List.foldl_cons]
    refine ⟨done, last.trans ?_⟩
    rw [← reached]

theorem InOrder.accepted (inOrder : client.InOrder) (single : client.Single)
    (found : client.connections[place]? = some connection) (fetching : connection.stage = .fetching)
    {standing : Int} (honest : 0 ≤ standing) :
    (client.accepted place connection.since standing).InOrder := by
  have asked := inOrder.asked connection (List.mem_of_getElem? found) fetching
  -- the answer begins where the listener stands
  have begins : ∀ (begun : EventClient) (position : Int), begun.Progress →
      begun.connections = client.connections → position = begun.reached →
        (begun.put place fun connection =>
          { connection with
            stage := .reading, body := {}, received := [], frames := [], position }).InOrder := by
    intro begun position progress same stands
    have only := single.of_put found (inFlight_iff.mpr (.inl fetching)) same fun connection =>
      { connection with stage := .reading, body := {}, received := [], frames := [], position }
    refine ⟨progress.keep rfl rfl rfl begun.no_more, ?_, ?_⟩
    · intro other member alsoFetching
      obtain ⟨index, found⟩ := List.mem_iff_getElem?.mp member
      rw [(only index other found (inFlight_iff.mpr (.inl alsoFetching))).2] at alsoFetching
      cases alsoFetching
    · intro other member alsoReading
      obtain ⟨index, found⟩ := List.mem_iff_getElem?.mp member
      rw [(only index other found (inFlight_iff.mpr (.inr alsoReading))).2]
      exact stands
  unfold EventClient.accepted
  by_cases positive : client.sequence > 0
  · rw [if_pos positive] at asked ⊢
    apply begins
    · exact inOrder.toProgress.keep rfl rfl rfl client.no_more
    · rfl
    · rw [asked.1]
      exact asked.2.symm
  · rw [if_neg positive] at asked ⊢
    have none : sequences client.told = [] := inOrder.silent (by omega)
    apply begins
    · refine ⟨honest, Int.le_refl _, ?_, fun _ => none, inOrder.increasing, ?_, ?_⟩
      · intro alsoPositive
        exact absurd alsoPositive positive
      · dsimp only
        rw [none]
        intro number member
        cases member
      · dsimp only
        intro number above below
        omega
    · rfl
    · rw [asked]
      rfl

theorem InOrder.chunk (inOrder : client.InOrder) (single : client.Single)
    (found : client.connections[place]? = some connection) (reading : connection.stage = .reading)
    {bytes : Bytes} (answers : Answers connection.position (connection.body.push bytes).2) :
    (client.chunk place connection bytes).InOrder := by
  have stands := inOrder.stands connection (List.mem_of_getElem? found) reading
  obtain ⟨progressed, reached⟩ := inOrder.toProgress.handleAll stands answers
  have only := single.of_put found (inFlight_iff.mpr (.inr reading))
    (connections_handleAll client (connection.body.push bytes).2)
  refine ⟨progressed.keep rfl rfl rfl (no_more _), ?_, ?_⟩
  · intro other member alsoFetching
    obtain ⟨index, found⟩ := List.mem_iff_getElem?.mp member
    rw [(only _ index other found (inFlight_iff.mpr (.inl alsoFetching))).2,
      show (Connection.stage _) = .reading from reading] at alsoFetching
    cases alsoFetching
  · intro other member alsoReading
    obtain ⟨index, found⟩ := List.mem_iff_getElem?.mp member
    rw [(only _ index other found (inFlight_iff.mpr (.inr alsoReading))).2]
    exact reached.symm

theorem InOrder.next (inOrder : client.InOrder) (single : client.Single)
    (alone : Alone client input) (honest : Honest client input)
    (moves : client.Moves input later) : later.InOrder := by
  cases moves with
  | keeps kept =>
    have before : ∀ connection ∈ later.connections, connection.inFlight = true →
        connection ∈ client.connections := by
      intro connection member flies
      obtain ⟨place, found⟩ := List.mem_iff_getElem?.mp member
      exact List.mem_of_getElem? (kept.flying place connection found flies)
    refine ⟨inOrder.toProgress.keep kept.sequence kept.base kept.reached kept.told, ?_, ?_⟩
    · intro connection member fetching
      rw [kept.sequence, kept.reached]
      exact inOrder.asked connection (before connection member (inFlight_iff.mpr (.inl fetching)))
        fetching
    · intro connection member reading
      rw [kept.reached]
      exact inOrder.stands connection (before connection member (inFlight_iff.mpr (.inr reading)))
        reading
  | sends sent ofLoop sequence base reached told connections =>
    refine ⟨inOrder.toProgress.keep sequence base reached (told ▸ client.no_more), ?_, ?_⟩
    · intro connection member fetching
      rw [connections, List.mem_append, List.mem_singleton] at member
      rw [sequence, reached]
      obtain old | rfl := member
      · exact inOrder.asked connection old fetching
      · have within := inOrder.within
        have caughtUp := (alone sent).2
        dsimp only
        split
        · rename_i positive
          have := within positive
          exact ⟨rfl, by omega⟩
        · rfl
    · intro connection member reading
      rw [connections, List.mem_append, List.mem_singleton] at member
      rw [reached]
      obtain old | rfl := member
      · exact inOrder.stands connection old reading
      · cases reading
  | accepts found fetching => exact inOrder.accepted single found fetching honest
  | reads found reading => exact inOrder.chunk single found reading (honest _ found reading)

theorem Uncut.put (uncut : client.Uncut) (same : later.connections = client.connections)
    (keeps : ∀ connection, client.connections[place]? = some connection →
      Body.push {} connection.received = (connection.body, connection.frames) →
        Body.push {} (change connection).received =
          ((change connection).body, (change connection).frames)) :
    (later.put place change).Uncut := by
  intro connection member
  obtain ⟨other, found⟩ := List.mem_iff_getElem?.mp member
  obtain ⟨before, stood, rfl⟩ := getElem?_put found
  rw [same] at stood
  have held := uncut before (List.mem_of_getElem? stood)
  split
  · rename_i here
    exact keeps before (here ▸ stood) held
  · exact held

theorem Uncut.next (uncut : client.Uncut) (moves : client.Moves input later) : later.Uncut := by
  cases moves with
  | keeps kept => exact kept.uncut uncut
  | sends _ ofLoop _ _ _ _ connections =>
    intro connection member
    rw [connections, List.mem_append, List.mem_singleton] at member
    obtain old | rfl := member
    · exact uncut connection old
    · rfl
  | accepts => exact uncut.put (connections_begun ..) fun _ _ _ => rfl
  | reads found reading =>
    apply uncut.put (connections_handleAll ..)
    intro other stood held
    obtain rfl := Option.some.inj (stood.symm.trans found)
    rw [Body.push_append, held]
    rfl

theorem length_filter_le_one {α : Type} {test : α → Bool} {list : List α}
    (unique : ∀ (place other : Nat) (first second : α), list[place]? = some first →
      list[other]? = some second → test first = true → test second = true → place = other) :
    (list.filter test).length ≤ 1 := by
  induction list with
  | nil => simp
  | cons head tail ih =>
    rw [List.filter_cons]
    split
    · rename_i meets
      have none : tail.filter test = [] := by
        rw [List.filter_eq_nil_iff]
        intro other member alsoMeets
        obtain ⟨place, found⟩ := List.mem_iff_getElem?.mp member
        have same := unique 0 (place + 1) head other rfl found meets alsoMeets
        omega
      simp [none]
    · apply ih
      intro place other first second found alsoFound meets alsoMeets
      have same := unique (place + 1) (other + 1) first second found alsoFound meets alsoMeets
      omega

theorem Single.reading_le_one (single : client.Single) :
    (client.connections.filter fun connection => connection.stage = .reading).length ≤ 1 := by
  apply length_filter_le_one
  intro place other first second found alsoFound reads alsoReads
  apply single place other first second found alsoFound
  · simp_all [Connection.inFlight]
  · simp_all [Connection.inFlight]

end EventClient

def fresh (baseRetryMs : Nat) : EventClient := { baseRetryMs }

/-- In a run that sends each request when no connection is in flight and nothing announced is
still to come, at most one body is read at a time, and against an honest server the events are told
in order, each once, and none is left out without a notice. The frames of a body never depend
on how it was cut. -/
theorem events_told_once (baseRetryMs : Nat) (inputs : List ClientInput)
    (alone : streaming.Meets Alone (fresh baseRetryMs) inputs) :
    ((streaming.after (fresh baseRetryMs) inputs).connections.filter fun connection =>
        connection.stage = .reading).length ≤ 1 ∧
      (streaming.Meets Honest (fresh baseRetryMs) inputs →
        (sequences (streaming.after (fresh baseRetryMs) inputs).told).Pairwise (· < ·) ∧
          ∀ last ∈ sequences (streaming.after (fresh baseRetryMs) inputs).told,
            ∀ number, (streaming.after (fresh baseRetryMs) inputs).base < number →
              number ≤ last → Told (streaming.after (fresh baseRetryMs) inputs).told number) ∧
      ∀ connection ∈ (streaming.after (fresh baseRetryMs) inputs).connections,
        connection.frames = (Body.push {} connection.received).2 := by
  have begun : (fresh baseRetryMs).Single := by
    intro place other connection second found
    cases found
  have empty : (fresh baseRetryMs).InOrder := by
    refine ⟨⟨Int.le_refl _, Int.le_refl _, fun _ => Int.le_refl _, fun _ => rfl,
      List.Pairwise.nil, ?_, ?_⟩, ?_, ?_⟩
    · intro number member
      cases member
    · intro number above below
      change (0 : Int) < number at above
      change number ≤ (0 : Int) at below
      omega
    · intro connection member
      cases member
    · intro connection member
      cases member
  refine ⟨?_, ?_, ?_⟩
  · apply EventClient.Single.reading_le_one
    exact streaming.invariant_of_step EventClient.Single
      (fun client input single alone => single.next alone (client.moves input)) begun alone
  · intro honest
    have inOrder := (streaming.invariant_of_step
      (fun client => client.Single ∧ client.InOrder)
      (fun client input held met => ⟨held.1.next met.1 (client.moves input),
        held.2.next held.1 met.1 met.2 (client.moves input)⟩)
      ⟨begun, empty⟩ (streaming.meets_and alone honest)).2
    refine ⟨inOrder.increasing, ?_⟩
    intro last member number above below
    exact inOrder.covered number above (Int.le_trans below (inOrder.between last member).2)
  · intro connection member
    have none : (fresh baseRetryMs).Uncut := by
      intro connection member
      cases member
    have uncut := streaming.invariant EventClient.Uncut
      (fun client input uncut => uncut.next (client.moves input)) none inputs
    rw [uncut connection member]

def exampleFrame (sequence : Nat) : Bytes :=
  s!"id: {sequence}\nevent: session\ndata: \x7b\"sequence\":{sequence},\"payload\":\x7b\x7d\x7d\n\n".toUTF8.toList

/-- The server has lost the events from 3 to 4 and stands at 5. -/
def exampleGap : Bytes :=
  "data: \x7b\"sequence\":5,\"payload\":\x7b\"kind\":\"eventGap\",\"fromSequence\":3,\"toSequence\":4\x7d\x7d\n\n".toUTF8.toList

/-- The stream ends twice, the second answer begins with a notice, and a wait elapses after the
client was stopped beside a body that is still read. -/
def reconnecting : List ClientInput :=
  [.start (some "token"), .accepted 0 0, .chunk 0 (exampleFrame 1 ++ (exampleFrame 2).take 9),
    .chunk 0 ((exampleFrame 2).drop 9), .ended 0, .goOn 0, .elapsed (some "token"), .accepted 1 5,
    .chunk 1 exampleGap, .chunk 1 (exampleFrame 5), .ended 1, .goOn 1, .stop,
    .start (some "token"), .accepted 2 5, .chunk 2 (exampleFrame 6), .stop, .elapsed (some "token")]

theorem events_told_once_reconnecting :
    let client := streaming.after (fresh 1000) reconnecting
    sequences client.told = [1, 2, 5, 6] ∧
      (client.connections.filter fun connection => connection.stage = .reading).length ≤ 1 ∧
      ((sequences client.told).Pairwise (· < ·) ∧
        ∀ last ∈ sequences client.told, ∀ number, client.base < number → number ≤ last →
          Told client.told number) ∧
      ∀ connection ∈ client.connections,
        connection.frames = (Body.push {} connection.received).2 := by
  have met : sequences (streaming.after (fresh 1000) reconnecting).told = [1, 2, 5, 6] ∧
      streaming.Meets Alone (fresh 1000) reconnecting ∧
        streaming.Meets Honest (fresh 1000) reconnecting := by
    unfold reconnecting exampleFrame exampleGap
    simp only [toList_toUTF8, String.toList_append, toString]
    rw [String.toList_ofList, String.toList_ofList, String.toList_ofList]
    decide +kernel
  obtain ⟨one, ordered, uncut⟩ := events_told_once 1000 reconnecting met.2.1
  exact ⟨met.1, one, ordered met.2.2, uncut⟩

/-- The loop of the first start wakes beside the connection of the second one. -/
def restarting : List ClientInput :=
  [.start (some "token"), .accepted 0 0, .chunk 0 (exampleFrame 1), .ended 0, .goOn 0, .stop,
    .start (some "token"), .accepted 1 0, .elapsed (some "token"), .accepted 2 0,
    .chunk 1 (exampleFrame 2), .chunk 2 (exampleFrame 2)]

theorem restarted_client_hears_twice :
    ((streaming.after (fresh 1000) restarting).connections.map fun connection =>
        connection.stage) = [.done, .reading, .reading] ∧
      sequences (streaming.after (fresh 1000) restarting).told = [1, 2, 2] := by
  unfold restarting exampleFrame
  simp only [toList_toUTF8, String.toList_append, toString]
  rw [String.toList_ofList, String.toList_ofList, String.toList_ofList]
  constructor <;> decide +kernel

end Refyard.GitClient
