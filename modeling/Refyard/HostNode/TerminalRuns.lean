import Refyard.HostNode.TerminalOutput

/-! Runs of the terminal service. Output is delivered in order and once, to the streams of the
session that opened the terminal; it comes after the exit where the shell still writes when
the exit has been told. -/
namespace Refyard.Terminal

namespace Session

variable {session : Session}

@[simp] theorem subscriber_take (session : Session) (piece : Bytes) :
    (session.take piece).subscriber = session.subscriber := by
  unfold take
  split
  · simp
  · rfl

theorem inTime_note {event : Seen} (other : ∀ stream sessionId data,
    event ≠ .sent stream (.output sessionId data)) :
    EachAfter InTime (session.note event).seen ↔ EachAfter InTime session.seen := by
  rw [seen_note, EachAfter.concat, and_iff_left_iff_imp]
  intro _
  unfold InTime
  split
  · rename_i stream sessionId data
    exact absurd rfl (other stream sessionId data)
  · trivial

theorem inTime_send_exit (sessionId : String) (exitCode : Option Int) :
    EachAfter InTime (session.send (.exit sessionId exitCode)).seen ↔
      EachAfter InTime session.seen := by
  unfold send
  split
  · apply inTime_note
    intro stream other data same
    cases same
  · rfl

variable (piece : Bytes) (list : List Bytes)

theorem inTime_take : EachAfter InTime (session.take piece).seen ↔
      EachAfter InTime session.seen ∧ (session.subscriber ≠ none → exitTold session.seen = false) := by
  unfold take send
  cases listens : session.subscriber with
  | none => simp
  | some stream =>
    rw [seen_note, EachAfter.concat]
    simp [InTime]

theorem exitTold_take : exitTold (session.take piece).seen = exitTold session.seen := by
  unfold take send
  cases listens : session.subscriber with
  | none => rfl
  | some stream =>
    rw [seen_note, exitTold_append]
    exact Bool.or_false _

theorem inTime_takeAll :
    EachAfter InTime (list.foldl take session).seen ↔ EachAfter InTime session.seen ∧
        (list ≠ [] → session.subscriber ≠ none → exitTold session.seen = false) := by
  induction list generalizing session with
  | nil => simp
  | cons piece list ih =>
    rw [List.foldl_cons, ih, inTime_take, subscriber_take, exitTold_take, and_assoc]
    apply and_congr_right
    intro _
    constructor
    · rintro ⟨first, -⟩ -
      exact first
    · intro all
      exact ⟨all (List.cons_ne_nil _ _), fun _ => all (List.cons_ne_nil _ _)⟩

theorem inTime_dropFrom :
    EachAfter InTime (session.dropFrom list).seen ↔ EachAfter InTime session.seen := by
  induction list generalizing session with
  | nil => rfl
  | cons first list ih =>
    cases list with
    | nil => rfl
    | cons second list =>
      unfold dropFrom
      split
      · rw [ih, EachAfter.concat]
        simp [InTime]
      · rfl

theorem inTime_onData (bytes : Bytes) :
    EachAfter InTime (session.onData bytes).seen ↔ EachAfter InTime session.seen ∧
        (bytes ≠ [] → session.subscriber ≠ none → exitTold session.seen = false) := by
  have told : exitTold (session.seen ++ [.wrote bytes]) = exitTold session.seen := by
    rw [exitTold_append]
    exact Bool.or_false _
  unfold onData deliver dropOldest
  rw [inTime_dropFrom, inTime_takeAll, inTime_note (by intro stream sessionId data same; cases same),
    seen_note, subscriber_note, told, Ne, pieces_eq_nil]

theorem inTime_subscribe (caller : String) (stream : Nat) :
    EachAfter InTime (session.subscribe caller stream).seen ↔
      EachAfter InTime session.seen ∧ (session.pending ≠ [] → exitTold session.seen = false) := by
  have told : exitTold (session.handedOver caller stream).seen = exitTold session.seen := by
    unfold handedOver
    rw [seen_note, exitTold_append]
    exact Bool.or_false _
  have began : EachAfter InTime (session.handedOver caller stream).seen ↔
      EachAfter InTime session.seen := by
    unfold handedOver
    rw [inTime_note (by intro stream sessionId data same; cases same)]
  have sent : EachAfter InTime (session.pending.foldl take (session.handedOver caller stream)).seen ↔
      EachAfter InTime session.seen ∧ (session.pending ≠ [] → exitTold session.seen = false) := by
    have listens : (session.handedOver caller stream).subscriber ≠ none := by
      simp [handedOver]
    rw [inTime_takeAll, told, began]
    apply and_congr_right
    intro _
    exact forall_congr' fun _ => ⟨fun late => late listens, fun late _ => late⟩
  rw [subscribe_eq]
  dsimp only
  split
  · rw [inTime_send_exit, sent]
  · exact sent

theorem inTime_finish (exitCode : Option Int) :
    EachAfter InTime (session.finish exitCode).seen ↔ EachAfter InTime session.seen := by
  unfold finish
  split
  · rfl
  · rw [inTime_send_exit]

theorem inTime_kill (caller : Option String) :
    EachAfter InTime (session.kill caller).seen ↔ EachAfter InTime session.seen := by
  unfold kill
  dsimp only
  split
  · rw [inTime_note (by intro stream sessionId data same; cases same)]
  · rfl

theorem inTime_detach (stream : Nat) :
    EachAfter InTime (session.detach stream).seen ↔ EachAfter InTime session.seen := by
  unfold detach
  split
  · rw [inTime_note (by intro stream sessionId data same; cases same)]
  · rfl

end Session

namespace TerminalService

variable {service : TerminalService}
variable {P : Session → Prop}

theorem forall_put (held : ∀ session ∈ service.opened, P session) (place : Nat)
    (change : Session → Session) : (∀ session ∈ (service.put place change).opened, P session) ↔
      ∀ session, service.opened[place]? = some session → P (change session) := by
  constructor
  · intro all session found
    apply all
    apply List.mem_of_getElem? (i := place)
    simp [put, found]
  · intro changed session member
    obtain ⟨index, found⟩ := List.mem_iff_getElem?.mp member
    unfold put at found
    rw [List.getElem?_modify] at found
    obtain ⟨before, stood, now⟩ := Option.map_eq_some_iff.mp found
    split at now
    · rename_i same
      rw [← now]
      exact changed before (same ▸ stood)
    · rw [← now]
      exact held before (List.mem_of_getElem? stood)

variable {sessionId ownerSessionId : String} {place : Nat} {change : Session → Session}

theorem requireLiveSession_eq_ok {session : Session}
    (required : service.requireLiveSession sessionId ownerSessionId = .ok (place, session)) :
    service.opened[place]? = some session ∧ session.ownerSessionId = ownerSessionId := by
  unfold requireLiveSession at required
  split at required
  · cases required
  · split at required
    · cases required
    · rename_i served _ found stood
      split at required
      · cases required
      · rename_i own
        cases required
        exact ⟨stood, not_not.mp own⟩

theorem forall_change (held : ∀ session ∈ service.opened, P session)
    (sessionId ownerSessionId : String) (allowed : Session → Except Problem Unit)
    (change : Session → Session) :
    (∀ session ∈ (service.change sessionId ownerSessionId allowed change).1.opened, P session) ↔
      ∀ place session, service.requireLiveSession sessionId ownerSessionId = .ok (place, session) →
        allowed session = .ok () → P (change session) := by
  unfold TerminalService.change
  split
  · rename_i problem refused
    apply iff_of_true held
    intro place session required
    rw [refused] at required
    cases required
  · rename_i place session required
    have stood := (requireLiveSession_eq_ok required).1
    split
    · rename_i problem refused
      apply iff_of_true held
      intro other also same fine
      rw [required] at same
      cases same
      rw [refused] at fine
      cases fine
    · rename_i fine
      rw [forall_put held, required]
      constructor
      · rintro all _ _ same -
        cases same
        exact all session stood
      · intro all other found
        rw [stood] at found
        cases found
        exact all place session rfl fine

theorem opened_close (sessionId ownerSessionId : String) :
    (service.close sessionId ownerSessionId).1.opened =
      (service.change sessionId ownerSessionId (fun _ => .ok ())
        (·.kill (some ownerSessionId))).1.opened := by
  unfold close
  dsimp only
  split <;> rfl

theorem forall_closeAll (held : ∀ session ∈ service.opened, P session)
    (keeps : ∀ session, P session → P ((session.kill none).finish none)) :
    ∀ session ∈ service.closeAll.opened, P session := by
  unfold closeAll
  generalize service.sessions.values = served
  induction served generalizing service with
  | nil => exact held
  | cons first rest ih =>
    apply ih
    apply (forall_put held _ _).mpr
    intro session stood
    exact keeps session (held session (List.mem_of_getElem? stood))

theorem forall_openSession (held : ∀ session ∈ service.opened, P session)
    (options : TerminalServiceOptions) (input : OpenInput) (new : ∀ cwd, P
      { sessionId := input.sessionId
        repositoryId := input.repositoryId
        ownerSessionId := input.ownerSessionId
        seen := [.opened input.ownerSessionId (spawnRequest options input cwd)] }) :
    ∀ session ∈ (service.openSession options input).1.opened, P session := by
  unfold openSession
  split
  · exact held
  · dsimp only
    split
    · exact held
    · split
      · exact held
      · rename_i cwd _
        split
        · exact held
        · intro session member
          obtain old | now := List.mem_append.mp member
          · exact held session old
          · rw [List.mem_singleton.mp now]
            exact new cwd

theorem of_put (keeps : ∀ session, P (change session) → P session)
    (after : ∀ session ∈ (service.put place change).opened, P session) :
    ∀ session ∈ service.opened, P session := by
  intro session member
  obtain ⟨index, stood⟩ := List.mem_iff_getElem?.mp member
  have now : (service.put place change).opened[index]? =
      some (if place = index then change session else session) := by
    unfold put
    rw [List.getElem?_modify, stood]
    rfl
  have held := after _ (List.mem_of_getElem? now)
  split at held
  · exact keeps session held
  · exact held

theorem of_change {allowed : Session → Except Problem Unit}
    (keeps : ∀ session, P (change session) → P session)
    (after : ∀ session ∈ (service.change sessionId ownerSessionId allowed change).1.opened,
      P session) : ∀ session ∈ service.opened, P session := by
  unfold TerminalService.change at after
  split at after
  · exact after
  · split at after
    · exact after
    · exact of_put keeps after

theorem of_closeAll (keeps : ∀ session, P ((session.kill none).finish none) → P session)
    (after : ∀ session ∈ service.closeAll.opened, P session) :
    ∀ session ∈ service.opened, P session := by
  unfold closeAll at after
  generalize service.sessions.values = served at after
  induction served generalizing service with
  | nil => exact after
  | cons first rest ih =>
    have next : ∀ session ∈ (service.end' first).opened, P session := ih after
    exact of_put keeps next

theorem of_openSession {options : TerminalServiceOptions} {input : OpenInput}
    (after : ∀ session ∈ (service.openSession options input).1.opened, P session) :
    ∀ session ∈ service.opened, P session := by
  unfold openSession at after
  split at after
  · exact after
  · dsimp only at after
    split at after
    · exact after
    · split at after
      · exact after
      · split at after
        · exact after
        · intro session member
          exact after session (List.mem_append_left _ member)

end TerminalService

/-- All output is accounted for, everything that happened at the session was rightful, and
none of it is output after the exit. -/
structure Delivered (session : Session) : Prop where
  account : written session.seen = handled session.seen ++ session.pending.flatten
  owner : openedBy session.seen = some session.ownerSessionId
  rightful : EachAfter Rightful session.seen
  inTime : EachAfter InTime session.seen

/-- A stream that was told of the exit is not sent output that comes now, and no stream is sent
output that was left over after the exit was told. -/
def Prompt (service : TerminalService) : TerminalInput → Prop
  | .onData place bytes => ∀ session, service.opened[place]? = some session →
      bytes ≠ [] → session.subscriber ≠ none → exitTold session.seen = false
  | .subscribe sessionId ownerSessionId _ => ∀ place session,
      service.requireLiveSession sessionId ownerSessionId = .ok (place, session) →
        session.pending ≠ [] → exitTold session.seen = false
  | _ => True

section
variable {service : TerminalService} (options : TerminalServiceOptions)

theorem owes_next (held : ∀ session ∈ service.opened, session.Owes []) (input : TerminalInput) :
    ∀ session ∈ ((serving options).next service input).opened, session.Owes [] := by
  have owned : ∀ {sessionId caller allowed change},
      (∀ session, session.Owes [] → session.ownerSessionId = caller → (change session).Owes []) →
        ∀ session ∈ (service.change sessionId caller allowed change).1.opened, session.Owes [] := by
    intro sessionId caller allowed change keeps
    apply (TerminalService.forall_change held _ _ _ _).mpr
    intro place session required _
    obtain ⟨stood, own⟩ := TerminalService.requireLiveSession_eq_ok required
    exact keeps session (held session (List.mem_of_getElem? stood)) own
  cases input with
  | openSession input =>
    apply TerminalService.forall_openSession held
    intro cwd
    refine ⟨EachAfter.singleton.mpr rfl, rfl, rfl, ?_, rfl, ?_, rfl⟩
    · intro piece member
      cases member
    · intro listens
      rfl
  | write sessionId bytes caller | resize sessionId cols rows caller =>
    apply owned
    rintro session owes rfl
    exact owes.called _
  | close sessionId caller =>
    change ∀ session ∈ (service.close sessionId caller).1.opened, session.Owes []
    rw [TerminalService.opened_close]
    apply owned
    rintro session owes rfl
    exact owes.kill owes.owned
  | subscribe sessionId caller stream =>
    apply owned
    rintro session owes rfl
    exact owes.subscribe stream
  | closeAll =>
    apply TerminalService.forall_closeAll held
    intro session owes
    have own : Rightful session.seen (.called none .kill) := rfl
    exact (owes.kill own).finish none
  | detach place stream =>
    apply (TerminalService.forall_put held _ _).mpr
    intro session stood
    exact (held session (List.mem_of_getElem? stood)).detach stream
  | onData place bytes =>
    apply (TerminalService.forall_put held _ _).mpr
    intro session stood
    exact (held session (List.mem_of_getElem? stood)).onData bytes
  | onExit place exitCode =>
    apply (TerminalService.forall_put held _ _).mpr
    intro session stood
    exact (held session (List.mem_of_getElem? stood)).finish _

theorem next_onData (place : Nat) (bytes : Bytes) :
    (serving options).next service (.onData place bytes) = service.put place (·.onData bytes) :=
  rfl

theorem inTime_next (held : ∀ session ∈ service.opened, EachAfter InTime session.seen)
    (input : TerminalInput) :
    (∀ session ∈ ((serving options).next service input).opened, EachAfter InTime session.seen) ↔
      Prompt service input := by
  have noOutput : ∀ {event : Seen} {session : Session}, session ∈ service.opened →
      (∀ stream sessionId data, event ≠ .sent stream (.output sessionId data)) →
        EachAfter InTime (session.note event).seen := by
    intro event session member other
    exact (Session.inTime_note other).mpr (held session member)
  have member : ∀ {sessionId caller : String} {place : Nat} {session : Session},
      service.requireLiveSession sessionId caller = .ok (place, session) →
        session ∈ service.opened :=
    fun required => List.mem_of_getElem? (TerminalService.requireLiveSession_eq_ok required).1
  cases input with
  | openSession input =>
    apply iff_of_true _ trivial
    apply TerminalService.forall_openSession held
    intro cwd
    exact EachAfter.singleton.mpr trivial
  | write sessionId bytes caller | resize sessionId cols rows caller =>
    apply iff_of_true _ trivial
    apply (TerminalService.forall_change held _ _ _ _).mpr
    intro place session required _
    exact noOutput (member required) (by intro stream sessionId data same; cases same)
  | close sessionId caller =>
    apply iff_of_true _ trivial
    change ∀ session ∈ (service.close sessionId caller).1.opened, EachAfter InTime session.seen
    rw [TerminalService.opened_close]
    apply (TerminalService.forall_change held _ _ _ _).mpr
    intro place session required _
    exact (Session.inTime_kill _).mpr (held session (member required))
  | subscribe sessionId caller stream =>
    refine (TerminalService.forall_change held _ _ _ _).trans ?_
    apply forall_congr'
    intro place
    apply forall_congr'
    intro session
    apply forall_congr'
    intro required
    rw [Session.inTime_subscribe, and_iff_right (held session (member required))]
    simp
  | closeAll =>
    apply iff_of_true _ trivial
    apply TerminalService.forall_closeAll held
    intro session inTime
    exact (Session.inTime_finish _).mpr ((Session.inTime_kill _).mpr inTime)
  | detach place stream =>
    apply iff_of_true _ trivial
    apply (TerminalService.forall_put held _ _).mpr
    intro session stood
    exact (Session.inTime_detach _).mpr (held session (List.mem_of_getElem? stood))
  | onData place bytes =>
    rw [next_onData]
    generalize changed : (fun session : Session => session.onData bytes) = change
    rw [TerminalService.forall_put held]
    apply forall_congr'
    intro session
    apply forall_congr'
    intro stood
    have becomes : session.onData bytes = change session := congrFun changed session
    rw [← becomes, Session.inTime_onData, and_iff_right (held session (List.mem_of_getElem? stood))]
  | onExit place exitCode =>
    apply iff_of_true _ trivial
    apply (TerminalService.forall_put held _ _).mpr
    intro session stood
    exact (Session.inTime_finish _).mpr (held session (List.mem_of_getElem? stood))

theorem inTime_of_next {input : TerminalInput}
    (after : ∀ session ∈ ((serving options).next service input).opened,
      EachAfter InTime session.seen) :
    ∀ session ∈ service.opened, EachAfter InTime session.seen := by
  have noted : ∀ {session : Session} (caller : Option String) (call : PtyCall),
      EachAfter InTime (session.note (.called caller call)).seen → EachAfter InTime session.seen := by
    intro session caller call
    exact (Session.inTime_note (by intro stream sessionId data same; cases same)).mp
  cases input with
  | openSession input => exact TerminalService.of_openSession after
  | write sessionId bytes caller =>
    exact TerminalService.of_change (fun session => noted _ _) after
  | resize sessionId cols rows caller =>
    exact TerminalService.of_change (fun session => noted _ _) after
  | close sessionId caller =>
    change ∀ session ∈ (service.close sessionId caller).1.opened, EachAfter InTime session.seen
      at after
    rw [TerminalService.opened_close] at after
    exact TerminalService.of_change (fun session => (Session.inTime_kill _).mp) after
  | subscribe sessionId caller stream =>
    apply TerminalService.of_change _ after
    intro session inTime
    exact ((Session.inTime_subscribe _ _).mp inTime).1
  | closeAll =>
    apply TerminalService.of_closeAll _ after
    intro session inTime
    exact (Session.inTime_kill _).mp ((Session.inTime_finish _).mp inTime)
  | detach place stream =>
    exact TerminalService.of_put (fun session => (Session.inTime_detach _).mp) after
  | onData place bytes =>
    rw [next_onData] at after
    generalize changed : (fun session : Session => session.onData bytes) = change at after
    apply TerminalService.of_put _ after
    intro session inTime
    have becomes : session.onData bytes = change session := congrFun changed session
    rw [← becomes, Session.inTime_onData] at inTime
    exact inTime.1
  | onExit place exitCode =>
    exact TerminalService.of_put (fun session => (Session.inTime_finish _).mp) after

theorem inTime_after (inputs : List TerminalInput) :
    (∀ session ∈ ((serving options).after service inputs).opened, EachAfter InTime session.seen) ↔
      (∀ session ∈ service.opened, EachAfter InTime session.seen) ∧
        (serving options).Meets Prompt service inputs := by
  induction inputs generalizing service with
  | nil => simp [Machine.Meets]
  | cons input rest ih =>
    rw [Machine.after_cons, ih, Machine.Meets]
    constructor
    · rintro ⟨next, prompt⟩
      have held := inTime_of_next options next
      exact ⟨held, (inTime_next options held input).mp next, prompt⟩
    · rintro ⟨held, first, prompt⟩
      exact ⟨(inTime_next options held input).mpr first, prompt⟩

end

theorem owes_after (options : TerminalServiceOptions) (inputs : List TerminalInput) :
    ∀ session ∈ ((serving options).after {} inputs).opened, session.Owes [] := by
  apply (serving options).invariant (fun service => ∀ session ∈ service.opened, session.Owes [])
  · intro service input held
    exact owes_next options held input
  · intro session member
    cases member

/-- In every run the output of each session is delivered in order and once, to the session that
opened the terminal, and none of it comes after the exit exactly where every step is prompt. -/
theorem delivered_iff (options : TerminalServiceOptions) (inputs : List TerminalInput) :
    (∀ session ∈ ((serving options).after {} inputs).opened, Delivered session) ↔
      (serving options).Meets Prompt {} inputs := by
  have empty : ∀ session ∈ (TerminalService.opened {}), EachAfter InTime session.seen := by
    intro session member
    cases member
  rw [← and_iff_right (b := (serving options).Meets Prompt {} inputs) empty, ← inTime_after options]
  constructor
  · intro delivered session member
    exact (delivered session member).inTime
  · intro inTime session member
    have owes := owes_after options inputs session member
    refine ⟨?_, owes.owned, owes.rightful, inTime session member⟩
    rw [owes.account, List.append_nil]

def exampleOptions : TerminalServiceOptions where
  port := true
  command := { name := "sh", shell := "/bin/sh", argv := [] }
  environment := []

def exampleOpening : OpenInput where
  repositoryId := "repo_1"
  cols := 80
  rows := 24
  ownerSessionId := "sess_1"
  approved := some "/work"
  spawns := true
  sessionId := "term_1"

/-- The host stops, and the shell that is being killed still writes. -/
theorem killed_shell_writes_after_exit :
    (((serving exampleOptions).after {} [.openSession exampleOpening,
        .subscribe "term_1" "sess_1" 7, .closeAll, .onData 0 [0x62, 0x79, 0x65]]).opened.map
      fun session => session.seen.filterMap fun event =>
        match event with
        | .sent stream frame => some (stream, frame)
        | _ => none) =
    [[(7, .exit "term_1" none), (7, .output "term_1" [0x62, 0x79, 0x65])]] := by
  decide +kernel

end Refyard.Terminal
