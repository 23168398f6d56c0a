import Refyard.Foundation.Chronicle
import Refyard.HostNode.Terminal

/-! What the streams of a terminal session are sent, and who may ask for it. -/
namespace Refyard.Terminal

def written (seen : List Seen) : Bytes :=
  seen.flatMap fun event =>
    match event with
    | .wrote bytes => bytes
    | _ => []

/-- The bytes that were sent or dropped, in the order in which that was done. -/
def handled (seen : List Seen) : Bytes :=
  seen.flatMap fun event =>
    match event with
    | .sent _ (.output _ data) => data
    | .dropped bytes => bytes
    | _ => []

def attachedTo (seen : List Seen) : Option Nat :=
  seen.foldl (fun now event =>
    match event with
    | .attached _ stream => some stream
    | .detached => none
    | _ => now) none

def openedBy (seen : List Seen) : Option String :=
  match seen.head? with
  | some (.opened caller _) => some caller
  | _ => none

def exitTold (seen : List Seen) : Bool :=
  seen.any fun event =>
    match event with
    | .sent _ (.exit _ _) => true
    | _ => false

def TerminalFrame.Fits : TerminalFrame → Prop
  | .output _ data => (toBase64 data).length ≤ terminalPayloadMaxBytes
  | .exit _ _ => True

/-- What may happen after the rest. Frames go to the stream that is attached and fit the
contract, output is dropped while none is attached and the buffer is beyond its limit, and
calls are those of the session that opened the terminal. -/
def Rightful (before : List Seen) : Seen → Prop
  | .opened _ _ => before = []
  | .called (some caller) _ => openedBy before = some caller
  | .called none call => call = .kill
  | .attached caller _ => openedBy before = some caller
  | .detached => True
  | .wrote _ => True
  | .sent stream frame => attachedTo before = some stream ∧ frame.Fits
  | .dropped _ => attachedTo before = none ∧
      (handled before).length + terminalPreSubscribeBufferBytes < (written before).length

def InTime (before : List Seen) : Seen → Prop
  | .sent _ (.output _ _) => exitTold before = false
  | _ => True

theorem written_append (seen more : List Seen) :
    written (seen ++ more) = written seen ++ written more :=
  List.flatMap_append

theorem handled_append (seen more : List Seen) :
    handled (seen ++ more) = handled seen ++ handled more :=
  List.flatMap_append

theorem exitTold_append (seen more : List Seen) :
    exitTold (seen ++ more) = (exitTold seen || exitTold more) :=
  List.any_append

theorem attachedTo_concat (seen : List Seen) (event : Seen) :
    attachedTo (seen ++ [event]) = match event with
      | .attached _ stream => some stream
      | .detached => none
      | _ => attachedTo seen := by
  unfold attachedTo
  rw [List.foldl_append]
  rfl

theorem openedBy_append {seen : List Seen} {caller : String} (opened : openedBy seen = some caller)
    (more : List Seen) : openedBy (seen ++ more) = some caller := by
  cases seen with
  | nil => cases opened
  | cons first rest => exact opened

variable (bytes : Bytes)

theorem length_toBase64 : (toBase64 bytes).length = (bytes.length + 2) / 3 * 4 := by
  induction bytes using toBase64.induct with
  | case1 => rfl
  | case2 first => simp [toBase64]
  | case3 first second => simp [toBase64]
  | case4 first second third rest ih =>
    simp only [toBase64, List.length_cons, ih]
    omega

theorem fits_output {sessionId : String} {piece : Bytes} (small : piece.length ≤ maxFrameBytes) :
    (TerminalFrame.output sessionId piece).Fits := by
  change (toBase64 piece).length ≤ 65536
  rw [length_toBase64]
  unfold maxFrameBytes at small
  omega

theorem flatMap_slices (size count : Nat) :
    (List.range count).flatMap (fun index => (bytes.drop (index * size)).take size) =
      bytes.take (count * size) := by
  induction count with
  | zero => simp
  | succ count ih =>
    rw [List.range_succ, List.flatMap_append, ih, Nat.succ_mul, List.take_add]
    simp

theorem flatten_pieces : (pieces bytes).flatten = bytes := by
  unfold pieces
  rw [← List.flatMap_def, flatMap_slices]
  apply List.take_of_length_le
  unfold maxFrameBytes
  omega

theorem length_of_mem_pieces {bytes piece : Bytes} (member : piece ∈ pieces bytes) :
    piece.length ≤ maxFrameBytes := by
  obtain ⟨index, -, rfl⟩ := List.mem_map.mp member
  exact List.length_take_le _ _

theorem pieces_eq_nil {bytes : Bytes} : pieces bytes = [] ↔ bytes = [] := by
  constructor
  · intro none
    rw [← flatten_pieces bytes, none]
    rfl
  · rintro rfl
    rfl

namespace Session

@[simp] theorem seen_note (session : Session) (event : Seen) :
    (session.note event).seen = session.seen ++ [event] := rfl

@[simp] theorem subscriber_note (session : Session) (event : Seen) :
    (session.note event).subscriber = session.subscriber := rfl

@[simp] theorem pending_note (session : Session) (event : Seen) :
    (session.note event).pending = session.pending := rfl

@[simp] theorem subscriber_send (session : Session) (frame : TerminalFrame) :
    (session.send frame).subscriber = session.subscriber := by
  unfold send
  split <;> rfl

variable {stream : Nat}

theorem send_of_attached {session : Session} (attached : session.subscriber = some stream)
    (frame : TerminalFrame) : session.send frame = session.note (.sent stream frame) := by
  unfold send
  rw [attached]

theorem send_of_unattended {session : Session} (unattended : session.subscriber = none)
    (frame : TerminalFrame) : session.send frame = session := by
  unfold send
  rw [unattended]

/-- All that the shell has written was sent, dropped or is in the buffer, but for the rest
that is still to come. -/
structure Owes (session : Session) (rest : Bytes) : Prop where
  rightful : EachAfter Rightful session.seen
  account : written session.seen = handled session.seen ++ (session.pending.flatten ++ rest)
  counted : session.pendingBytes = session.pending.flatten.length
  small : ∀ piece ∈ session.pending, piece.length ≤ maxFrameBytes
  attached : attachedTo session.seen = session.subscriber
  unattended : session.subscriber ≠ none → session.pending = []
  owned : openedBy session.seen = some session.ownerSessionId

variable {session : Session} {rest : Bytes}

theorem Owes.note (owes : session.Owes rest) {event : Seen} (rightful : Rightful session.seen event)
    (unwritten : written [event] = []) (unhandled : handled [event] = [])
    (stays : attachedTo (session.seen ++ [event]) = attachedTo session.seen) :
    (session.note event).Owes rest where
  rightful := EachAfter.concat.mpr ⟨owes.rightful, rightful⟩
  account := by
    rw [seen_note, written_append, handled_append, unwritten, unhandled, List.append_nil,
      List.append_nil]
    exact owes.account
  counted := owes.counted
  small := owes.small
  attached := stays.trans owes.attached
  unattended := owes.unattended
  owned := openedBy_append owes.owned _

theorem Owes.called (owes : session.Owes rest) (call : PtyCall) :
    (session.note (.called (some session.ownerSessionId) call)).Owes rest :=
  owes.note owes.owned rfl rfl (attachedTo_concat _ _)

theorem Owes.wrote (owes : session.Owes []) (bytes : Bytes) :
    (session.note (.wrote bytes)).Owes bytes where
  rightful := EachAfter.concat.mpr ⟨owes.rightful, trivial⟩
  account := by
    have more : written [.wrote bytes] = bytes := List.flatMap_singleton _ _
    have none : handled [.wrote bytes] = [] := rfl
    rw [seen_note, written_append, handled_append, more, none, owes.account]
    simp
  counted := owes.counted
  small := owes.small
  attached := (attachedTo_concat _ _).trans owes.attached
  unattended := owes.unattended
  owned := openedBy_append owes.owned _

theorem Owes.send_exit (owes : session.Owes rest) (sessionId : String) (exitCode : Option Int) :
    (session.send (.exit sessionId exitCode)).Owes rest := by
  cases listens : session.subscriber with
  | none => rwa [send_of_unattended listens]
  | some stream =>
    rw [send_of_attached listens]
    exact owes.note ⟨owes.attached.trans listens, trivial⟩ rfl rfl (attachedTo_concat _ _)

theorem Owes.take {piece : Bytes} (owes : session.Owes (piece ++ rest))
    (small : piece.length ≤ maxFrameBytes) : (session.take piece).Owes rest := by
  unfold Session.take
  cases listens : session.subscriber with
  | none =>
    refine ⟨owes.rightful, ?_, ?_, ?_, owes.attached.trans listens, ?_, owes.owned⟩
    · rw [owes.account]
      simp
    · simp [owes.counted]
    · intro other member
      obtain held | new := List.mem_append.mp member
      · exact owes.small other held
      · rwa [List.mem_singleton.mp new]
    · intro some
      exact absurd rfl some
  | some stream =>
    have empty : session.pending = [] := owes.unattended (by simp [listens])
    have account := owes.account
    rw [send_of_attached listens]
    have more : handled [.sent stream (.output session.sessionId piece)] = piece :=
      List.flatMap_singleton _ _
    have none : written [.sent stream (.output session.sessionId piece)] = [] := rfl
    refine ⟨EachAfter.concat.mpr ⟨owes.rightful, owes.attached.trans listens, fits_output small⟩,
      ?_, owes.counted, owes.small, (attachedTo_concat _ _).trans owes.attached, owes.unattended,
      openedBy_append owes.owned _⟩
    rw [seen_note, pending_note, written_append, handled_append, more, none, account, empty]
    simp

theorem Owes.takeAll {list : List Bytes} (owes : session.Owes (list.flatten ++ rest))
    (small : ∀ piece ∈ list, piece.length ≤ maxFrameBytes) :
    (list.foldl Session.take session).Owes rest := by
  induction list generalizing session with
  | nil => exact owes
  | cons piece list ih =>
    rw [List.forall_mem_cons] at small
    rw [List.flatten_cons, List.append_assoc] at owes
    exact ih (owes.take small.1) small.2

theorem Owes.dropFrom (owes : session.Owes rest) {list : List Bytes}
    (pending : session.pending = list) : (session.dropFrom list).Owes rest := by
  induction list generalizing session with
  | nil => exact owes
  | cons first list ih =>
    cases list with
    | nil => exact owes
    | cons second list =>
      unfold Session.dropFrom
      split
      · rename_i beyond
        have unattended : session.subscriber = none := by
          by_contra listens
          rw [owes.unattended listens] at pending
          cases pending
        have account := owes.account
        have counted := owes.counted
        have small := owes.small
        rw [pending] at account counted small
        have more : handled [.dropped first] = first := List.flatMap_singleton _ _
        have none : written [.dropped first] = [] := rfl
        have full : (handled session.seen).length + terminalPreSubscribeBufferBytes <
            (written session.seen).length := by
          rw [account, List.length_append, List.length_append, ← counted]
          omega
        apply ih
        · refine ⟨EachAfter.concat.mpr ⟨owes.rightful, owes.attached.trans unattended, full⟩,
            ?_, ?_, ?_, (attachedTo_concat _ _).trans owes.attached, ?_,
            openedBy_append owes.owned _⟩
          · rw [written_append, handled_append, more, none, account]
            simp
          · simp [counted]
          · exact (List.forall_mem_cons.mp small).2
          · intro listens
            exact absurd unattended listens
        · rfl
      · exact owes

theorem Owes.deliver {bytes : Bytes} (owes : session.Owes bytes) : (session.deliver bytes).Owes [] := by
  have whole : session.Owes ((pieces bytes).flatten ++ []) := by
    rwa [flatten_pieces, List.append_nil]
  exact (whole.takeAll fun piece member => length_of_mem_pieces member).dropFrom rfl

theorem Owes.onData (owes : session.Owes []) (bytes : Bytes) : (session.onData bytes).Owes [] :=
  (owes.wrote bytes).deliver

theorem Owes.finish (owes : session.Owes rest) (exitCode : Option Int) :
    (session.finish exitCode).Owes rest := by
  unfold Session.finish
  split
  · exact owes
  · apply Owes.send_exit
    exact ⟨owes.rightful, owes.account, owes.counted, owes.small, owes.attached, owes.unattended,
      owes.owned⟩

theorem Owes.kill (owes : session.Owes rest) {caller : Option String}
    (rightful : Rightful session.seen (.called caller .kill)) : (session.kill caller).Owes rest := by
  have marked : Owes { session with killedByHost := true } rest :=
    ⟨owes.rightful, owes.account, owes.counted, owes.small, owes.attached, owes.unattended,
      owes.owned⟩
  unfold Session.kill
  dsimp only
  split
  · exact marked.note rightful rfl rfl (attachedTo_concat _ _)
  · exact marked

theorem Owes.detach (owes : session.Owes []) (stream : Nat) : (session.detach stream).Owes [] := by
  unfold Session.detach
  split
  · rename_i listens
    have empty : session.pending = [] := owes.unattended (by simp [listens])
    refine ⟨EachAfter.concat.mpr ⟨owes.rightful, trivial⟩, ?_, owes.counted, owes.small,
      attachedTo_concat _ _, ?_, openedBy_append owes.owned _⟩
    · have none : written [.detached] = [] := rfl
      have alsoNone : handled [.detached] = [] := rfl
      rw [seen_note, pending_note, written_append, handled_append, none, alsoNone, List.append_nil,
        List.append_nil]
      exact owes.account
    · intro listens
      exact absurd rfl listens
  · exact owes

theorem take_of_attached (attached : session.subscriber = some stream) (piece : Bytes) :
    session.take piece = session.send (.output session.sessionId piece) := by
  unfold Session.take
  rw [attached]

def handedOver (session : Session) (caller : String) (stream : Nat) : Session :=
  { session with subscriber := some stream, pending := [], pendingBytes := 0 }.note
    (.attached caller stream)

theorem foldl_send_emptied (list : List Bytes) (attached : session.subscriber = some stream) :
    { list.foldl (fun session chunk => session.send (.output session.sessionId chunk)) session with
      pending := [], pendingBytes := 0 } =
    list.foldl Session.take { session with pending := [], pendingBytes := 0 } := by
  induction list generalizing session with
  | nil => rfl
  | cons chunk list ih =>
    have listens : Session.subscriber { session with pending := [], pendingBytes := 0 } =
        some stream := attached
    rw [List.foldl_cons, List.foldl_cons, ih (by rw [subscriber_send, attached]),
      take_of_attached listens, send_of_attached listens, send_of_attached attached]
    rfl

theorem subscribe_eq (session : Session) (caller : String) (stream : Nat) :
    session.subscribe caller stream =
      let session := session.pending.foldl Session.take (session.handedOver caller stream)
      if session.exited then session.send (.exit session.sessionId none) else session :=
  congrArg (fun session : Session =>
      if session.exited then session.send (.exit session.sessionId none) else session)
    (foldl_send_emptied session.pending rfl)

theorem Owes.subscribe (owes : session.Owes []) (stream : Nat) :
    (session.subscribe session.ownerSessionId stream).Owes [] := by
  rw [subscribe_eq]
  have began : Owes (session.handedOver session.ownerSessionId stream)
      (session.pending.flatten ++ []) := by
    refine ⟨EachAfter.concat.mpr ⟨owes.rightful, owes.owned⟩, ?_, rfl, ?_, attachedTo_concat _ _, ?_,
      openedBy_append owes.owned _⟩
    · have none : written [.attached session.ownerSessionId stream] = [] := rfl
      have alsoNone : handled [.attached session.ownerSessionId stream] = [] := rfl
      unfold Session.handedOver
      rw [seen_note, written_append, handled_append, none, alsoNone, List.append_nil,
        List.append_nil]
      exact owes.account
    · intro piece member
      cases member
    · intro listens
      rfl
  have sent := began.takeAll owes.small
  dsimp only
  split
  · exact sent.send_exit _ _
  · exact sent

end Session
end Refyard.Terminal
