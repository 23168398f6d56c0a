import Refyard.Pty.Registry

/-! Over every run in which no waiter removes a record before `open` has inserted it, a session
that is over leaves nothing behind. -/
namespace Refyard.Pty
open PtyRegistry

def PtyRegistry.exits (registry : PtyRegistry) (id : Nat) : Nat :=
  registry.events.countP fun told =>
    told.1 = id && match told.2 with
      | .exit _ => true
      | .output _ => false

def Session.tells (session : Session) : Nat :=
  if session.waiter = some .told ∨ session.waiter = some .finished then 1 else 0

structure NoGhosts (registry : PtyRegistry) : Prop where
  neverReused : registry.opened.Nodup
  exitsOnce : ∀ number, 0 < number → number ≤ registry.nextId →
    registry.exits (sessionId number) = (registry.sessions number).tells
  gone : ∀ number, (registry.sessions number).opening = some .returned →
    (registry.sessions number).waiter = some .finished →
      (serving.output registry (.isLive (sessionId number))) = some (.live false) ∧
        (serving.output registry (.write (sessionId number))) = some .noSuchSession ∧
        (serving.output registry (.resize (sessionId number))) = some .noSuchSession

/-- A waiter that has told its exit removes the record only when it is there. -/
def Timely (registry : PtyRegistry) : PtyStep → Prop
  | .waiterGoesOn number => (registry.sessions number).waiter = some .told →
      (registry.sessions number).opening = some .returned
  | _ => True

theorem sessionId_injective {first second : Nat} (low : first < 2 ^ 32) (alsoLow : second < 2 ^ 32)
    (same : sessionId first = sessionId second) : first = second := by
  unfold sessionId at same
  rwa [Nat.mod_eq_of_lt low, Nat.mod_eq_of_lt alsoLow] at same

structure Kept (registry : PtyRegistry) : Prop where
  few : registry.nextId < 2 ^ 32
  begun : ∀ number, (registry.sessions number).opening ≠ none →
    0 < number ∧ number ≤ registry.nextId
  waits : ∀ number, (registry.sessions number).waiter ≠ none →
    (registry.sessions number).opening = some .started ∨
      (registry.sessions number).opening = some .returned
  recorded : ∀ entry ∈ registry.records.values, entry.1 = sessionId entry.2 ∧
    (registry.sessions entry.2).opening = some .returned
  finished : ∀ number, (registry.sessions number).waiter = some .finished →
    (registry.sessions number).opening = some .returned ∧
      ∀ entry ∈ registry.records.values, entry.2 ≠ number
  opened : ∀ id ∈ registry.opened, ∃ number, id = sessionId number ∧
    (registry.sessions number).opening = some .returned
  distinct : registry.opened.Nodup
  exits : ∀ number < 2 ^ 32, registry.exits (sessionId number) = (registry.sessions number).tells

structure Session.Alike (before after : Session) : Prop where
  opening : after.opening = before.opening
  waiter : after.waiter = none ↔ before.waiter = none
  finished : after.waiter = some .finished ↔ before.waiter = some .finished
  tells : after.tells = before.tells

theorem Session.Alike.of_waiter {before after : Session} (opening : after.opening = before.opening)
    (waiter : after.waiter = before.waiter) : before.Alike after where
  opening := opening
  waiter := by rw [waiter]
  finished := by rw [waiter]
  tells := by
    unfold Session.tells
    rw [waiter]

namespace Kept

variable {registry changed : PtyRegistry}

theorem session_eq (h : Kept registry) {first second : Nat}
    (begun : (registry.sessions first).opening ≠ none)
    (also : (registry.sessions second).opening ≠ none)
    (same : sessionId first = sessionId second) : first = second := by
  have few := h.few
  have low := (h.begun first begun).2
  have alsoLow := (h.begun second also).2
  exact sessionId_injective (by omega) (by omega) same

theorem alike (h : Kept registry) (nextId : changed.nextId = registry.nextId)
    (sessions : ∀ number, (registry.sessions number).Alike (changed.sessions number))
    (records : ∀ entry ∈ changed.records.values, entry ∈ registry.records.values)
    (exits : ∀ id, changed.exits id = registry.exits id)
    (opened : changed.opened = registry.opened) : Kept changed where
  few := by
    rw [nextId]
    exact h.few
  begun number begun := by
    rw [nextId]
    rw [(sessions number).opening] at begun
    exact h.begun number begun
  waits number waits := by
    rw [ne_eq, (sessions number).waiter] at waits
    rw [(sessions number).opening]
    exact h.waits number waits
  recorded entry member := by
    rw [(sessions entry.2).opening]
    exact h.recorded entry (records entry member)
  finished number finished := by
    rw [(sessions number).finished] at finished
    rw [(sessions number).opening]
    obtain ⟨returned, gone⟩ := h.finished number finished
    exact ⟨returned, fun entry member => gone entry (records entry member)⟩
  opened id member := by
    rw [opened] at member
    obtain ⟨number, same, returned⟩ := h.opened id member
    refine ⟨number, same, ?_⟩
    rw [(sessions number).opening]
    exact returned
  distinct := by
    rw [opened]
    exact h.distinct
  exits number low := by
    rw [exits, (sessions number).tells]
    exact h.exits number low

theorem alike_refl (session : Session) : session.Alike session := .of_waiter rfl rfl

variable {number : Nat} {session : Session}

theorem setSession (h : Kept registry) (same : (registry.sessions number).Alike session) :
    Kept (registry.setSession number session) := by
  refine h.alike rfl ?_ (fun _ => id) (fun _ => rfl) rfl
  intro other
  unfold PtyRegistry.setSession
  dsimp only
  rw [Function.update_apply]
  split
  · rename_i here
    rw [here]
    exact same
  · exact alike_refl _

theorem calls (h : Kept registry) (closers : Nat → Option Closer) (drivers : Nat → Option Nat)
    (begun : Nat) : Kept { registry with closers, drivers, begun } :=
  h.alike rfl (fun _ => alike_refl _) (fun _ => id) (fun _ => rfl) rfl

theorem erase (h : Kept registry) (id : Nat) :
    Kept { registry with records := registry.records.erase id } :=
  h.alike rfl (fun _ => alike_refl _) (fun _ member => (InsertionMap.mem_values_erase.mp member).1)
    (fun _ => rfl) rfl

theorem sessions_setSession (registry : PtyRegistry) (number other : Nat) (session : Session) :
    (registry.setSession number session).sessions other =
      if other = number then session else registry.sessions other :=
  Function.update_apply ..

/-- How far `open` has come with a session whose waiter it has not started. -/
def Early (opening : Option Opening) : Prop := opening ≠ some .started ∧ opening ≠ some .returned

theorem waiter_of_early (h : Kept registry) (early : Early (registry.sessions number).opening) :
    (registry.sessions number).waiter = none := by
  by_contra waits
  obtain started | returned := h.waits number waits
  · exact early.1 started
  · exact early.2 returned

theorem tells_of_none (none : session.waiter = none) : session.tells = 0 := by
  unfold Session.tells
  rw [none]
  simp

/-- A step moves one session on. What is left to show is what it says of this session, what it
files and answers, and that the exits told agree. -/
theorem changes (h : Kept registry) {nextId : Nat} {opened : List Nat}
    {records : InsertionMap (Prod.fst : Nat × Nat → Nat)} {events : List (Nat × PtyEvent)}
    (le : registry.nextId ≤ nextId) (few : nextId < 2 ^ 32) (within : 0 < number ∧ number ≤ nextId)
    (waits : session.waiter ≠ none →
      session.opening = some .started ∨ session.opening = some .returned)
    (stays : (registry.sessions number).opening = some .returned → session.opening = some .returned)
    (recorded : ∀ entry ∈ records.values, entry ∈ registry.records.values ∨
      entry = (sessionId number, number) ∧ session.opening = some .returned)
    (finished : session.waiter = some .finished → session.opening = some .returned ∧
      ∀ entry ∈ records.values, entry.2 ≠ number)
    (answered : ∀ id ∈ opened, id ∈ registry.opened ∨
      id = sessionId number ∧ session.opening = some .returned) (distinct : opened.Nodup)
    (exits : ∀ other < 2 ^ 32, PtyRegistry.exits { registry with events } (sessionId other) =
      (if other = number then session else registry.sessions other).tells) :
    Kept ({ registry with nextId, opened, records, events }.setSession number session) := by
  have returned : ∀ other, (registry.sessions other).opening = some .returned →
      (if other = number then session else registry.sessions other).opening = some .returned := by
    intro other returned
    split
    · rename_i here
      exact stays (here ▸ returned)
    · exact returned
  refine ⟨few, ?_, ?_, ?_, ?_, ?_, distinct, ?_⟩ <;> simp only [sessions_setSession]
  · intro other begun
    split at begun
    · rename_i here
      exact here ▸ within
    · obtain ⟨low, high⟩ := h.begun other begun
      exact ⟨low, Nat.le_trans high le⟩
  · intro other
    split
    · exact waits
    · exact h.waits other
  · intro entry member
    obtain before | ⟨rfl, now⟩ := recorded entry member
    · obtain ⟨same, stood⟩ := h.recorded entry before
      exact ⟨same, returned _ stood⟩
    · exact ⟨rfl, (if_pos rfl) ▸ now⟩
  · intro other
    split
    · rename_i here
      rw [here]
      exact finished
    · rename_i elsewhere
      intro ended
      obtain ⟨stood, gone⟩ := h.finished other ended
      refine ⟨stood, ?_⟩
      intro entry member
      obtain before | ⟨rfl, -⟩ := recorded entry member
      · exact gone entry before
      · exact Ne.symm elsewhere
  · intro id member
    obtain before | ⟨rfl, now⟩ := answered id member
    · obtain ⟨other, same, stood⟩ := h.opened id before
      exact ⟨other, same, returned other stood⟩
    · exact ⟨number, rfl, (if_pos rfl) ▸ now⟩
  · exact exits

theorem opens (h : Kept registry) {nextId : Nat} (le : registry.nextId ≤ nextId)
    (few : nextId < 2 ^ 32) (within : 0 < number ∧ number ≤ nextId)
    (early : Early (registry.sessions number).opening) (quiet : session.waiter ≠ none →
      session.waiter = some .waiting ∧ session.opening = some .started) :
    Kept ({ registry with nextId }.setSession number session) := by
  refine h.changes le few within (fun waits => .inl (quiet waits).2)
    (fun returned => absurd returned early.2) (fun _ => .inl) ?_ (fun _ => .inl) h.distinct ?_
  · intro finished
    rw [(quiet (by rw [finished]; exact Option.some_ne_none _)).1] at finished
    cases finished
  · intro other low
    refine (h.exits other low).trans ?_
    split
    · rename_i here
      rw [here, tells_of_none (h.waiter_of_early early)]
      by_cases waits : session.waiter = none
      · exact (tells_of_none waits).symm
      · unfold Session.tells
        rw [(quiet waits).1]
        simp
    · rfl

theorem open_ (h : Kept registry) (few : registry.nextId + 1 < 2 ^ 32) : Kept registry.open_ := by
  have new : (registry.sessions (registry.nextId + 1)).opening = none := by
    by_contra begun
    have within := (h.begun _ begun).2
    omega
  have early : Early (registry.sessions (registry.nextId + 1)).opening := by
    rw [new]
    exact ⟨nofun, nofun⟩
  apply h.opens (Nat.le_succ _) few ⟨Nat.succ_pos _, Nat.le_refl _⟩ early
  exact fun waits => absurd rfl waits

theorem spawn (h : Kept registry) (number : Nat) (spawned : Bool) :
    Kept (registry.spawn number spawned).1 := by
  unfold PtyRegistry.spawn
  dsimp only
  split
  · rename_i drawn
    have within := h.begun number (by rw [drawn]; exact Option.some_ne_none _)
    have early : Early (registry.sessions number).opening := by
      rw [drawn]
      exact ⟨nofun, nofun⟩
    have none := h.waiter_of_early early
    split
    · exact h.opens (Nat.le_refl _) h.few within early fun waits => absurd none waits
    · exact h.opens (Nat.le_refl _) h.few within early fun waits => absurd none waits
  · exact h

theorem startWaiter (h : Kept registry) (number : Nat) (started : Bool) :
    Kept (registry.startWaiter number started).1 := by
  unfold PtyRegistry.startWaiter
  dsimp only
  split
  · rename_i reading
    have within := h.begun number (by rw [reading]; exact Option.some_ne_none _)
    have early : Early (registry.sessions number).opening := by
      rw [reading]
      exact ⟨nofun, nofun⟩
    split
    · exact h.opens (Nat.le_refl _) h.few within early fun _ => ⟨rfl, rfl⟩
    · exact h.opens (Nat.le_refl _) h.few within early fun waits =>
        absurd (h.waiter_of_early early) waits
  · exact h

theorem insert (h : Kept registry) (number : Nat) : Kept (registry.insert number).1 := by
  unfold PtyRegistry.insert
  dsimp only
  split
  · rename_i started
    have begun : (registry.sessions number).opening ≠ none := by
      rw [started]
      exact Option.some_ne_none _
    have runs : (registry.sessions number).waiter ≠ some .finished := by
      intro finished
      have returned := (h.finished number finished).1
      rw [started] at returned
      cases returned
    refine h.changes (Nat.le_refl _) h.few (h.begun number begun) (fun _ => .inr rfl)
      (fun _ => rfl) ?_ (fun finished => absurd finished runs) ?_ ?_ ?_
    · intro entry member
      obtain rfl | ⟨before, -⟩ := InsertionMap.mem_values_set.mp member
      · exact .inr ⟨rfl, rfl⟩
      · exact .inl before
    · intro id member
      obtain before | single := List.mem_append.mp member
      · exact .inl before
      · exact .inr ⟨List.mem_singleton.mp single, rfl⟩
    · refine List.nodup_append.mpr ⟨h.distinct, List.nodup_singleton _, ?_⟩
      intro id member other single same
      rw [List.mem_singleton.mp single] at same
      obtain ⟨second, also, returned⟩ := h.opened id member
      have here := h.session_eq begun (by rw [returned]; exact Option.some_ne_none _)
        (same.symm.trans also)
      rw [here, returned] at started
      cases started
    · intro other low
      refine (h.exits other low).trans ?_
      split
      · rename_i here
        rw [here]
        rfl
      · rfl
  · exact h

theorem shellExits (h : Kept registry) (number : Nat) (code : Int) :
    Kept (registry.shellExits number code) := by
  unfold PtyRegistry.shellExits
  dsimp only
  split
  · exact h.setSession (.of_waiter rfl rfl)
  · exact h

theorem reads (h : Kept registry) (number : Nat) (bytes : Bytes) :
    Kept (registry.reads number bytes) := by
  unfold PtyRegistry.reads
  split
  · refine h.alike rfl (fun _ => alike_refl _) (fun _ => id) ?_ rfl
    intro id
    unfold PtyRegistry.exits PtyRegistry.tell
    simp
  · exact h

theorem waiterMoves (h : Kept registry) {before after : Waiter}
    (was : (registry.sessions number).waiter = some before)
    (opening : session.opening = (registry.sessions number).opening)
    (waiter : session.waiter = some after) (quiet : before ≠ .told ∧ before ≠ .finished)
    (still : after ≠ .told ∧ after ≠ .finished) : Kept (registry.setSession number session) := by
  apply h.setSession
  refine ⟨opening, ?_, ?_, ?_⟩
  · simp [was, waiter]
  · simp [was, waiter, quiet.2, still.2]
  · simp [Session.tells, was, waiter, quiet, still]

theorem waited (h : Kept registry) (number : Nat) (fails : Bool) :
    Kept (registry.waited number fails) := by
  unfold PtyRegistry.waited
  dsimp only
  split
  · rename_i waiting
    split
    · exact h.waiterMoves waiting rfl rfl ⟨nofun, nofun⟩ ⟨nofun, nofun⟩
    · split
      · exact h.waiterMoves waiting rfl rfl ⟨nofun, nofun⟩ ⟨nofun, nofun⟩
      · exact h
  · exact h

theorem begun_of_waits (h : Kept registry) (waits : (registry.sessions number).waiter ≠ none) :
    0 < number ∧ number ≤ registry.nextId := by
  apply h.begun
  obtain started | returned := h.waits number waits
  · rw [started]
    exact Option.some_ne_none _
  · rw [returned]
    exact Option.some_ne_none _

theorem tellsExit (h : Kept registry) {code : Option Int}
    (telling : (registry.sessions number).waiter = some (.telling code)) :
    Kept ((registry.tell number (.exit code)).setSession number
      { registry.sessions number with waiter := some .told }) := by
  have waits : (registry.sessions number).waiter ≠ none := by
    rw [telling]
    exact Option.some_ne_none _
  have within := h.begun_of_waits waits
  refine h.changes (Nat.le_refl _) h.few within (fun _ => h.waits number waits) id (fun _ => .inl)
    nofun (fun _ => .inl) h.distinct ?_
  intro other low
  have told := h.exits other low
  unfold PtyRegistry.exits at told ⊢
  rw [List.countP_append, told]
  split
  · rename_i here
    rw [here]
    simp [Session.tells, telling]
  · rename_i elsewhere
    have differs : sessionId number ≠ sessionId other := by
      intro same
      have few := h.few
      exact elsewhere (sessionId_injective low (by omega) same.symm)
    simp [differs]

theorem finishes (h : Kept registry) (told : (registry.sessions number).waiter = some .told)
    (returned : (registry.sessions number).opening = some .returned) :
    Kept ({ registry with records := registry.records.erase (sessionId number) }.setSession number
      { registry.sessions number with waiter := some .finished }) := by
  have within := h.begun number (by rw [returned]; exact Option.some_ne_none _)
  refine h.changes (Nat.le_refl _) h.few within (fun _ => .inr returned) id ?_ ?_ (fun _ => .inl)
    h.distinct ?_
  · exact fun _ member => .inl (InsertionMap.mem_values_erase.mp member).1
  · refine fun _ => ⟨returned, ?_⟩
    intro entry member here
    obtain ⟨before, differs⟩ := InsertionMap.mem_values_erase.mp member
    exact differs ((h.recorded entry before).1.trans (congrArg sessionId here))
  · intro other low
    refine (h.exits other low).trans ?_
    split
    · rename_i here
      simp [here, Session.tells, told]
    · rfl

theorem waiterGoesOn (h : Kept registry) (timely : Timely registry (.waiterGoesOn number)) :
    Kept (registry.waiterGoesOn number) := by
  unfold PtyRegistry.waiterGoesOn
  dsimp only
  split
  · rename_i reaped
    exact h.waiterMoves reaped rfl rfl ⟨nofun, nofun⟩ ⟨nofun, nofun⟩
  · rename_i marked
    exact h.waiterMoves marked rfl rfl ⟨nofun, nofun⟩ ⟨nofun, nofun⟩
  · rename_i telling
    exact h.tellsExit telling
  · rename_i told
    exact h.finishes told (timely told)
  · exact h

theorem setCloser (h : Kept registry) (call : Nat) (closer : Option Closer) :
    Kept (registry.setCloser call closer) :=
  h.calls _ registry.drivers registry.begun

theorem closedOne (h : Kept registry) (call : Nat) (closer : Closer) (ended : Bool) :
    Kept (registry.closedOne call closer ended).1 := by
  unfold PtyRegistry.closedOne
  split
  · exact h.setCloser call _
  · exact h.setCloser call _

theorem closerGoesOn (h : Kept registry) (call : Nat) : Kept (registry.closerGoesOn call).1 := by
  unfold PtyRegistry.closerGoesOn
  split
  · exact h
  · split
    · exact h.setCloser call _
    · split
      · exact h.closedOne call _ false
      · exact (h.erase _).setCloser call _
    · split
      · exact h.closedOne call _ false
      · exact h.setCloser call _
    · refine Kept.setCloser (h.setSession ?_) call _
      exact .of_waiter rfl rfl
    · exact h.closedOne call _ true

theorem drive (h : Kept registry) (id : Nat) : Kept (registry.drive id).1 := by
  unfold PtyRegistry.drive
  split
  · exact h.calls registry.closers registry.drivers _
  · exact h.calls registry.closers _ _

theorem driven (h : Kept registry) (call : Nat) (done : Bool) :
    Kept (registry.driven call done).1 := by
  unfold PtyRegistry.driven
  split
  · exact h
  · exact h.calls registry.closers _ registry.begun

theorem next (h : Kept registry) {step : PtyStep} (timely : Timely registry step)
    (few : (serving.next registry step).nextId < 2 ^ 32) : Kept (serving.next registry step) := by
  cases step with
  | open_ => exact h.open_ few
  | spawn number spawned => exact h.spawn number spawned
  | startWaiter number started => exact h.startWaiter number started
  | insert number => exact h.insert number
  | shellExits number code => exact h.shellExits number code
  | reads number bytes => exact h.reads number bytes
  | readerEnds number => exact h.setSession (.of_waiter rfl rfl)
  | waited number fails => exact h.waited number fails
  | waiterGoesOn number => exact h.waiterGoesOn timely
  | close id => exact h.calls _ registry.drivers _
  | closeAll ids =>
    unfold Machine.next serving
    dsimp only
    split
    · exact h.calls _ registry.drivers _
    · exact h
  | closerGoesOn call => exact h.closerGoesOn call
  | write id => exact h.drive id
  | resize id => exact h.drive id
  | driven call done => exact h.driven call done
  | isLive id => exact h

theorem noGhosts (h : Kept registry) : NoGhosts registry where
  neverReused := h.distinct
  exitsOnce number _ le := h.exits number (Nat.lt_of_le_of_lt le h.few)
  gone number returned finished := by
    have absent : registry.records.get? (sessionId number) = none := by
      cases found : registry.records.get? (sessionId number) with
      | none => rfl
      | some entry =>
        obtain ⟨member, named⟩ := InsertionMap.get?_eq_some.mp found
        obtain ⟨same, stands⟩ := h.recorded entry member
        refine absurd ?_ ((h.finished number finished).2 entry member)
        apply h.session_eq
        · rw [stands]
          exact Option.some_ne_none _
        · rw [returned]
          exact Option.some_ne_none _
        · exact same.symm.trans named
    unfold Machine.output serving
    refine ⟨?_, ?_, ?_⟩
    · simp [isLive, absent]
    · simp [PtyRegistry.drive, absent]
    · simp [PtyRegistry.drive, absent]

end Kept

theorem kept_start : Kept {} where
  few := by decide
  begun _ begun := absurd rfl begun
  waits _ waits := absurd rfl waits
  recorded _ member := absurd member List.not_mem_nil
  finished _ := nofun
  opened _ member := absurd member List.not_mem_nil
  distinct := List.nodup_nil
  exits _ _ := rfl

section
variable (registry : PtyRegistry)

theorem nextId_closedOne (call : Nat) (closer : Closer) (ended : Bool) :
    (registry.closedOne call closer ended).1.nextId = registry.nextId := by
  unfold PtyRegistry.closedOne
  split <;> rfl

theorem nextId_closerGoesOn (call : Nat) :
    (registry.closerGoesOn call).1.nextId = registry.nextId := by
  unfold PtyRegistry.closerGoesOn
  split
  · rfl
  · split
    · rfl
    · split
      · exact nextId_closedOne ..
      · rfl
    · split
      · exact nextId_closedOne ..
      · rfl
    · rfl
    · exact nextId_closedOne ..

theorem nextId_waiterGoesOn (number : Nat) :
    (registry.waiterGoesOn number).nextId = registry.nextId := by
  unfold PtyRegistry.waiterGoesOn
  dsimp only
  split <;> rfl

theorem nextId_waited (number : Nat) (fails : Bool) :
    (registry.waited number fails).nextId = registry.nextId := by
  unfold PtyRegistry.waited
  dsimp only
  split
  · split
    · rfl
    · split <;> rfl
  · rfl

theorem nextId_le (step : PtyStep) : registry.nextId ≤ (serving.next registry step).nextId := by
  unfold Machine.next serving
  cases step with
  | open_ => exact Nat.le_succ _
  | spawn number spawned =>
    dsimp only [spawn]
    split
    · split <;> exact Nat.le_refl _
    · exact Nat.le_refl _
  | startWaiter number started =>
    dsimp only [startWaiter]
    split
    · split <;> exact Nat.le_refl _
    · exact Nat.le_refl _
  | insert number =>
    dsimp only [PtyRegistry.insert]
    split <;> exact Nat.le_refl _
  | shellExits number code =>
    dsimp only [shellExits]
    split <;> exact Nat.le_refl _
  | reads number bytes =>
    dsimp only [reads]
    split <;> exact Nat.le_refl _
  | readerEnds number => exact Nat.le_refl _
  | waited number fails => exact Nat.le_of_eq (nextId_waited registry number fails).symm
  | waiterGoesOn number => exact Nat.le_of_eq (nextId_waiterGoesOn registry number).symm
  | close id => exact Nat.le_refl _
  | closeAll ids =>
    dsimp only
    split <;> exact Nat.le_refl _
  | closerGoesOn call => exact Nat.le_of_eq (nextId_closerGoesOn registry call).symm
  | write id =>
    dsimp only [drive]
    split <;> exact Nat.le_refl _
  | resize id =>
    dsimp only [drive]
    split <;> exact Nat.le_refl _
  | driven call done =>
    dsimp only [driven]
    split <;> exact Nat.le_refl _
  | isLive id => exact Nat.le_refl _

end

/-- Fewer than 2^32 sessions, in whatever order their threads run, leave no ghosts where every
record is inserted before its waiter comes to remove it. -/
theorem no_ghosts (steps : List PtyStep) (few : (serving.after {} steps).nextId < 2 ^ 32)
    (timely : serving.Meets Timely {} steps) : NoGhosts (serving.after {} steps) := by
  have kept := serving.invariant_of_step
    (fun registry => registry.nextId < 2 ^ 32 → Kept registry)
    (fun registry step held timely few =>
      (held (Nat.lt_of_le_of_lt (nextId_le registry step) few)).next timely few)
    (fun _ => kept_start) timely
  exact (kept few).noGhosts

/-- Of two sessions the first is written to and closed; a last write comes too late. -/
def closedShell : List PtyStep :=
  [.open_, .open_, .spawn 2 true, .spawn 1 true, .startWaiter 1 true, .insert 1, .write 1,
    .startWaiter 2 true, .driven 0 true, .insert 2, .close 1, .closerGoesOn 1, .closerGoesOn 1,
    .closerGoesOn 1, .closerGoesOn 1, .shellExits 1 0, .waited 1 false, .waiterGoesOn 1,
    .waiterGoesOn 1, .waiterGoesOn 1, .write 2, .waiterGoesOn 1, .write 1]

/-- A session whose shell ends at once, before `open` comes to insert its record. -/
def hastyShell : List PtyStep :=
  [.open_, .spawn 1 true, .startWaiter 1 true, .shellExits 1 0, .waited 1 false,
    .waiterGoesOn 1, .waiterGoesOn 1, .waiterGoesOn 1, .waiterGoesOn 1, .insert 1]

theorem no_ghosts_closed_shell : NoGhosts (serving.after {} closedShell) :=
  no_ghosts closedShell (by decide)
    ⟨trivial, trivial, trivial, trivial, trivial, trivial, trivial, trivial, trivial, trivial,
      trivial, trivial, trivial, trivial, trivial, trivial, trivial, nofun, nofun, nofun, trivial,
      fun _ => rfl, trivial, trivial⟩

/-- Its record stays: the session can be written to for as long as the host runs. -/
theorem hasty_shell_haunts : ¬ NoGhosts (serving.after {} hastyShell) := by
  intro clean
  have dead := (clean.gone 1 rfl rfl).1
  exact absurd dead (by decide)

end Refyard.Pty
