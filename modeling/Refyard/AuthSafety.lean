import Refyard.Auth
import Refyard.Foundation.Log
import Refyard.Foundation.Machine

/-! What a ticket and a session are good for, over runs of calls at any clock readings. -/
namespace Refyard.Auth

inductive AuthCall where
  | mintTicket (origin actor : String) (grants : Grants)
  | exchange (ticket origin serviceInstanceId : String)
  | authorize (authorization : Option String) (serviceInstanceId : String)
  | grant (sessionId allowedRootId repositoryId : String)
  | revokeRepository (repositoryId allowedRootId : String) (rootHasRepositories : Bool)
  | revoke (sessionId : String)
  | prune

def AuthCall.names (repositoryId : String) : AuthCall → Bool
  | .mintTicket _ _ grants => grants.repositoryIds.contains repositoryId
  | .grant _ _ granted => granted = repositoryId
  | _ => false

inductive AuthAnswer where
  | ticket (result : Except Problem BootstrapTicket)
  | session (result : Except Problem Session)
  | found (answer : Bool)
  | done

/-- An exchange that was answered with a session. The place is that of the ticket among the
minted ones. -/
structure Exchange where
  place : Nat
  nowMs : Int
  origin : String
  serviceInstanceId : String
  session : Session

/-- The store behind a run of calls. Beside it is recorded what was minted, which of that
was last minted under each secret, and what was exchanged. No answer depends on that. -/
structure AuthRun where
  store : AuthStore
  minted : List BootstrapTicket := []
  placed : String → Option Nat := fun _ => none
  exchanged : List Exchange := []

namespace AuthRun

def recordMint (run : AuthRun) : Except Problem BootstrapTicket → AuthRun
  | .error _ => run
  | .ok record =>
      { run with
        minted := run.minted ++ [record]
        placed := Function.update run.placed record.ticket (some run.minted.length) }

def recordExchange (run : AuthRun) (nowMs : Int) (ticket origin serviceInstanceId : String) :
    Except Problem Session → AuthRun
  | .error _ => run
  | .ok session =>
      match run.placed ticket with
      | none => run
      | some place =>
          { run with
            exchanged := run.exchanged ++ [{ place, nowMs, origin, serviceInstanceId, session }] }

def pairing : Machine AuthRun (Moment × AuthCall) AuthAnswer where
  step run input :=
    match input.2 with
    | .mintTicket origin actor grants =>
        let (answer, store) := run.store.mintTicket input.1 origin actor grants
        ({ run.recordMint answer with store }, .ticket answer)
    | .exchange ticket origin serviceInstanceId =>
        let (answer, store) := run.store.exchange input.1 ticket origin serviceInstanceId
        ({ run.recordExchange input.1.nowMs ticket origin serviceInstanceId answer with store },
          .session answer)
    | .authorize authorization serviceInstanceId =>
        (run, .session (run.store.authorize input.1 authorization serviceInstanceId))
    | .grant sessionId allowedRootId repositoryId =>
        let (answer, store) := run.store.grant input.1 sessionId allowedRootId repositoryId
        ({ run with store }, .found answer)
    | .revokeRepository repositoryId allowedRootId rootHasRepositories =>
        ({ run with
          store := run.store.revokeRepository repositoryId allowedRootId rootHasRepositories }, .done)
    | .revoke sessionId =>
        let (answer, store) := run.store.revoke input.1 sessionId
        ({ run with store }, .found answer)
    | .prune => ({ run with store := run.store.prune input.1 }, .done)

/-- No ticket is exchanged twice, and each only while it has not expired, from the origin and
for the instance it was minted for. The session gets the ticket's grants. -/
def SingleUse (run : AuthRun) : Prop :=
  (run.exchanged.map Exchange.place).Nodup ∧
    ∀ exchange ∈ run.exchanged, ∃ record, run.minted[exchange.place]? = some record ∧
      exchange.nowMs < record.expiresAtMs ∧ exchange.origin = record.origin ∧
      exchange.serviceInstanceId = record.serviceInstanceId ∧
      exchange.session.actor = record.actor ∧ exchange.session.grants = record.grants

def ConsumedOnSight (run : AuthRun) : Prop :=
  ∀ moment ticket origin serviceInstanceId,
    (run.store.exchange moment ticket origin serviceInstanceId).2.tickets.get? ticket = none

def MadeBy (session : Session) (exchange : Exchange) : Prop :=
  session = { exchange.session with grants := session.grants }

/-- What is accepted is the bearer of a session that an exchange made and that has not
expired. -/
def BearersOnly (run : AuthRun) : Prop :=
  ∀ moment authorization serviceInstanceId session,
    run.store.authorize moment authorization serviceInstanceId = .ok session →
      authorization = some ("Bearer " ++ session.token) ∧
      session.serviceInstanceId = serviceInstanceId ∧ moment.nowMs < session.expiresAtMs ∧
      ∃ exchange ∈ run.exchanged, MadeBy session exchange

def Covers (run : AuthRun) (session : Session) (repositoryId : String) : Prop :=
  run.store.sessions.get? session.token = some session ∧ repositoryId ∈ session.grants.repositoryIds

/-- After a repository was revoked, only a later grant gives it to a session, or the session
was made later, from a ticket that names it. -/
def RevocationHolds (revoked run : AuthRun) (later : List (Moment × AuthCall))
    (repositoryId : String) : Prop :=
  ∀ session, run.Covers session repositoryId →
    (∃ moment allowedRootId, (moment, .grant session.sessionId allowedRootId repositoryId) ∈ later) ∨
      ∃ exchange ∈ run.exchanged.drop revoked.exchanged.length, MadeBy session exchange ∧
        ∃ record, run.minted[exchange.place]? = some record ∧
          repositoryId ∈ record.grants.repositoryIds

end AuthRun

namespace AuthStore

structure Narrows (before after : AuthStore) : Prop where
  instance_eq : after.serviceInstanceId = before.serviceInstanceId
  tickets : ∀ ticket record, after.tickets.get? ticket = some record →
    before.tickets.get? ticket = some record
  sessions : ∀ token session, after.sessions.get? token = some session →
    ∃ old, before.sessions.get? token = some old ∧
      session = { old with grants := session.grants }

variable (store : AuthStore)

theorem Narrows.refl : Narrows store store :=
  ⟨rfl, fun _ _ held => held, fun _ session held => ⟨session, held, rfl⟩⟩

theorem Narrows.trans {before between after : AuthStore} (first : Narrows before between)
    (second : Narrows between after) : Narrows before after where
  instance_eq := second.instance_eq.trans first.instance_eq
  tickets := fun ticket record held => first.tickets ticket record (second.tickets ticket record held)
  sessions := by
    intro token session held
    obtain ⟨later, found, same⟩ := second.sessions token session held
    obtain ⟨old, before, other⟩ := first.sessions token later found
    refine ⟨old, before, ?_⟩
    rw [same, other]

variable (moment : Moment) {session : Session}

theorem prune_narrows : Narrows store (store.prune moment) where
  instance_eq := rfl
  tickets := by
    intro ticket record held
    have kept := Table.get?_of_trim held
    rw [Table.get?_retain] at kept
    exact (Option.filter_eq_some_iff.mp kept).1
  sessions := by
    intro token session held
    have kept := Table.get?_of_trim held
    rw [Table.get?_retain] at kept
    exact ⟨session, (Option.filter_eq_some_iff.mp kept).1, rfl⟩

theorem get?_of_prune {store : AuthStore} {moment : Moment} {token : String}
    (held : (store.prune moment).sessions.get? token = some session) :
    store.sessions.get? token = some session := by
  have kept := Table.get?_of_trim held
  rw [Table.get?_retain] at kept
  exact (Option.filter_eq_some_iff.mp kept).1

theorem spend_narrows (ticket : String) : Narrows store (store.spend ticket) where
  instance_eq := rfl
  tickets := by
    intro other record held
    rw [spend, Table.get?_erase] at held
    split at held
    · cases held
    · exact held
  sessions := fun _ session held => ⟨session, held, rfl⟩

theorem revokeRepository_narrows (repositoryId allowedRootId : String) (rootHasRepositories : Bool) :
    Narrows store (store.revokeRepository repositoryId allowedRootId rootHasRepositories) where
  instance_eq := rfl
  tickets := fun _ _ held => held
  sessions := by
    intro token session held
    rw [revokeRepository, Table.get?_update, Option.map_eq_some_iff] at held
    obtain ⟨old, before, rfl⟩ := held
    exact ⟨old, before, rfl⟩

theorem grant_narrows (sessionId allowedRootId repositoryId : String) :
    Narrows store (store.grant moment sessionId allowedRootId repositoryId).2 := by
  unfold grant
  split
  · exact .refl store
  · rename_i old found
    have member := moment.sessionWalk.mem_entries.mp (List.mem_of_find?_eq_some found)
    refine ⟨rfl, fun _ _ held => held, ?_⟩
    intro token session held
    rw [Table.get?_insert] at held
    split at held
    · rename_i same
      cases Option.some.inj held
      exact ⟨old, same ▸ member, rfl⟩
    · exact ⟨session, held, rfl⟩

theorem revoke_narrows (sessionId : String) : Narrows store (store.revoke moment sessionId).2 := by
  unfold revoke
  split
  · exact .refl store
  · refine ⟨rfl, fun _ _ held => held, ?_⟩
    intro token session held
    rw [Table.get?_erase] at held
    split at held
    · cases held
    · exact ⟨session, held, rfl⟩

/-- An exchange either refuses, and the ticket is gone, or it pairs on a ticket that is held,
that has not expired and that was minted for this origin and instance. -/
theorem exchange_cases (ticket origin serviceInstanceId : String) :
    (∃ problem after, store.exchange moment ticket origin serviceInstanceId = (.error problem, after) ∧
        Narrows store after ∧ after.tickets.get? ticket = none ∧
        after.sessions = (store.prune moment).sessions) ∨
      let pruned := store.prune moment
      ∃ record, pruned.tickets.get? ticket = some record ∧ moment.nowMs < record.expiresAtMs ∧
        record.serviceInstanceId = serviceInstanceId ∧ record.origin = origin ∧
        store.exchange moment ticket origin serviceInstanceId = (.ok (pruned.pair moment record),
            { pruned.spend ticket with
              sessions := pruned.sessions.insert (pruned.pair moment record) }) := by
  have narrows := store.prune_narrows moment
  unfold exchange
  dsimp only
  rw [findTicket_eq]
  cases held : (store.prune moment).tickets.get? ticket with
  | none => exact .inl ⟨_, _, rfl, narrows, held, rfl⟩
  | some record =>
    have named : record.ticket = ticket := Table.key_of_get? held
    have gone : ((store.prune moment).spend record.ticket).tickets.get? ticket = none := by
      rw [spend, named, Table.get?_erase_self]
    have spent := narrows.trans ((store.prune moment).spend_narrows record.ticket)
    dsimp only
    split
    · exact .inl ⟨_, _, rfl, spent, gone, rfl⟩
    · rename_i young
      split
      · exact .inl ⟨_, _, rfl, spent, gone, rfl⟩
      · rename_i issuer
        split
        · exact .inl ⟨_, _, rfl, spent, gone, rfl⟩
        · rename_i place
          refine .inr ⟨record, rfl, by omega, not_not.mp issuer, not_not.mp place, ?_⟩
          rw [named]
          rfl

theorem exchange_consumes (ticket origin serviceInstanceId : String) :
    (store.exchange moment ticket origin serviceInstanceId).2.tickets.get? ticket = none := by
  obtain ⟨problem, after, answered, -, gone, -⟩ | ⟨record, -, -, -, -, answered⟩ :=
    store.exchange_cases moment ticket origin serviceInstanceId
  · rw [answered]
    exact gone
  · rw [answered]
    exact Table.get?_erase_self _ ticket

theorem mintTicket_cases (origin actor : String) (grants : Grants) :
    (∃ problem, store.mintTicket moment origin actor grants = (.error problem, store)) ∨
      ∃ record, record.grants = grants ∧ store.mintTicket moment origin actor grants =
          (.ok record, { store.prune moment with
            tickets := (store.prune moment).tickets.insert record }) := by
  unfold mintTicket
  split
  · exact .inl ⟨_, rfl⟩
  · exact .inr ⟨_, rfl, rfl⟩

theorem authorize_ok {store : AuthStore} {moment : Moment} {authorization : Option String}
    {serviceInstanceId : String}
    (h : store.authorize moment authorization serviceInstanceId = .ok session) :
    authorization = some ("Bearer " ++ session.token) ∧
      session.serviceInstanceId = serviceInstanceId ∧ moment.nowMs < session.expiresAtMs ∧
      store.sessions.get? session.token = some session := by
  unfold authorize at h
  split at h
  · cases h
  · rename_i header present
    split at h
    · cases h
    · rename_i token bearer
      split at h
      · cases h
      · rename_i found held
        split at h
        · cases h
        · rename_i issuer
          split at h
          · cases h
          · rename_i young
            cases h
            rw [findSession_eq] at held
            have named : session.token = String.ofList token := Table.key_of_get? held
            refine ⟨?_, not_not.mp issuer, by omega, named ▸ held⟩
            have text : header = "Bearer " ++ session.token := by
              rw [← String.toList_inj, stripPrefix_eq_some.mp bearer, named]
              simp
            rw [(Option.filter_eq_some_iff.mp present).1, text]

end AuthStore
namespace AuthRun
open AuthStore

structure Sound (run : AuthRun) : Prop where
  held : ∀ ticket record, run.store.tickets.get? ticket = some record →
    ∃ place, run.placed ticket = some place ∧ run.minted[place]? = some record
  within : ∀ ticket place, run.placed ticket = some place → place < run.minted.length
  spent : ∀ exchange ∈ run.exchanged, ∃ record, run.minted[exchange.place]? = some record ∧
    (run.placed record.ticket = some exchange.place → run.store.tickets.get? record.ticket = none)
  single : run.SingleUse
  made : ∀ token session, run.store.sessions.get? token = some session →
    ∃ exchange ∈ run.exchanged, MadeBy session exchange

section
variable {run : AuthRun}

theorem sound_start (store : AuthStore) (tickets : store.tickets = .empty)
    (sessions : store.sessions = .empty) : Sound { store } where
  held := by simp [tickets]
  within := by simp
  spent := by simp
  single := by simp [SingleUse]
  made := by simp [sessions]

theorem recordExchange_with (run : AuthRun) (store : AuthStore) (nowMs : Int)
    (ticket origin serviceInstanceId : String) (answer : Except Problem Session) :
    recordExchange { run with store } nowMs ticket origin serviceInstanceId answer =
      { run.recordExchange nowMs ticket origin serviceInstanceId answer with store } := by
  unfold recordExchange
  split
  · rfl
  · dsimp only
    split <;> rfl

theorem Sound.narrow (h : run.Sound) {store : AuthStore} (narrows : Narrows run.store store) :
    Sound { run with store } where
  held := fun ticket record held => h.held ticket record (narrows.tickets ticket record held)
  within := h.within
  spent := by
    intro exchange member
    obtain ⟨record, minted, gone⟩ := h.spent exchange member
    refine ⟨record, minted, ?_⟩
    intro last
    cases held : store.tickets.get? record.ticket with
    | none => rfl
    | some other =>
      have before := narrows.tickets _ other held
      rw [gone last] at before
      cases before
  single := h.single
  made := by
    intro token session held
    obtain ⟨old, before, same⟩ := narrows.sessions token session held
    obtain ⟨exchange, member, made⟩ := h.made token old before
    refine ⟨exchange, member, ?_⟩
    unfold MadeBy at made ⊢
    rw [same, made]

variable {record : BootstrapTicket} {session : Session}

theorem Sound.mint (h : run.Sound) : Sound { run.recordMint (.ok record) with
      store := { run.store with tickets := run.store.tickets.insert record } } where
  held := by
    intro ticket other held
    dsimp only [recordMint] at held ⊢
    rw [Table.get?_insert] at held
    split at held
    · rename_i same
      cases held
      refine ⟨run.minted.length, ?_, getElem?_concat_eq_some.mpr (.inr ⟨rfl, rfl⟩)⟩
      rw [same, Function.update_self]
    · rename_i differs
      obtain ⟨place, placed, minted⟩ := h.held ticket other held
      refine ⟨place, ?_, getElem?_of_prefix (List.prefix_append _ _) minted⟩
      rw [Function.update_of_ne differs, placed]
  within := by
    intro ticket place placed
    dsimp only [recordMint] at placed ⊢
    rw [List.length_append]
    by_cases same : ticket = record.ticket
    · rw [same, Function.update_self, Option.some_inj] at placed
      exact placed ▸ Nat.lt_succ_self _
    · rw [Function.update_of_ne same] at placed
      exact Nat.lt_succ_of_lt (h.within ticket place placed)
  spent := by
    intro exchange member
    obtain ⟨other, minted, gone⟩ := h.spent exchange member
    refine ⟨other, getElem?_of_prefix (List.prefix_append _ _) minted, ?_⟩
    dsimp only [recordMint]
    intro last
    by_cases same : other.ticket = record.ticket
    · -- the ticket minted now is at a later place
      rw [same, Function.update_self, Option.some_inj] at last
      have earlier := (List.getElem?_eq_some_iff.mp minted).1
      omega
    · rw [Function.update_of_ne same] at last
      rw [Table.get?_insert_of_ne same]
      exact gone last
  single := by
    refine ⟨h.single.1, ?_⟩
    intro exchange member
    obtain ⟨other, minted, rightful⟩ := h.single.2 exchange member
    exact ⟨other, getElem?_of_prefix (List.prefix_append _ _) minted, rightful⟩
  made := h.made

theorem Sound.exchange (h : run.Sound) {moment : Moment}
    (held : run.store.tickets.get? record.ticket = some record)
    (young : moment.nowMs < record.expiresAtMs) :
    Sound { run.recordExchange moment.nowMs record.ticket record.origin record.serviceInstanceId
        (.ok (run.store.pair moment record)) with
      store := { run.store.spend record.ticket with
        sessions := run.store.sessions.insert (run.store.pair moment record) } } := by
  obtain ⟨place, placed, minted⟩ := h.held record.ticket record held
  have unspent : place ∉ run.exchanged.map Exchange.place := by
    intro member
    obtain ⟨exchange, before, same⟩ := List.mem_map.mp member
    obtain ⟨other, found, gone⟩ := h.spent exchange before
    rw [same, minted, Option.some_inj] at found
    rw [← found, placed, same, held] at gone
    cases gone rfl
  simp only [recordExchange, placed]
  constructor
  · intro ticket other left
    rw [spend, Table.get?_erase] at left
    split at left
    · cases left
    · exact h.held ticket other left
  · exact h.within
  · intro exchange member
    rw [List.mem_append, List.mem_singleton] at member
    cases member with
    | inl before =>
      obtain ⟨other, found, gone⟩ := h.spent exchange before
      refine ⟨other, found, ?_⟩
      intro last
      rw [spend, Table.get?_erase]
      split
      · rfl
      · exact gone last
    | inr now =>
      refine ⟨record, by rw [now]; exact minted, fun _ => ?_⟩
      exact Table.get?_erase_self _ record.ticket
  · constructor
    · rw [List.map_append, List.nodup_append]
      refine ⟨h.single.1, List.pairwise_singleton _ _, ?_⟩
      intro earlier before last now same
      rw [List.map_singleton, List.mem_singleton] at now
      have moved : earlier = place := same.trans now
      exact unspent (moved ▸ before)
    · intro exchange member
      rw [List.mem_append, List.mem_singleton] at member
      cases member with
      | inl before => exact h.single.2 exchange before
      | inr now =>
        rw [now]
        exact ⟨record, minted, young, rfl, rfl, rfl, rfl⟩
  · intro token session found
    rw [Table.get?_insert] at found
    split at found
    · cases found
      exact ⟨_, List.mem_append_right _ (List.mem_singleton_self _), rfl⟩
    · obtain ⟨exchange, before, made⟩ := h.made token session found
      exact ⟨exchange, List.mem_append_left _ before, made⟩

theorem Sound.step (h : run.Sound) (input : Moment × AuthCall) : Sound (pairing.next run input) := by
  obtain ⟨moment, call⟩ := input
  cases call with
  | mintTicket origin actor grants =>
    obtain ⟨problem, answered⟩ | ⟨record, -, answered⟩ :=
      run.store.mintTicket_cases moment origin actor grants
    · simp only [Machine.next, pairing, answered]
      exact h
    · simp only [Machine.next, pairing, answered]
      exact (h.narrow (run.store.prune_narrows moment)).mint
  | exchange ticket origin serviceInstanceId =>
    obtain ⟨problem, after, answered, narrows, -, -⟩ | ⟨record, held, young, issuer, place, answered⟩ :=
      run.store.exchange_cases moment ticket origin serviceInstanceId
    · simp only [Machine.next, pairing, answered]
      exact h.narrow narrows
    · cases Table.key_of_get? held
      cases issuer
      cases place
      have sound := (h.narrow (run.store.prune_narrows moment)).exchange held young
      rw [recordExchange_with] at sound
      simp only [Machine.next, pairing, answered]
      exact sound
  | authorize authorization serviceInstanceId => exact h
  | grant sessionId allowedRootId repositoryId =>
    exact h.narrow (run.store.grant_narrows moment sessionId allowedRootId repositoryId)
  | revokeRepository repositoryId allowedRootId rootHasRepositories =>
    exact h.narrow (run.store.revokeRepository_narrows repositoryId allowedRootId rootHasRepositories)
  | revoke sessionId => exact h.narrow (run.store.revoke_narrows moment sessionId)
  | prune => exact h.narrow (run.store.prune_narrows moment)

def Grows (before after : AuthRun) : Prop :=
  before.minted <+: after.minted ∧ before.exchanged <+: after.exchanged

theorem grows_step (run : AuthRun) (input : Moment × AuthCall) :
    Grows run (pairing.next run input) := by
  obtain ⟨moment, call⟩ := input
  cases call with
  | mintTicket origin actor grants =>
    simp only [Machine.next, pairing]
    unfold recordMint
    split
    · exact ⟨List.prefix_refl _, List.prefix_refl _⟩
    · exact ⟨List.prefix_append _ _, List.prefix_refl _⟩
  | exchange ticket origin serviceInstanceId =>
    simp only [Machine.next, pairing]
    unfold recordExchange
    split
    · exact ⟨List.prefix_refl _, List.prefix_refl _⟩
    · split
      · exact ⟨List.prefix_refl _, List.prefix_refl _⟩
      · exact ⟨List.prefix_refl _, List.prefix_append _ _⟩
  | authorize | grant | revokeRepository | revoke | prune =>
    exact ⟨List.prefix_refl _, List.prefix_refl _⟩

theorem grows_after (run : AuthRun) (calls : List (Moment × AuthCall)) :
    Grows run (pairing.after run calls) := by
  induction calls generalizing run with
  | nil => exact ⟨List.prefix_refl _, List.prefix_refl _⟩
  | cons input rest ih =>
    have first := grows_step run input
    have later := ih (pairing.next run input)
    exact ⟨first.1.trans later.1, first.2.trans later.2⟩

def Before (run : AuthRun) (session : Session) (repositoryId : String) : Prop :=
  ∃ old, run.Covers old repositoryId ∧ session = { old with grants := session.grants }

/-- The session was made by this exchange, from a ticket that names the repository. -/
def NamedBy (run : AuthRun) (session : Session) (repositoryId : String) (exchange : Exchange) : Prop :=
  MadeBy session exchange ∧ ∃ record, run.minted[exchange.place]? = some record ∧
    repositoryId ∈ record.grants.repositoryIds

/-- Where a session comes from that a call leaves behind: it was there with no fewer grants,
the call granted it something, or the call made it from a ticket. -/
theorem Sound.session_cases (h : run.Sound) (input : Moment × AuthCall) {token : String}
    (held : (pairing.next run input).store.sessions.get? token = some session) :
    (∃ old, run.store.sessions.get? token = some old ∧
        session = { old with grants := session.grants } ∧ session.grants.Within old.grants) ∨
      (∃ old allowedRootId repositoryId, run.store.sessions.get? token = some old ∧
        input.2 = .grant old.sessionId allowedRootId repositoryId ∧
        session = { old with grants := old.grants.add allowedRootId repositoryId }) ∨
      ∃ ticket record exchange, run.store.tickets.get? ticket = some record ∧
        run.placed ticket = some exchange.place ∧ run.minted[exchange.place]? = some record ∧
        (pairing.next run input).exchanged = run.exchanged ++ [exchange] ∧
        session = exchange.session ∧ session.grants = record.grants := by
  have same : run.store.sessions.get? token = some session →
      ∃ old, run.store.sessions.get? token = some old ∧
        session = { old with grants := session.grants } ∧ session.grants.Within old.grants :=
    fun before => ⟨session, before, rfl, .refl _⟩
  obtain ⟨moment, call⟩ := input
  cases call with
  | mintTicket origin actor grants =>
    left
    obtain ⟨problem, answered⟩ | ⟨record, -, answered⟩ :=
      run.store.mintTicket_cases moment origin actor grants
    · simp only [Machine.next, pairing, answered] at held
      exact same held
    · simp only [Machine.next, pairing, answered] at held
      exact same (get?_of_prune held)
  | exchange ticket origin serviceInstanceId =>
    obtain ⟨problem, after, answered, -, -, sessions⟩ | ⟨record, found, young, -, -, answered⟩ :=
      run.store.exchange_cases moment ticket origin serviceInstanceId
    · left
      simp only [Machine.next, pairing, answered, sessions] at held
      exact same (get?_of_prune held)
    · simp only [Machine.next, pairing, answered] at held ⊢
      rw [Table.get?_insert] at held
      split at held
      · cases held
        have narrows := run.store.prune_narrows moment
        obtain ⟨place, placed, minted⟩ := (h.narrow narrows).held ticket record found
        dsimp only at placed
        right; right
        simp only [recordExchange, placed]
        exact ⟨ticket, record, _, narrows.tickets ticket record found, placed, minted, rfl, rfl, rfl⟩
      · exact .inl (same (get?_of_prune held))
  | authorize authorization serviceInstanceId => exact .inl (same held)
  | grant sessionId allowedRootId granted =>
    simp only [Machine.next, pairing] at held
    unfold AuthStore.grant at held
    split at held
    · exact .inl (same held)
    · rename_i old found
      rw [Table.get?_insert] at held
      split at held
      · rename_i named
        cases held
        have asked : old.sessionId = sessionId := by simpa using List.find?_some found
        have member := moment.sessionWalk.mem_entries.mp (List.mem_of_find?_eq_some found)
        right; left
        exact ⟨old, allowedRootId, granted, named ▸ member, by rw [asked], rfl⟩
      · exact .inl (same held)
  | revokeRepository revoked allowedRootId rootHasRepositories =>
    simp only [Machine.next, pairing, AuthStore.revokeRepository] at held
    rw [Table.get?_update, Option.map_eq_some_iff] at held
    obtain ⟨old, before, rfl⟩ := held
    exact .inl ⟨old, before, rfl, Grants.within_removeRepository _ _ _ _⟩
  | revoke sessionId =>
    simp only [Machine.next, pairing] at held
    unfold AuthStore.revoke at held
    split at held
    · exact .inl (same held)
    · rw [Table.get?_erase] at held
      split at held
      · cases held
      · exact .inl (same held)
  | prune => exact .inl (same (get?_of_prune held))

theorem ticket_cases (run : AuthRun) (input : Moment × AuthCall) {ticket : String}
    (held : (pairing.next run input).store.tickets.get? ticket = some record) :
    (run.store.tickets.get? ticket = some record ∧
        (pairing.next run input).placed ticket = run.placed ticket) ∨
      (∃ origin actor, input.2 = .mintTicket origin actor record.grants) ∧
        (pairing.next run input).placed ticket = some run.minted.length := by
  obtain ⟨moment, call⟩ := input
  cases call with
  | mintTicket origin actor grants =>
    obtain ⟨problem, answered⟩ | ⟨minted, named, answered⟩ :=
      run.store.mintTicket_cases moment origin actor grants
    · simp only [Machine.next, pairing, answered, recordMint] at held ⊢
      exact .inl ⟨held, trivial⟩
    · simp only [Machine.next, pairing, answered, recordMint] at held ⊢
      rw [Table.get?_insert] at held
      split at held
      · rename_i same
        cases held
        exact .inr ⟨⟨origin, actor, by rw [named]⟩, by rw [same, Function.update_self]⟩
      · rename_i differs
        have before := (run.store.prune_narrows moment).tickets ticket record held
        exact .inl ⟨before, Function.update_of_ne differs _ _⟩
  | exchange secret origin serviceInstanceId =>
    have narrows : (run.store.exchange moment secret origin serviceInstanceId).2.tickets.get? ticket =
        some record → run.store.tickets.get? ticket = some record := by
      intro left
      obtain ⟨problem, after, answered, narrows, -, -⟩ | ⟨spent, -, -, -, -, answered⟩ :=
        run.store.exchange_cases moment secret origin serviceInstanceId
      · rw [answered] at left
        exact narrows.tickets ticket record left
      · rw [answered] at left
        have kept := ((run.store.prune moment).spend_narrows secret).tickets ticket record left
        exact (run.store.prune_narrows moment).tickets ticket record kept
    refine .inl ⟨narrows held, ?_⟩
    simp only [Machine.next, pairing, recordExchange]
    split
    · rfl
    · split <;> rfl
  | authorize authorization serviceInstanceId => exact .inl ⟨held, rfl⟩
  | grant sessionId allowedRootId granted =>
    have narrows := run.store.grant_narrows moment sessionId allowedRootId granted
    exact .inl ⟨narrows.tickets ticket record held, rfl⟩
  | revokeRepository revoked allowedRootId rootHasRepositories => exact .inl ⟨held, rfl⟩
  | revoke sessionId =>
    have narrows := run.store.revoke_narrows moment sessionId
    exact .inl ⟨narrows.tickets ticket record held, rfl⟩
  | prune => exact .inl ⟨(run.store.prune_narrows moment).tickets ticket record held, rfl⟩

variable {repositoryId : String}

theorem Sound.covers_step (h : run.Sound) (input : Moment × AuthCall)
    (covers : (pairing.next run input).Covers session repositoryId) :
    run.Before session repositoryId ∨
      (∃ allowedRootId, input.2 = .grant session.sessionId allowedRootId repositoryId) ∨
      ∃ exchange, (pairing.next run input).exchanged = run.exchanged ++ [exchange] ∧
        run.NamedBy session repositoryId exchange := by
  obtain ⟨held, named⟩ := covers
  obtain ⟨old, before, same, within⟩ | ⟨old, allowedRootId, granted, before, call, same⟩ |
    ⟨ticket, record, exchange, -, -, minted, added, made, grants⟩ := h.session_cases input held
  · have token : old.token = session.token := Table.key_of_get? before
    exact .inl ⟨old, ⟨token ▸ before, within.2 named⟩, same⟩
  · have token : old.token = session.token := Table.key_of_get? before
    rw [same] at named
    cases Grants.mem_pushNew.mp named with
    | inl earlier => exact .inl ⟨old, ⟨token ▸ before, earlier⟩, by rw [same]⟩
    | inr now =>
      right; left
      exact ⟨allowedRootId, by rw [call, same, now]⟩
  · right; right
    refine ⟨exchange, added, ?_, record, minted, grants ▸ named⟩
    unfold MadeBy
    rw [made]

/-- So does a run. -/
theorem Sound.covers_after (h : run.Sound) (later : List (Moment × AuthCall))
    (covers : (pairing.after run later).Covers session repositoryId) :
    run.Before session repositoryId ∨ (∃ moment allowedRootId,
        (moment, .grant session.sessionId allowedRootId repositoryId) ∈ later) ∨
      ∃ exchange ∈ (pairing.after run later).exchanged.drop run.exchanged.length,
        (pairing.after run later).NamedBy session repositoryId exchange := by
  induction later generalizing run with
  | nil => exact .inl ⟨session, covers, rfl⟩
  | cons input rest ih =>
    have grown := grows_after (pairing.next run input) rest
    rw [Machine.after_cons] at covers ⊢
    obtain ⟨old, before, same⟩ | ⟨moment, allowedRootId, granted⟩ | ⟨exchange, made, named⟩ :=
      ih (h.step input) covers
    · obtain ⟨older, earlier, other⟩ | ⟨allowedRootId, granted⟩ | ⟨exchange, added, made, named⟩ :=
        h.covers_step input before
      · exact .inl ⟨older, earlier, by rw [same, other]⟩
      · right; left
        refine ⟨input.1, allowedRootId, ?_⟩
        have now : input = (input.1, .grant session.sessionId allowedRootId repositoryId) := by
          rw [same, ← granted]
        exact now ▸ List.mem_cons_self
      · right; right
        obtain ⟨more, whole⟩ := grown.2
        refine ⟨exchange, ?_, ?_, ?_⟩
        · rw [← whole, added, List.append_assoc, List.drop_left]
          exact List.mem_cons_self
        · unfold MadeBy at made ⊢
          rw [same, made]
        · obtain ⟨record, minted, mentions⟩ := named
          have kept := (grows_step run input).1.trans grown.1
          exact ⟨record, getElem?_of_prefix kept minted, mentions⟩
    · exact .inr (.inl ⟨moment, allowedRootId, List.mem_cons_of_mem _ granted⟩)
    · right; right
      refine ⟨exchange, ?_, named⟩
      exact List.drop_subset_drop_left _ (grows_step run input).2.length_le made

theorem not_covers_revoked (run : AuthRun) (moment : Moment) (repositoryId allowedRootId : String)
    (rootHasRepositories : Bool) (session : Session) :
    ¬(pairing.next run (moment, .revokeRepository repositoryId allowedRootId
      rootHasRepositories)).Covers session repositoryId := by
  rintro ⟨held, named⟩
  simp only [Machine.next, pairing, AuthStore.revokeRepository] at held
  rw [Table.get?_update, Option.map_eq_some_iff] at held
  obtain ⟨old, before, rfl⟩ := held
  have other := (List.mem_filter.mp named).2
  exact of_decide_eq_true other rfl

theorem Sound.bearersOnly (h : run.Sound) : run.BearersOnly := by
  intro moment authorization serviceInstanceId session accepted
  obtain ⟨bearer, issuer, young, held⟩ := authorize_ok accepted
  exact ⟨bearer, issuer, young, h.made session.token session held⟩

end

/-- In every state that a run reaches, at any readings of the clock: no ticket was exchanged
twice, nor after it expired, nor from elsewhere; an exchange leaves no ticket of that name
behind; only bearers of sessions so made are accepted. A repository that was revoked comes to
a session by a later grant or by the exchange of a ticket that names it. -/
theorem ticket_and_session_safety (serviceInstanceId : String)
    (ticketTtlSeconds sessionTtlSeconds : Nat) :
    let start : AuthRun := { store := .withTtl serviceInstanceId ticketTtlSeconds sessionTtlSeconds }
    (∀ calls, (pairing.after start calls).SingleUse ∧ (pairing.after start calls).ConsumedOnSight ∧
      (pairing.after start calls).BearersOnly) ∧
    ∀ earlier moment repositoryId allowedRootId rootHasRepositories later,
      let revoked := pairing.after start (earlier ++
        [(moment, .revokeRepository repositoryId allowedRootId rootHasRepositories)])
      RevocationHolds revoked (pairing.after revoked later) later repositoryId := by
  intro start
  have sound : ∀ calls, (pairing.after start calls).Sound := fun calls =>
    pairing.invariant Sound (fun run input held => held.step input) (sound_start _ rfl rfl) calls
  constructor
  · intro calls
    refine ⟨(sound calls).single, ?_, (sound calls).bearersOnly⟩
    intro moment ticket origin issuer
    exact exchange_consumes _ moment ticket origin issuer
  · intro earlier moment repositoryId allowedRootId rootHasRepositories later revoked session covers
    obtain ⟨old, before, -⟩ | granted | made := (sound _).covers_after later covers
    · rw [Machine.after_append] at before
      exact absurd before (not_covers_revoked _ moment _ _ _ _)
    · exact .inl granted
    · exact .inr made

def examplePairing (nowMs : Int) : Moment where
  nowMs := nowMs
  ticketWalk := .byKey
  sessionWalk := .byKey
  randomSecret := "secret"
  randomId := "id"

/-- A ticket that was minted before the revocation carries the repository past it. -/
theorem revoked_repository_comes_with_ticket :
    let start : AuthRun := { store := .withTtl "srvc" 60 28800 }
    let earlier := [(examplePairing 0,
      AuthCall.mintTicket "" "cli" (.forRepositories ["root_1"] ["repo_1"]))]
    let later := [(examplePairing 2, AuthCall.exchange "secret" "" "srvc")]
    let revoked := pairing.after start
      (earlier ++ [(examplePairing 1, .revokeRepository "repo_1" "root_1" false)])
    (later.all fun call => !call.2.names "repo_1") = true ∧
      ∃ session, (pairing.after revoked later).Covers session "repo_1" := by
  intro start earlier later revoked
  refine ⟨rfl, {
    token := "rfs_secret", sessionId := "sess_id", actor := "cli"
    grants := .forRepositories ["root_1"] ["repo_1"], serviceInstanceId := "srvc"
    issuedAtMs := 2, expiresAtMs := 28800002 }, by decide +kernel, by decide⟩

end AuthRun
end Refyard.Auth
