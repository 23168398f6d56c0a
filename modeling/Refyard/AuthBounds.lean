import Refyard.AuthSafety

/-! How many tickets and sessions are held, and which of them go. Both tables are pruned before
something is added to them, so a full table is left with one more. -/
namespace Refyard.Auth

/-- What is gone had expired or was taken. Otherwise there were too many that had not expired,
and nothing is left that has, nor anything older, but for what was created. -/
def LosesInOrder {β : Type} {key : β → String} (expiresAtMs age : β → Int) (limit : Nat)
    (nowMs : Int) (taken created : Option String) (before after : Table key) : Prop :=
  ∀ gone, before.get? (key gone) = some gone → after.get? (key gone) = none →
    expiresAtMs gone ≤ nowMs ∨ taken = some (key gone) ∨
      limit < (before.values.filter fun entry => nowMs < expiresAtMs entry).length ∧
        ∀ kept, created ≠ some (key kept) → after.get? (key kept) = some kept →
          nowMs < expiresAtMs kept ∧ age gone ≤ age kept

namespace LosesInOrder

section
variable {β : Type} {key : β → String} {expiresAtMs age : β → Int} {limit : Nat} {nowMs : Int}
  {taken created : Option String} {before after : Table key}

theorem refl (before : Table key) :
    LosesInOrder expiresAtMs age limit nowMs taken created before before := by
  intro gone held absent
  rw [held] at absent
  cases absent

theorem pruned (walk : Table.Walk key) (before : Table key) :
    let alive := before.retain fun entry => nowMs < expiresAtMs entry
    LosesInOrder expiresAtMs age limit nowMs none none before
      (Table.trim walk age limit alive.size alive) := by
  intro alive gone held absent
  by_cases young : nowMs < expiresAtMs gone
  · have among : alive.get? (key gone) = some gone := by
      rw [Table.get?_retain, held]
      simp [young]
    have many : limit < alive.size := by
      rcases Nat.lt_or_ge limit alive.size with many | few
      · exact many
      · rw [Table.trim_of_le few, among] at absent
        cases absent
    refine .inr (.inr ⟨by rwa [Table.size_retain] at many, fun kept _ stays => ?_⟩)
    have lives := Table.get?_of_trim stays
    rw [Table.get?_retain, Option.filter_eq_some_iff] at lives
    exact ⟨of_decide_eq_true lives.2, (Table.age_le_of_trim among absent stays).2⟩
  · exact .inl (Int.not_lt.mp young)

theorem insert (h : LosesInOrder expiresAtMs age limit nowMs taken none before after) (value : β) :
    LosesInOrder expiresAtMs age limit nowMs taken (some (key value)) before
      (after.insert value) := by
  intro gone held absent
  rw [Table.get?_insert] at absent
  split at absent
  · cases absent
  · obtain expired | took | ⟨many, oldest⟩ := h gone held absent
    · exact .inl expired
    · exact .inr (.inl took)
    · refine .inr (.inr ⟨many, fun kept other stays => ?_⟩)
      rw [Table.get?_insert_of_ne fun same => other (congrArg some same.symm)] at stays
      exact oldest kept nofun stays

theorem erase (h : LosesInOrder expiresAtMs age limit nowMs none created before after)
    (name : String) :
    LosesInOrder expiresAtMs age limit nowMs (some name) created before (after.erase name) := by
  intro gone held absent
  rw [Table.get?_erase] at absent
  split at absent
  · rename_i same
    exact .inr (.inl (congrArg some same.symm))
  · obtain expired | took | ⟨many, oldest⟩ := h gone held absent
    · exact .inl expired
    · cases took
    · refine .inr (.inr ⟨many, fun kept other stays => ?_⟩)
      rw [Table.get?_erase] at stays
      split at stays
      · cases stays
      · exact oldest kept other stays

end
end LosesInOrder

namespace AuthStore

def Bounded (store : AuthStore) : Prop :=
  store.tickets.size ≤ maxTickets ∧ store.sessions.size ≤ maxSessions

def ticketsBeside (store : AuthStore) (nowMs : Int) (ticket : String) : Nat :=
  (store.tickets.values.filter fun record =>
    nowMs < record.expiresAtMs && record.ticket ≠ ticket).length

def sessionsBeside (store : AuthStore) (nowMs : Int) (token : String) : Nat :=
  (store.sessions.values.filter fun session =>
    nowMs < session.expiresAtMs && session.token ≠ token).length

/-- The ticket is held, has not expired, and was minted for this origin and instance. -/
def Redeemable (store : AuthStore) (nowMs : Int) (ticket origin serviceInstanceId : String) : Prop :=
  ∃ record, store.tickets.get? ticket = some record ∧ nowMs < record.expiresAtMs ∧
    record.serviceInstanceId = serviceInstanceId ∧ record.origin = origin

def HasRoom (store : AuthStore) (moment : Moment) : AuthCall → Prop
  | .mintTicket origin _ _ => origin = "" ∨ isLoopbackOrigin origin = true →
      store.ticketsBeside moment.nowMs moment.randomSecret < maxTickets
  | .exchange ticket origin serviceInstanceId =>
      store.Redeemable moment.nowMs ticket origin serviceInstanceId →
        store.sessionsBeside moment.nowMs ("rfs_" ++ moment.randomSecret) < maxSessions
  | _ => True

/-- Both tables lose entries in order: expired ones, what the call took, and then the oldest. -/
def PrunesInOrder (nowMs : Int) (taken minted paired : Option String) (before after : AuthStore) :
    Prop :=
  LosesInOrder BootstrapTicket.expiresAtMs BootstrapTicket.expiresAtMs maxTickets nowMs taken minted
      before.tickets after.tickets ∧
    LosesInOrder Session.expiresAtMs Session.issuedAtMs maxSessions nowMs none paired
      before.sessions after.sessions

def EvictsFairly (store : AuthStore) (moment : Moment) : AuthCall → Prop
  | .mintTicket origin actor grants =>
      let minted := store.mintTicket moment origin actor grants
      PrunesInOrder moment.nowMs none (minted.1.toOption.map BootstrapTicket.ticket) none store
          minted.2 ∧
        ∀ record, minted.1 = .ok record → minted.2.tickets.get? record.ticket = some record
  | .exchange ticket origin serviceInstanceId =>
      let exchanged := store.exchange moment ticket origin serviceInstanceId
      PrunesInOrder moment.nowMs (some ticket) none (exchanged.1.toOption.map Session.token) store
          exchanged.2 ∧ ∀ session, exchanged.1 = .ok session →
          exchanged.2.sessions.get? session.token = some session
  | _ => True

variable (store : AuthStore)

theorem prune_inOrder (moment : Moment) :
    PrunesInOrder moment.nowMs none none none store (store.prune moment) :=
  ⟨.pruned moment.ticketWalk store.tickets, .pruned moment.sessionWalk store.sessions⟩

/-- Whatever an exchange is answered with, the tickets are the pruned ones without the one it
named. -/
theorem exchange_tickets (moment : Moment) (ticket origin serviceInstanceId : String) :
    (store.exchange moment ticket origin serviceInstanceId).2.tickets =
      (store.prune moment).tickets.erase ticket := by
  unfold exchange
  dsimp only
  rw [findTicket_eq]
  cases held : (store.prune moment).tickets.get? ticket with
  | none => exact (Table.erase_of_absent held).symm
  | some record =>
    have named : record.ticket = ticket := Table.key_of_get? held
    dsimp only
    rw [named]
    split_ifs <;> rfl

theorem exchange_sessions (moment : Moment) (ticket origin serviceInstanceId : String) :
    ((∃ problem, (store.exchange moment ticket origin serviceInstanceId).1 = .error problem) ∧
        ¬(store.prune moment).Redeemable moment.nowMs ticket origin serviceInstanceId ∧
        (store.exchange moment ticket origin serviceInstanceId).2.sessions =
          (store.prune moment).sessions) ∨
      (store.prune moment).Redeemable moment.nowMs ticket origin serviceInstanceId ∧
      ∃ session, session.token = "rfs_" ++ moment.randomSecret ∧
        (store.exchange moment ticket origin serviceInstanceId).1 = .ok session ∧
        (store.exchange moment ticket origin serviceInstanceId).2.sessions =
          (store.prune moment).sessions.insert session := by
  obtain ⟨problem, after, answered, -, -, kept⟩ | ⟨record, held, young, issuer, place, answered⟩ :=
    store.exchange_cases moment ticket origin serviceInstanceId
  · refine .inl ⟨⟨problem, congrArg Prod.fst answered⟩, ?_, ?_⟩
    · rintro ⟨record, held, young, issuer, place⟩
      unfold exchange at answered
      dsimp only at answered
      rw [findTicket_eq, held] at answered
      simp only [if_neg (Int.not_le.mpr young), issuer, place, ne_eq, not_true_eq_false,
        if_false] at answered
      cases congrArg Prod.fst answered
    · rw [answered, kept]
  · refine .inr ⟨⟨record, held, young, issuer, place⟩,
      (store.prune moment).pair moment record, rfl, ?_, ?_⟩
    · exact congrArg Prod.fst answered
    · rw [answered]

theorem evictsFairly (moment : Moment) (call : AuthCall) : store.EvictsFairly moment call := by
  have pruned := store.prune_inOrder moment
  cases call with
  | mintTicket origin actor grants =>
    obtain ⟨problem, answered⟩ | ⟨record, -, answered⟩ :=
      store.mintTicket_cases moment origin actor grants
    · refine ⟨?_, fun record minted => ?_⟩
      · rw [answered]
        exact ⟨.refl _, .refl _⟩
      · rw [answered] at minted
        cases minted
    · refine ⟨?_, fun other minted => ?_⟩
      · rw [answered]
        exact ⟨pruned.1.insert record, pruned.2⟩
      · rw [answered] at minted ⊢
        cases minted
        exact Table.get?_insert_self _ record
  | exchange ticket origin serviceInstanceId =>
    obtain ⟨⟨problem, answered⟩, -, kept⟩ | ⟨-, session, -, answered, added⟩ :=
      store.exchange_sessions moment ticket origin serviceInstanceId
    · refine ⟨⟨?_, ?_⟩, fun session paired => ?_⟩
      · rw [exchange_tickets]
        exact pruned.1.erase ticket
      · rw [answered, kept]
        exact pruned.2
      · rw [answered] at paired
        cases paired
    · refine ⟨⟨?_, ?_⟩, fun other paired => ?_⟩
      · rw [exchange_tickets]
        exact pruned.1.erase ticket
      · rw [answered, added]
        exact pruned.2.insert session
      · rw [answered] at paired
        cases paired
        rw [added]
        exact Table.get?_insert_self _ session
  | _ => trivial

section
variable {store : AuthStore}

theorem Bounded.prune (h : store.Bounded) (moment : Moment) : (store.prune moment).tickets =
        store.tickets.retain (fun record => moment.nowMs < record.expiresAtMs) ∧
      (store.prune moment).sessions =
        store.sessions.retain fun session => moment.nowMs < session.expiresAtMs :=
  ⟨Table.trim_of_le ((Table.size_retain_le _ _).trans h.1),
    Table.trim_of_le ((Table.size_retain_le _ _).trans h.2)⟩

theorem Bounded.mintTicket_iff (h : store.Bounded) (moment : Moment) (origin actor : String)
    (grants : Grants) : (store.mintTicket moment origin actor grants).2.Bounded ↔
      store.HasRoom moment (.mintTicket origin actor grants) := by
  obtain ⟨tickets, sessions⟩ := h.prune moment
  by_cases refused : origin ≠ "" ∧ !isLoopbackOrigin origin
  · rw [mintTicket, if_pos refused]
    refine iff_of_true h fun listed => ?_
    obtain empty | loopback := listed
    · exact absurd empty refused.1
    · rw [loopback] at refused
      cases refused.2
  · have listed : origin = "" ∨ isLoopbackOrigin origin = true := by
      rw [not_and_or, not_not, Bool.not_eq_true', Bool.not_eq_false] at refused
      exact refused
    rw [mintTicket, if_neg refused]
    simp only [Bounded, HasRoom, listed, true_imp_iff, ticketsBeside]
    rw [tickets, sessions, Table.size_insert_retain, Nat.succ_le_iff]
    exact and_iff_left ((Table.size_retain_le _ _).trans h.2)

theorem Bounded.exchange_iff (h : store.Bounded) (moment : Moment)
    (ticket origin serviceInstanceId : String) :
    (store.exchange moment ticket origin serviceInstanceId).2.Bounded ↔
      store.HasRoom moment (.exchange ticket origin serviceInstanceId) := by
  obtain ⟨tickets, sessions⟩ := h.prune moment
  have fewer : ((store.prune moment).tickets.erase ticket).size ≤ maxTickets := by
    rw [tickets]
    exact (Table.size_erase_le _ _).trans ((Table.size_retain_le _ _).trans h.1)
  have redeemable : (store.prune moment).Redeemable moment.nowMs ticket origin serviceInstanceId ↔
      store.Redeemable moment.nowMs ticket origin serviceInstanceId := by
    refine exists_congr fun record => ?_
    rw [tickets, Table.get?_retain, Option.filter_eq_some_iff, decide_eq_true_iff, and_assoc]
    refine and_congr_right fun _ => ?_
    tauto
  unfold Bounded HasRoom
  dsimp only
  rw [exchange_tickets, and_iff_right fewer, ← redeemable]
  obtain ⟨-, refused, kept⟩ | ⟨accepted, session, token, -, added⟩ :=
    store.exchange_sessions moment ticket origin serviceInstanceId
  · rw [kept, sessions]
    exact iff_of_true ((Table.size_retain_le _ _).trans h.2) fun accepted => absurd accepted refused
  · rw [added, sessions, Table.size_insert_retain, Nat.succ_le_iff, token]
    exact ⟨fun room _ => room, fun room => room accepted⟩

theorem Bounded.narrow (h : store.Bounded) {after : AuthStore} (narrows : Narrows store after) :
    after.Bounded := by
  have tickets : after.tickets.size ≤ store.tickets.size := by
    apply Table.size_le_of_held
    intro name record held
    exact ⟨record, narrows.tickets name record held⟩
  have sessions : after.sessions.size ≤ store.sessions.size := by
    apply Table.size_le_of_held
    intro name session held
    obtain ⟨old, before, -⟩ := narrows.sessions name session held
    exact ⟨old, before⟩
  exact ⟨tickets.trans h.1, sessions.trans h.2⟩

end
end AuthStore

namespace AuthRun

def StaysBounded (run : AuthRun) (input : Moment × AuthCall) : Prop :=
  (pairing.next run input).store.Bounded

theorem staysBounded_iff {run : AuthRun} (h : run.store.Bounded) (input : Moment × AuthCall) :
    run.StaysBounded input ↔ run.store.HasRoom input.1 input.2 := by
  obtain ⟨moment, call⟩ := input
  cases call with
  | mintTicket origin actor grants => exact h.mintTicket_iff moment origin actor grants
  | exchange ticket origin serviceInstanceId => exact h.exchange_iff moment ticket origin _
  | authorize authorization serviceInstanceId => exact iff_of_true h trivial
  | grant sessionId allowedRootId repositoryId =>
    exact iff_of_true (h.narrow (run.store.grant_narrows moment _ _ _)) trivial
  | revokeRepository repositoryId allowedRootId rootHasRepositories =>
    exact iff_of_true (h.narrow (run.store.revokeRepository_narrows _ _ _)) trivial
  | revoke sessionId =>
    exact iff_of_true (h.narrow (run.store.revoke_narrows moment _)) trivial
  | prune => exact iff_of_true (h.narrow (run.store.prune_narrows moment)) trivial

/-- Whatever is called, at whatever readings of the clock: what goes from the tables goes in
order, and never the entry that was just created. The tables stay within their bounds exactly in
the runs in which every ticket that is minted and every session that is paired finds room beside
those that have not expired. -/
theorem tables_bounded_iff (serviceInstanceId : String) (ticketTtlSeconds sessionTtlSeconds : Nat)
    (calls : List (Moment × AuthCall)) :
    let start : AuthRun := { store := .withTtl serviceInstanceId ticketTtlSeconds sessionTtlSeconds }
    pairing.Meets (fun run input => run.store.EvictsFairly input.1 input.2) start calls ∧
      (pairing.Meets StaysBounded start calls ↔
        pairing.Meets (fun run input => run.store.HasRoom input.1 input.2) start calls) := by
  intro start
  constructor
  · exact pairing.meets_of_step (fun _ => True) (fun _ _ _ _ => trivial)
      (fun run input _ _ => run.store.evictsFairly input.1 input.2) trivial
      (pairing.meets_true start calls)
  · apply pairing.meets_iff_of_step (fun run => run.store.Bounded)
    · exact fun run input held room => (staysBounded_iff held input).mpr room
    · exact fun run input held => staysBounded_iff held input
    · exact ⟨Nat.zero_le _, Nat.zero_le _⟩

def mintings (count : Nat) : List (Moment × AuthCall) :=
  (List.range count).map fun number =>
    ({ nowMs := 0, ticketWalk := .byKey, sessionWalk := .byKey
       randomSecret := String.singleton (Char.ofNat (0x41 + number)), randomId := "id" },
      .mintTicket "" "cli" (.forRepositories [] []))

def minting (number : Nat) : Moment × AuthCall :=
  ({ nowMs := 0, ticketWalk := .byKey, sessionWalk := .byKey
     randomSecret := String.singleton (Char.ofNat (0x41 + number)), randomId := "id" },
    .mintTicket "" "cli" (.forRepositories [] []))

theorem mintings_succ (count : Nat) : mintings (count + 1) = mintings count ++ [minting count] := by
  unfold mintings
  rw [List.range_succ, List.map_append]
  rfl

def Minted (count : Nat) (store : AuthStore) : Prop :=
  store.ticketTtlMs = 300000 ∧ store.tickets.size = count ∧
    ∀ name record, store.tickets.get? name = some record → record.expiresAtMs = 300000 ∧
      ∃ number < count, name = String.singleton (Char.ofNat (0x41 + number))

theorem letter_injective {first second : Nat} (low : first ≤ maxTickets) (high : second ≤ maxTickets)
    (same : String.singleton (Char.ofNat (0x41 + first)) =
      String.singleton (Char.ofNat (0x41 + second))) : first = second := by
  unfold maxTickets at low high
  have letters := congrArg Char.toNat (String.singleton_inj.mp same)
  rw [toNat_charOfNat (.inl (by omega)), toNat_charOfNat (.inl (by omega))] at letters
  omega

/-- Nothing expires between the mintings, and up to the last one nothing is too much. -/
theorem Minted.next {count : Nat} {run : AuthRun} (minted : Minted count run.store)
    (few : count ≤ maxTickets) : Minted (count + 1) (pairing.next run (minting count)).store := by
  obtain ⟨ttl, size, letters⟩ := minted
  have unexpired : run.store.tickets.retain (fun record => (0 : Int) < record.expiresAtMs) =
      run.store.tickets := by
    apply Table.retain_eq_self
    intro name record held
    rw [(letters name record held).1]
    rfl
  have kept : (run.store.prune (minting count).1).tickets = run.store.tickets := by
    change Table.trim _ _ _ _ (run.store.tickets.retain fun record => (0 : Int) < record.expiresAtMs) =
      run.store.tickets
    rw [unexpired, Table.trim_of_le (by omega)]
  obtain ⟨record, named, expires, filed⟩ : ∃ record : BootstrapTicket,
      record.ticket = String.singleton (Char.ofNat (0x41 + count)) ∧ record.expiresAtMs = 300000 ∧
        (pairing.next run (minting count)).store.tickets = run.store.tickets.insert record := by
    refine ⟨{ ticket := String.singleton (Char.ofNat (0x41 + count))
              serviceInstanceId := run.store.serviceInstanceId
              origin := "", actor := "cli", grants := .forRepositories [] []
              expiresAtMs := wrapI64 (0 + wrapI64 run.store.ticketTtlMs) }, rfl, ?_, ?_⟩
    · rw [ttl]
      rfl
    · rw [← kept]
      rfl
  refine ⟨ttl, ?_, ?_⟩
  · have free : run.store.tickets.get? record.ticket = none := by
      cases held : run.store.tickets.get? record.ticket with
      | none => rfl
      | some other =>
        obtain ⟨-, number, below, same⟩ := letters _ other held
        have equal := letter_injective few (by omega) (named.symm.trans same)
        omega
    rw [filed, Table.size_insert free, size]
  · intro name other held
    rw [filed, Table.get?_insert] at held
    split at held
    · rename_i filedHere
      cases held
      exact ⟨expires, count, Nat.lt_succ_self count, by rw [filedHere, named]⟩
    · obtain ⟨same, number, below, letter⟩ := letters name other held
      exact ⟨same, number, Nat.lt_succ_of_lt below, letter⟩

theorem minted_mintings {start : AuthRun} (fresh : Minted 0 start.store) (count : Nat)
    (few : count ≤ maxTickets + 1) : Minted count (pairing.after start (mintings count)).store := by
  induction count with
  | zero => exact fresh
  | succ count ih =>
    rw [mintings_succ, Machine.after_append]
    exact (ih (Nat.le_of_succ_le few)).next (Nat.le_of_succ_le_succ few)

/-- One ticket more than the bound, all minted in the same millisecond. -/
theorem not_bounded_full :
    ¬pairing.Meets StaysBounded { store := .withTtl "srvc" 300 28800 } (mintings 65) := by
  intro stays
  have bounded := pairing.invariant_of_step (fun run => run.store.Bounded)
    (fun _ _ _ held => held) ⟨Nat.zero_le _, Nat.zero_le _⟩ stays
  have fresh : Minted 0 (AuthStore.withTtl "srvc" 300 28800) := by
    refine ⟨rfl, rfl, fun name record held => ?_⟩
    cases (Table.get?_empty name).symm.trans held
  have minted : Minted 65 (pairing.after { store := .withTtl "srvc" 300 28800 } (mintings 65)).store :=
    minted_mintings fresh 65 le_rfl
  have within := bounded.1
  rw [minted.2.1] at within
  exact absurd within (by decide)

end AuthRun
end Refyard.Auth
