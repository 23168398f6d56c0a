import Refyard.Contract.Problem
import Refyard.Foundation.Scan
import Refyard.Foundation.TableWalk
import Refyard.Foundation.Utf8
import Mathlib.Data.List.DropRight

/-! Pairing: a one-time ticket becomes a bearer session. -/
namespace Refyard.Auth

def maxTickets : Nat := 64

def maxSessions : Nat := 16

structure Grants where
  allowedRootIds : List String
  repositoryIds : List String
  scopes : List String
  deriving DecidableEq

namespace Grants

def forRepositories (allowedRootIds repositoryIds : List String) : Grants where
  allowedRootIds := allowedRootIds
  repositoryIds := repositoryIds
  scopes := ["repository:read", "repository:write", "repository:network", "workspace:manage"]

def pushNew (ids : List String) (id : String) : List String :=
  if id ∈ ids then ids else ids ++ [id]

def add (grants : Grants) (allowedRootId repositoryId : String) : Grants :=
  { grants with
    allowedRootIds := pushNew grants.allowedRootIds allowedRootId
    repositoryIds := pushNew grants.repositoryIds repositoryId }

def removeRepository (grants : Grants) (repositoryId allowedRootId : String)
    (rootHasRepositories : Bool) : Grants :=
  { grants with
    repositoryIds := grants.repositoryIds.filter (· ≠ repositoryId)
    allowedRootIds :=
      if rootHasRepositories then grants.allowedRootIds
      else grants.allowedRootIds.filter (· ≠ allowedRootId) }

theorem mem_pushNew {ids : List String} {id other : String} :
    other ∈ pushNew ids id ↔ other ∈ ids ∨ other = id := by
  unfold pushNew
  split
  · rename_i member
    exact ⟨.inl, fun either => either.elim (fun before => before) fun same => same ▸ member⟩
  · rw [List.mem_append, List.mem_singleton]

def Within (grants other : Grants) : Prop :=
  grants.allowedRootIds ⊆ other.allowedRootIds ∧ grants.repositoryIds ⊆ other.repositoryIds

theorem Within.refl (grants : Grants) : grants.Within grants :=
  ⟨List.Subset.refl _, List.Subset.refl _⟩

theorem within_removeRepository (grants : Grants) (repositoryId allowedRootId : String)
    (rootHasRepositories : Bool) :
    (grants.removeRepository repositoryId allowedRootId rootHasRepositories).Within grants := by
  constructor
  · unfold removeRepository
    split
    · exact List.Subset.refl _
    · exact List.filter_subset_self _
  · exact List.filter_subset_self _

end Grants

structure BootstrapTicket where
  ticket : String
  serviceInstanceId : String
  origin : String
  actor : String
  grants : Grants
  expiresAtMs : Int

structure Session where
  token : String
  sessionId : String
  actor : String
  grants : Grants
  serviceInstanceId : String
  issuedAtMs : Int
  expiresAtMs : Int
  deriving DecidableEq

/-- What a call finds outside the store: the clock, the orders in which the two maps are
walked, and what the random source gives. -/
structure Moment where
  nowMs : Int
  ticketWalk : Table.Walk BootstrapTicket.ticket
  sessionWalk : Table.Walk Session.token
  randomSecret : String
  randomId : String

structure AuthStore where
  serviceInstanceId : String
  ticketTtlMs : Nat
  sessionTtlMs : Nat
  tickets : Table BootstrapTicket.ticket := .empty
  sessions : Table Session.token := .empty

def wrapI64 (value : Int) : Int := value.bmod (2 ^ 64)

def secretMatches (given expected : String) : Bool :=
  let given := Utf8.encode given.toList
  let expected := Utf8.encode expected.toList
  if given.length ≠ expected.length then false
  else
    (given.zip expected).foldl (fun difference pair => difference ||| (pair.1 ^^^ pair.2)) 0 == 0

def isLoopbackOrigin (origin : String) : Bool :=
  match stripPrefix "http://".toList origin.toList with
  | none => false
  | some rest =>
      let authority := rest.rdropWhile (· = '/')
      ["127.0.0.1", "localhost", "[::1]"].any fun loopback =>
        authority = loopback.toList ||
          match stripPrefix loopback.toList authority with
          | none => false
          | some port => port.head? = some ':'

namespace AuthStore

def withTtl (serviceInstanceId : String) (ticketTtlSeconds sessionTtlSeconds : Nat) : AuthStore where
  serviceInstanceId := serviceInstanceId
  ticketTtlMs := ticketTtlSeconds * 1000 % 2 ^ 64
  sessionTtlMs := sessionTtlSeconds * 1000 % 2 ^ 64

def prune (store : AuthStore) (moment : Moment) : AuthStore :=
  let tickets := store.tickets.retain fun record => moment.nowMs < record.expiresAtMs
  let sessions := store.sessions.retain fun session => moment.nowMs < session.expiresAtMs
  { store with
    tickets := Table.trim moment.ticketWalk BootstrapTicket.expiresAtMs maxTickets tickets.size tickets
    sessions := Table.trim moment.sessionWalk Session.issuedAtMs maxSessions sessions.size sessions }

def mintTicket (store : AuthStore) (moment : Moment) (origin actor : String) (grants : Grants) :
    Except Problem BootstrapTicket × AuthStore :=
  if origin ≠ "" ∧ !isLoopbackOrigin origin then
    (.error (.new .forbidden
      "the native service pairs loopback origins only; the hosted form is a different service"), store)
  else
    let store := store.prune moment
    let record : BootstrapTicket := {
      ticket := moment.randomSecret
      serviceInstanceId := store.serviceInstanceId
      origin, actor, grants
      expiresAtMs := wrapI64 (moment.nowMs + wrapI64 store.ticketTtlMs) }
    (.ok record, { store with tickets := store.tickets.insert record })

def findTicket (store : AuthStore) (moment : Moment) (ticket : String) : Option BootstrapTicket :=
  (moment.ticketWalk.entries store.tickets).find? fun record => secretMatches ticket record.ticket

def findSession (store : AuthStore) (moment : Moment) (token : String) : Option Session :=
  (moment.sessionWalk.entries store.sessions).find? fun session => secretMatches token session.token

def spend (store : AuthStore) (ticket : String) : AuthStore :=
  { store with tickets := store.tickets.erase ticket }

def pair (store : AuthStore) (moment : Moment) (record : BootstrapTicket) : Session where
  token := "rfs_" ++ moment.randomSecret
  sessionId := "sess_" ++ moment.randomId
  actor := record.actor
  grants := record.grants
  serviceInstanceId := store.serviceInstanceId
  issuedAtMs := moment.nowMs
  expiresAtMs := wrapI64 (moment.nowMs + wrapI64 store.sessionTtlMs)

def exchange (store : AuthStore) (moment : Moment) (ticket origin serviceInstanceId : String) :
    Except Problem Session × AuthStore :=
  let store := store.prune moment
  match store.findTicket moment ticket with
  | none =>
      (.error (.new .unauthenticated
        "that pairing ticket is not valid: it was already used, it expired, or this service did not issue it"),
        store)
  | some record =>
      if record.expiresAtMs ≤ moment.nowMs then
        (.error (.new .unauthenticated "that pairing ticket expired; start the workbench again"),
          store.spend record.ticket)
      else if record.serviceInstanceId ≠ serviceInstanceId then
        (.error (.new .unauthenticated "that pairing ticket belongs to a different service process"),
          store.spend record.ticket)
      else if record.origin ≠ origin then
        (.error (.new .forbidden "that pairing ticket was issued for a different origin"),
          store.spend record.ticket)
      else
        let session := store.pair moment record
        let store := store.spend record.ticket
        (.ok session, { store with sessions := store.sessions.insert session })

def authorize (store : AuthStore) (moment : Moment) (authorization : Option String)
    (serviceInstanceId : String) : Except Problem Session :=
  match authorization.filter (· ≠ "") with
  | none =>
      .error (.new .unauthenticated "this service requires a bearer token; pair again from the CLI")
  | some header =>
      match stripPrefix "Bearer ".toList header.toList with
      | none =>
          .error (.new .unauthenticated "the Authorization header must be `Bearer <token>`")
      | some token =>
          match store.findSession moment (String.ofList token) with
          | none =>
              .error (.new .unauthenticated
                "that session is not valid: it expired, or this service restarted")
          | some session =>
              if session.serviceInstanceId ≠ serviceInstanceId then
                .error (.new .unauthenticated "that session belongs to a different service process")
              else if session.expiresAtMs ≤ moment.nowMs then
                .error (.new .unauthenticated "that session expired; pair again from the CLI")
              else .ok session

def allowsRepository (session : Session) (repositoryId : String) : Bool :=
  session.grants.repositoryIds.contains repositoryId

def grant (store : AuthStore) (moment : Moment) (sessionId allowedRootId repositoryId : String) :
    Bool × AuthStore :=
  match (moment.sessionWalk.entries store.sessions).find? (·.sessionId = sessionId) with
  | none => (false, store)
  | some session =>
      let session := { session with grants := session.grants.add allowedRootId repositoryId }
      (true, { store with sessions := store.sessions.insert session })

def revokeRepository (store : AuthStore) (repositoryId allowedRootId : String)
    (rootHasRepositories : Bool) : AuthStore :=
  { store with
    sessions := store.sessions.update
      (fun session => { session with
        grants := session.grants.removeRepository repositoryId allowedRootId rootHasRepositories })
      fun _ => rfl }

def revoke (store : AuthStore) (moment : Moment) (sessionId : String) : Bool × AuthStore :=
  match (moment.sessionWalk.entries store.sessions).find? (·.sessionId = sessionId) with
  | none => (false, store)
  | some session =>
      (store.sessions.contains session.token,
        { store with sessions := store.sessions.erase session.token })

theorem foldl_or_eq_zero (pairs : List (UInt8 × UInt8)) (difference : UInt8) :
    pairs.foldl (fun difference pair => difference ||| (pair.1 ^^^ pair.2)) difference = 0 ↔
      difference = 0 ∧ ∀ pair ∈ pairs, pair.1 = pair.2 := by
  induction pairs generalizing difference with
  | nil => simp
  | cons pair rest ih =>
    rw [List.foldl_cons, ih, UInt8.or_eq_zero_iff, UInt8.xor_eq_zero_iff, List.forall_mem_cons,
      and_assoc]

theorem secretMatches_iff {given expected : String} :
    secretMatches given expected = true ↔ given = expected := by
  unfold secretMatches
  dsimp only
  constructor
  · intro h
    split at h
    · cases h
    · rename_i lengths
      rw [beq_iff_eq, foldl_or_eq_zero] at h
      have same : List.Forall₂ Eq (Utf8.encode given.toList) (Utf8.encode expected.toList) := by
        rw [List.forall₂_iff_zip]
        exact ⟨not_not.mp lengths, fun member => h.2 _ member⟩
      rw [List.forall₂_eq_eq_eq] at same
      have decoded := congrArg Utf8.decode same
      rw [Utf8.decode_encode, Utf8.decode_encode] at decoded
      exact String.toList_inj.mp decoded
  · rintro rfl
    rw [if_neg (not_not.mpr rfl), beq_iff_eq, foldl_or_eq_zero]
    have same : List.Forall₂ Eq (Utf8.encode given.toList) (Utf8.encode given.toList) := by
      rw [List.forall₂_eq_eq_eq]
    rw [List.forall₂_iff_zip] at same
    exact ⟨rfl, fun pair member => same.2 member⟩

theorem findTicket_eq (store : AuthStore) (moment : Moment) (ticket : String) :
    store.findTicket moment ticket = store.tickets.get? ticket := by
  rw [findTicket, ← moment.ticketWalk.find?_entries]
  congr 1
  funext record
  rw [Bool.eq_iff_iff, secretMatches_iff, decide_eq_true_iff, eq_comm]

theorem findSession_eq (store : AuthStore) (moment : Moment) (token : String) :
    store.findSession moment token = store.sessions.get? token := by
  rw [findSession, ← moment.sessionWalk.find?_entries]
  congr 1
  funext session
  rw [Bool.eq_iff_iff, secretMatches_iff, decide_eq_true_iff, eq_comm]

end AuthStore
end Refyard.Auth
