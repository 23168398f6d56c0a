import Refyard.AuthSafety

/-! Who came to a grant since a state of the pairing store, and by which call. -/
namespace Refyard.Auth

def Grants.Reach (grants : Grants) (repositoryId allowedRootId : String) : Prop :=
  repositoryId ∈ grants.repositoryIds ∨ allowedRootId ∈ grants.allowedRootIds

instance (grants : Grants) (repositoryId allowedRootId : String) :
    Decidable (grants.Reach repositoryId allowedRootId) :=
  inferInstanceAs (Decidable (_ ∨ _))

theorem Grants.Reach.mono {grants other : Grants} {repositoryId allowedRootId : String}
    (h : grants.Reach repositoryId allowedRootId) (within : grants.Within other) :
    other.Reach repositoryId allowedRootId :=
  h.elim (fun named => .inl (within.2 named)) fun rooted => .inr (within.1 rooted)

theorem Grants.reach_add {grants : Grants} {root granted repositoryId allowedRootId : String}
    (h : (grants.add root granted).Reach repositoryId allowedRootId) :
    grants.Reach repositoryId allowedRootId ∨ granted = repositoryId ∨ root = allowedRootId := by
  cases h with
  | inl named =>
    cases mem_pushNew.mp named with
    | inl before => exact .inl (.inl before)
    | inr now => exact .inr (.inl now.symm)
  | inr rooted =>
    cases mem_pushNew.mp rooted with
    | inl before => exact .inl (.inr before)
    | inr now => exact .inr (.inr now.symm)

namespace AuthRun

structure HeldByNobody (run : AuthRun) (repositoryId allowedRootId : String) : Prop where
  sessions : ∀ token session, run.store.sessions.get? token = some session →
    ¬session.grants.Reach repositoryId allowedRootId
  tickets : ∀ ticket record, run.store.tickets.get? ticket = some record →
    ¬record.grants.Reach repositoryId allowedRootId

/-- Since the base, a call granted the session the repository or the root, or the session was
made from a ticket that was minted since and that names one of them. -/
def GrantedSince (base run : AuthRun) (done : List (Moment × AuthCall)) (session : Session)
    (repositoryId allowedRootId : String) : Prop :=
  (∃ moment root granted, (moment, .grant session.sessionId root granted) ∈ done ∧
      (granted = repositoryId ∨ root = allowedRootId)) ∨
    ∃ exchange ∈ run.exchanged.drop base.exchanged.length, MadeBy session exchange ∧
      base.minted.length ≤ exchange.place ∧ ∃ record, run.minted[exchange.place]? = some record ∧
        record.grants.Reach repositoryId allowedRootId

structure Since (base run : AuthRun) (done : List (Moment × AuthCall))
    (repositoryId allowedRootId : String) : Prop where
  sessions : ∀ token session, run.store.sessions.get? token = some session →
    session.grants.Reach repositoryId allowedRootId →
      GrantedSince base run done session repositoryId allowedRootId
  tickets : ∀ ticket record, run.store.tickets.get? ticket = some record →
    record.grants.Reach repositoryId allowedRootId →
      ∃ place, run.placed ticket = some place ∧ base.minted.length ≤ place
  grown : Grows base run

section
variable {base run next : AuthRun} {done more : List (Moment × AuthCall)} {session : Session}
  {repositoryId allowedRootId : String}

theorem GrantedSince.mono (h : GrantedSince base run done session repositoryId allowedRootId)
    (grows : Grows run next) :
    GrantedSince base next (done ++ more) session repositoryId allowedRootId := by
  obtain ⟨moment, root, granted, member, names⟩ | ⟨exchange, member, made, later, record, minted, names⟩ := h
  · exact .inl ⟨moment, root, granted, List.mem_append_left _ member, names⟩
  · refine .inr ⟨exchange, ?_, made, later, record, getElem?_of_prefix grows.1 minted, names⟩
    obtain ⟨rest, whole⟩ := grows.2
    rw [← whole, List.drop_append]
    exact List.mem_append_left _ member

theorem GrantedSince.same {old : Session}
    (h : GrantedSince base run done old repositoryId allowedRootId)
    (same : session = { old with grants := session.grants }) :
    GrantedSince base run done session repositoryId allowedRootId := by
  obtain ⟨moment, root, granted, member, names⟩ | ⟨exchange, member, made, ticket⟩ := h
  · refine .inl ⟨moment, root, granted, ?_, names⟩
    rw [same]
    exact member
  · refine .inr ⟨exchange, member, ?_, ticket⟩
    unfold MadeBy at made ⊢
    rw [same, made]

theorem Grows.trans {first second third : AuthRun} (left : Grows first second)
    (right : Grows second third) : Grows first third :=
  ⟨left.1.trans right.1, left.2.trans right.2⟩

/-- A call lets a session reach further only by granting it something or by making it from a
ticket. -/
theorem Since.step (since : Since base run done repositoryId allowedRootId) (h : run.Sound)
    (input : Moment × AuthCall) :
    Since base (pairing.next run input) (done ++ [input]) repositoryId allowedRootId := by
  have grows := grows_step run input
  constructor
  · intro token session held reach
    obtain ⟨old, before, same, within⟩ | ⟨old, root, granted, before, call, same⟩ |
      ⟨ticket, record, exchange, pending, placed, minted, added, made, grants⟩ :=
        h.session_cases input held
    · have first := since.sessions token old before (reach.mono within)
      exact (first.mono grows).same same
    · rw [same] at reach
      obtain earlier | names := Grants.reach_add reach
      · have first := since.sessions token old before earlier
        exact (first.mono grows).same (by rw [same])
      · refine .inl ⟨input.1, root, granted, ?_, names⟩
        rw [List.mem_append, List.mem_singleton, same, ← call]
        exact .inr rfl
    · obtain ⟨place, held, later⟩ := since.tickets ticket record pending (grants ▸ reach)
      rw [placed, Option.some_inj] at held
      refine .inr ⟨exchange, ?_, by unfold MadeBy; rw [made], held ▸ later, record,
        getElem?_of_prefix grows.1 minted, grants ▸ reach⟩
      rw [added, List.drop_append_of_le_length since.grown.2.length_le]
      exact List.mem_append_right _ (List.mem_singleton_self _)
  · intro ticket record held reach
    obtain ⟨before, placed⟩ | ⟨-, placed⟩ := run.ticket_cases input held
    · rw [placed]
      exact since.tickets ticket record before reach
    · exact ⟨_, placed, since.grown.1.length_le⟩
  · exact since.grown.trans grows

/-- Where nobody holds them, all that come to reach the repository or the root do so by a
grant or a ticket of the run. -/
theorem Since.after (since : Since base run done repositoryId allowedRootId) (h : run.Sound)
    (later : List (Moment × AuthCall)) :
    Since base (pairing.after run later) (done ++ later) repositoryId allowedRootId := by
  induction later generalizing run done with
  | nil => rwa [List.append_nil]
  | cons input rest ih =>
    have whole := ih (since.step h input) (h.step input)
    rwa [List.append_assoc] at whole

theorem HeldByNobody.since (h : base.HeldByNobody repositoryId allowedRootId) :
    Since base base [] repositoryId allowedRootId where
  sessions := fun token session held reach => absurd reach (h.sessions token session held)
  tickets := fun ticket record held reach => absurd reach (h.tickets ticket record held)
  grown := ⟨List.prefix_refl _, List.prefix_refl _⟩

end

/-- Every repository that a session or a pending ticket names has the property. -/
structure OnlyNames (P : String → Prop) (run : AuthRun) : Prop where
  sessions : ∀ token session, run.store.sessions.get? token = some session →
    ∀ id ∈ session.grants.repositoryIds, P id
  tickets : ∀ ticket record, run.store.tickets.get? ticket = some record →
    ∀ id ∈ record.grants.repositoryIds, P id

variable {run : AuthRun}

theorem OnlyNames.step {P : String → Prop} (only : run.OnlyNames P) (h : run.Sound)
    (input : Moment × AuthCall) (names : ∀ id, input.2.names id = true → P id) :
    (pairing.next run input).OnlyNames P := by
  constructor
  · intro token session held id member
    obtain ⟨old, before, -, within⟩ | ⟨old, root, granted, before, call, same⟩ |
      ⟨ticket, record, exchange, pending, -, -, -, -, grants⟩ := h.session_cases input held
    · exact only.sessions token old before id (within.2 member)
    · rw [same] at member
      cases Grants.mem_pushNew.mp member with
      | inl earlier => exact only.sessions token old before id earlier
      | inr now =>
        apply names
        rw [call, now]
        exact decide_eq_true rfl
    · exact only.tickets ticket record pending id (grants ▸ member)
  · intro ticket record held id member
    obtain ⟨before, -⟩ | ⟨⟨origin, actor, call⟩, -⟩ := run.ticket_cases input held
    · exact only.tickets ticket record before id member
    · apply names
      rw [call]
      exact List.contains_iff_mem.mpr member

theorem OnlyNames.after {P : String → Prop} (only : run.OnlyNames P) (h : run.Sound)
    (later : List (Moment × AuthCall))
    (names : ∀ input ∈ later, ∀ id, input.2.names id = true → P id) :
    (pairing.after run later).OnlyNames P := by
  induction later generalizing run with
  | nil => exact only
  | cons input rest ih =>
    exact ih (only.step h input (names input List.mem_cons_self)) (h.step input)
      fun other member => names other (List.mem_cons_of_mem _ member)

theorem Sound.after (h : run.Sound) (later : List (Moment × AuthCall)) :
    (pairing.after run later).Sound :=
  pairing.invariant Sound (fun _ input held => held.step input) h later

end AuthRun
end Refyard.Auth
