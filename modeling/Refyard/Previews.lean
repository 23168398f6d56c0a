import Refyard.Foundation.Fallible
import Refyard.Foundation.Machine
import Refyard.Foundation.TableWalk
import Refyard.Writes.IndexKey

/-! Preview tokens: the proof that a request was built against the content it is about to
change. A token is bound to one fingerprint at one place, expires, and is spent once. -/
namespace Refyard.Previews

/-- `LIMITS.previewTokenTtlSeconds`, in milliseconds. -/
def previewTtlMs : Int := 300000

def previewMaxEntries : Nat := 10000

inductive ContentKind where
  | text
  | binary
  | unrepresentable
  deriving DecidableEq

inductive FileRead where
  | bytes (bytes : Bytes) (contentKind : ContentKind)
  | missing
  | directory
  | symlink
  | submodule
  | other
  | unrepresentable
  | oversize (sizeBytes : Option Nat)
  | failed (diagnostic : String)

def FileRead.fingerprintHex (sha256 : Bytes → Bytes) : FileRead → Option String
  | .bytes content _ => some (hexText (sha256 content))
  | _ => none

structure PreviewClaim where
  repositoryId : String
  worktreeId : String
  targetGeneration : String
  pathId : String
  fingerprintHex : Option String
  sizeBytes : Option Nat
  contentKind : ContentKind
  deriving DecidableEq

structure IssuedPreview where
  previewToken : String
  expiresAtMs : Int

structure PreviewCheck where
  previewToken : String
  repositoryId : String
  worktreeId : String
  targetGeneration : String
  pathId : String
  currentFingerprintHex : Option String

inductive PreviewRefusal where
  | unknownToken
  | expired
  | alreadyUsed
  | wrongPath
  | wrongWorktree
  | wrongRepository
  | staleGeneration
  | unreadable
  | staleContent

namespace PreviewRefusal

def message : PreviewRefusal → String
  | .unknownToken =>
      "this preview token was not issued by this host, or it has already been replaced; re-preview the paths before changing them"
  | .expired => "this preview token expired; re-preview the paths before changing them"
  | .alreadyUsed =>
      "this preview token has already been used; re-preview the paths before changing them"
  | .wrongPath => "this preview token was issued for a different path"
  | .wrongWorktree => "this preview token was issued for a different worktree"
  | .wrongRepository => "this preview token was issued for a different repository"
  | .staleGeneration => "this preview token was issued before the execution target was rebuilt"
  | .unreadable => "a selected path could no longer be read; re-preview it before changing it"
  | .staleContent =>
      "the file content changed since it was previewed; re-preview it before changing it"

def problem (refusal : PreviewRefusal) (pathId : Option String) : Problem :=
  let problem := Problem.new .stalePreview
    s!"{refusal.message}; re-preview the selected paths and confirm again"
  match pathId with
  | some pathId => problem.withDetail "pathId" (.text pathId)
  | none => problem

end PreviewRefusal

structure StoredPreview where
  token : String
  claim : PreviewClaim
  expiresAtMs : Int
  used : Bool
  deriving DecidableEq

structure PreviewStore where
  ttlMs : Int := previewTtlMs
  maxEntries : Nat := previewMaxEntries
  seed : Bytes
  next : Nat := 0
  entries : Table StoredPreview.token := .empty

/-- What an issue finds outside: the clock where it sets the expiry and where it prunes, and
the order in which the map is walked. -/
structure IssueMoment where
  nowMs : Int
  prunedAtMs : Int
  walk : Table.Walk StoredPreview.token

/-- `counter.to_be_bytes()`. -/
def bigEndian64 (counter : Nat) : Bytes :=
  [56, 48, 40, 32, 24, 16, 8, 0].map fun shift => UInt8.ofNat (counter / 2 ^ shift)

def mintInput (seed : Bytes) (counter : Nat) (claim : PreviewClaim) : Bytes :=
  seed ++ bigEndian64 counter ++ textBytes claim.repositoryId ++ 0 :: textBytes claim.worktreeId ++
    0 :: textBytes claim.targetGeneration ++ 0 :: textBytes claim.pathId ++
    0 :: textBytes (claim.fingerprintHex.getD "")

/-- `sha256` is the digest as its bytes. -/
def mint (sha256 : Bytes → Bytes) (seed : Bytes) (counter : Nat) (claim : PreviewClaim) : String :=
  "pt_" ++ hexText ((sha256 (mintInput seed counter claim)).take 16)

def drop (entries : Table StoredPreview.token) (expired : List StoredPreview) :
    Table StoredPreview.token :=
  expired.foldl (fun entries entry => entries.erase entry.token) entries

def spend (entries : Table StoredPreview.token) (token : String) : Table StoredPreview.token :=
  match entries.get? token with
  | some entry => entries.insert { entry with used := true }
  | none => entries

namespace PreviewStore

/-- Drops dead tokens, and then the oldest live ones if the cap is still exceeded. -/
def prune (store : PreviewStore) (moment : IssueMoment) : PreviewStore :=
  if store.entries.size ≤ store.maxEntries then store
  else
    let alive := store.entries.retain fun entry =>
      !entry.used && moment.prunedAtMs < entry.expiresAtMs
    if alive.size ≤ store.maxEntries then { store with entries := alive }
    else
      let live := (moment.walk.entries alive).mergeSort fun first second =>
        first.expiresAtMs ≤ second.expiresAtMs
      { store with entries := drop alive (live.take (alive.size - store.maxEntries)) }

def issue (sha256 : Bytes → Bytes) (store : PreviewStore) (moment : IssueMoment)
    (claim : PreviewClaim) : IssuedPreview × PreviewStore :=
  let token := mint sha256 store.seed (store.next + 1) claim
  let expiresAtMs := moment.nowMs + store.ttlMs
  let entry : StoredPreview := { token, claim, expiresAtMs, used := false }
  let filed := { store with next := store.next + 1, entries := store.entries.insert entry }
  ({ previewToken := token, expiresAtMs }, filed.prune moment)

def check (store : PreviewStore) (check : PreviewCheck) (nowMs : Int) : Except PreviewRefusal Unit :=
  match store.entries.get? check.previewToken with
  | none => .error .unknownToken
  | some entry =>
      if entry.used then .error .alreadyUsed
      else if entry.expiresAtMs ≤ nowMs then .error .expired
      else if entry.claim.repositoryId ≠ check.repositoryId then .error .wrongRepository
      else if entry.claim.worktreeId ≠ check.worktreeId then .error .wrongWorktree
      else if entry.claim.targetGeneration ≠ check.targetGeneration then .error .staleGeneration
      else if entry.claim.pathId ≠ check.pathId then .error .wrongPath
      else
        match check.currentFingerprintHex with
        | none => .error .unreadable
        | some current =>
            if entry.claim.fingerprintHex ≠ some current then .error .staleContent else .ok ()

def checkAll (store : PreviewStore) : List (PreviewCheck × Int) → Except PreviewRefusal Unit
  | [] => .ok ()
  | presented :: rest => do
      store.check presented.1 presented.2
      store.checkAll rest

def verify (store : PreviewStore) (checks : List (PreviewCheck × Int)) : Except PreviewRefusal Unit :=
  store.checkAll checks

def redeem (store : PreviewStore) (checks : List (PreviewCheck × Int)) :
    Except PreviewRefusal Unit × PreviewStore :=
  match store.checkAll checks with
  | .error refusal => (.error refusal, store)
  | .ok () =>
      (.ok (), { store with
        entries := (checks.map fun presented => presented.1.previewToken).foldl spend store.entries })

end PreviewStore

inductive PreviewCall where
  | issue (claim : PreviewClaim) (moment : IssueMoment)
  | verify (checks : List (PreviewCheck × Int))
  | redeem (checks : List (PreviewCheck × Int))

inductive PreviewAnswer where
  | issued (preview : IssuedPreview)
  | checked (answer : Except PreviewRefusal Unit)

/-- The store, with what it ever minted from, the tokens it issued and the batches it redeemed.
No answer depends on the three records. -/
structure PreviewRun where
  store : PreviewStore
  minted : List Bytes := []
  issued : List String := []
  redeemed : List (List String) := []

def tokensOf (checks : List (PreviewCheck × Int)) : List String :=
  checks.map fun presented => presented.1.previewToken

namespace PreviewRun

def previewing (sha256 : Bytes → Bytes) : Machine PreviewRun PreviewCall PreviewAnswer where
  step run call :=
    match call with
    | .issue claim moment =>
        let (preview, store) := run.store.issue sha256 moment claim
        ({ run with
            store
            minted := run.minted ++ [mintInput run.store.seed (run.store.next + 1) claim]
            issued := run.issued ++ [preview.previewToken] }, .issued preview)
    | .verify checks => (run, .checked (run.store.verify checks))
    | .redeem checks =>
        match run.store.redeem checks with
        | (.ok (), store) =>
            ({ run with store, redeemed := run.redeemed ++ [tokensOf checks] }, .checked (.ok ()))
        | (.error refusal, store) => ({ run with store }, .checked (.error refusal))

def SingleUse (run : PreviewRun) : Prop :=
  ∀ token, (run.redeemed.filter fun batch => token ∈ batch).length ≤ 1

end PreviewRun

/-- The token is held, unused and unexpired, and bound to this place and to the content that
is there now. -/
def PreviewStore.Redeemable (store : PreviewStore) (check : PreviewCheck) (nowMs : Int) : Prop :=
  ∃ entry fingerprint, store.entries.get? check.previewToken = some entry ∧ entry.used = false ∧
    nowMs < entry.expiresAtMs ∧ entry.claim.repositoryId = check.repositoryId ∧
    entry.claim.worktreeId = check.worktreeId ∧
    entry.claim.targetGeneration = check.targetGeneration ∧ entry.claim.pathId = check.pathId ∧
    entry.claim.fingerprintHex = some fingerprint ∧ check.currentFingerprintHex = some fingerprint

namespace PreviewRun

/-- What one call does to the tokens: a redeem succeeds exactly where all that is presented
can be redeemed, and spends it; nothing else that verifies changes a token. -/
def Exact (sha256 : Bytes → Bytes) (run : PreviewRun) : PreviewCall → Prop
  | .issue _ _ => True
  | .verify checks => ((previewing sha256).next run (.verify checks)).store = run.store
  | .redeem checks =>
      let redeemed := run.store.redeem checks
      ((previewing sha256).output run (.redeem checks) = .checked (.ok ()) ↔
          ∀ presented ∈ checks, run.store.Redeemable presented.1 presented.2) ∧
        (redeemed.1 = .ok () → ∀ token, redeemed.2.entries.get? token =
          (run.store.entries.get? token).map fun entry =>
            if token ∈ tokensOf checks then { entry with used := true } else entry) ∧
        (redeemed.1 ≠ .ok () → ((previewing sha256).next run (.redeem checks)).store = run.store)

/-- The digest does not collide: it gives two inputs of this process different first sixteen
bytes. The counter is 64 bits wide. -/
def DigestsApart (sha256 : Bytes → Bytes) (run : PreviewRun) : PreviewCall → Prop
  | .issue claim _ =>
      let input := mintInput run.store.seed (run.store.next + 1) claim
      run.store.next + 1 < 2 ^ 64 ∧ ∀ earlier ∈ run.minted,
        (sha256 earlier).take 16 = (sha256 input).take 16 → earlier = input
  | _ => True

instance (sha256 : Bytes → Bytes) (run : PreviewRun) (call : PreviewCall) :
    Decidable (run.DigestsApart sha256 call) :=
  match call with
  | .issue _ _ => inferInstanceAs (Decidable (_ ∧ _))
  | .verify _ | .redeem _ => isTrue trivial

/-- No token of this process had the same text. -/
def MintsFresh (sha256 : Bytes → Bytes) (run : PreviewRun) : PreviewCall → Prop
  | .issue claim _ => mint sha256 run.store.seed (run.store.next + 1) claim ∉ run.issued
  | _ => True

/-- Every token was minted with a counter that was drawn. -/
def Numbered (sha256 : Bytes → Bytes) (run : PreviewRun) : Prop :=
  ∀ token ∈ run.issued, ∃ counter claim, counter ≤ run.store.next ∧
    mintInput run.store.seed counter claim ∈ run.minted ∧
      token = mint sha256 run.store.seed counter claim

end PreviewRun

/-- What is minted with different counters is minted from different inputs. -/
theorem mintInput_counter {seed : Bytes} {first second : Nat} {claim other : PreviewClaim}
    (few : first < 2 ^ 64) (alsoFew : second < 2 ^ 64)
    (same : mintInput seed first claim = mintInput seed second other) : first = second := by
  simp only [mintInput, List.append_assoc, List.append_cancel_left_eq] at same
  have bytes := congrArg (List.map UInt8.toNat) (List.append_inj_left same rfl)
  simp only [bigEndian64, List.map_cons, List.map_nil, List.cons.injEq, UInt8.toNat_ofNat',
    and_true] at bytes
  simp only [Nat.reducePow, Nat.div_one] at bytes few alsoFew
  omega

variable (entries : Table StoredPreview.token)

theorem get?_spend (token other : String) :
    (spend entries token).get? other = (entries.get? other).map fun entry =>
        if other = token then { entry with used := true } else entry := by
  unfold spend
  cases held : entries.get? token with
  | none =>
    cases found : entries.get? other with
    | none => simp
    | some entry =>
      have differs : other ≠ token := by
        rintro rfl
        rw [held] at found
        cases found
      simp [differs]
  | some entry =>
    obtain rfl := Table.key_of_get? held
    rw [Table.get?_insert]
    by_cases same : other = entry.token
    · rw [same, if_pos rfl, held, Option.map_some, if_pos rfl]
    · rw [if_neg same]
      cases entries.get? other with
      | none => rfl
      | some entry => rw [Option.map_some, if_neg same]

theorem get?_foldl_spend (tokens : List String) (other : String) :
    (tokens.foldl spend entries).get? other = (entries.get? other).map fun entry =>
        if other ∈ tokens then { entry with used := true } else entry := by
  induction tokens generalizing entries with
  | nil => simp
  | cons token rest ih =>
    rw [List.foldl_cons, ih, get?_spend, Option.map_map]
    congr 1
    funext entry
    by_cases same : other = token
    · by_cases later : other ∈ rest <;> simp [same]
    · simp [same]

theorem get?_of_drop {entries : Table StoredPreview.token} {expired : List StoredPreview}
    {token : String} {entry : StoredPreview} (h : (drop entries expired).get? token = some entry) :
    entries.get? token = some entry := by
  induction expired generalizing entries with
  | nil => exact h
  | cons first rest ih =>
    have kept := ih h
    rw [Table.get?_erase] at kept
    split at kept
    · cases kept
    · exact kept

namespace PreviewStore

variable {store : PreviewStore}
variable {moment : IssueMoment} {token : String} {entry : StoredPreview}

theorem get?_of_prune (h : (store.prune moment).entries.get? token = some entry) :
    store.entries.get? token = some entry := by
  unfold prune at h
  dsimp only at h
  split at h
  · exact h
  · have kept : ∀ test : StoredPreview → Bool, (store.entries.retain test).get? token = some entry →
          store.entries.get? token = some entry := by
      intro test alive
      rw [Table.get?_retain, Option.filter_eq_some_iff] at alive
      exact alive.1
    split at h
    · exact kept _ h
    · exact kept _ (get?_of_drop h)

theorem get?_of_issue {sha256 : Bytes → Bytes} {claim : PreviewClaim}
    (h : (store.issue sha256 moment claim).2.entries.get? token = some entry) :
    store.entries.get? token = some entry ∨
      token = mint sha256 store.seed (store.next + 1) claim := by
  have filed := get?_of_prune h
  rw [Table.get?_insert] at filed
  split at filed
  · rename_i same
    exact .inr same
  · exact .inl filed

/-- While there is room, nothing is dropped for a token. -/
theorem issue_of_few {sha256 : Bytes → Bytes} {claim : PreviewClaim} (moment : IssueMoment)
    (minted : mint sha256 store.seed (store.next + 1) claim = token)
    (few : store.entries.size < store.maxEntries) :
    let entry : StoredPreview :=
      { token, claim, expiresAtMs := moment.nowMs + store.ttlMs, used := false }
    store.issue sha256 moment claim =
      ({ previewToken := token, expiresAtMs := moment.nowMs + store.ttlMs },
        { store with next := store.next + 1, entries := store.entries.insert entry }) := by
  intro entry
  have within : (store.entries.insert entry).size ≤ store.maxEntries := by
    rw [Table.size_insert_beside]
    have fewer := List.length_filter_le (fun other : StoredPreview => other.token ≠ token)
      store.entries.values
    rw [Table.length_values] at fewer
    exact Nat.le_trans (Nat.succ_le_succ fewer) few
  unfold issue
  rw [minted]
  exact congrArg (Prod.mk _) (if_pos within)

theorem check_ok {check : PreviewCheck} {nowMs : Int} :
    store.check check nowMs = .ok () ↔ store.Redeemable check nowMs := by
  unfold PreviewStore.check Redeemable
  cases held : store.entries.get? check.previewToken with
  | none => simp
  | some entry =>
    cases current : check.currentFingerprintHex with
    | none =>
      dsimp only
      constructor
      · intro accepted
        split_ifs at accepted
      · rintro ⟨other, fingerprint, -, -, -, -, -, -, -, -, read⟩
        cases read
    | some fingerprint =>
      dsimp only
      constructor
      · intro accepted
        split_ifs at accepted with used expired repository worktree generation path content
        refine ⟨entry, fingerprint, rfl, ?_, ?_, ?_, ?_, ?_, ?_, ?_, rfl⟩
        · exact Bool.eq_false_iff.mpr used
        · exact Int.not_le.mp expired
        · exact not_not.mp repository
        · exact not_not.mp worktree
        · exact not_not.mp generation
        · exact not_not.mp path
        · exact not_not.mp content
      · rintro ⟨other, _, same, unused, live, repository, worktree, generation, path, content, read⟩
        cases same
        cases read
        simp [unused, Int.not_le.mpr live, repository, worktree, generation, path, content]

theorem checkAll_ok {checks : List (PreviewCheck × Int)} : store.checkAll checks = .ok () ↔
      ∀ presented ∈ checks, store.Redeemable presented.1 presented.2 := by
  induction checks with
  | nil => simp [checkAll]
  | cons presented rest ih =>
    rw [checkAll, List.forall_mem_cons, ← ih, ← check_ok, bind_eq_ok]
    constructor
    · rintro ⟨_, first, later⟩
      exact ⟨first, later⟩
    · rintro ⟨first, later⟩
      exact ⟨(), first, later⟩

theorem redeem_cases (store : PreviewStore) (checks : List (PreviewCheck × Int)) :
    (∃ refusal, store.checkAll checks = .error refusal ∧
        store.redeem checks = (.error refusal, store)) ∨
      store.checkAll checks = .ok () ∧ store.redeem checks =
        (.ok (), { store with entries := (tokensOf checks).foldl spend store.entries }) := by
  unfold redeem
  cases checked : store.checkAll checks with
  | error refusal => exact .inl ⟨refusal, rfl, rfl⟩
  | ok _ => exact .inr ⟨rfl, rfl⟩

end PreviewStore

namespace PreviewRun
variable {sha256 : Bytes → Bytes} {run : PreviewRun}

theorem exact (sha256 : Bytes → Bytes) (run : PreviewRun) (call : PreviewCall) :
    run.Exact sha256 call := by
  cases call with
  | issue claim moment => trivial
  | verify checks => rfl
  | redeem checks =>
    obtain ⟨refusal, refused, answered⟩ | ⟨accepted, answered⟩ := run.store.redeem_cases checks
    · refine ⟨?_, ?_, ?_⟩
      · rw [← PreviewStore.checkAll_ok, refused]
        simp [Machine.output, previewing, answered]
      · rw [answered]
        intro succeeded
        cases succeeded
      · intro _
        simp [Machine.next, previewing, answered]
    · refine ⟨?_, ?_, ?_⟩
      · rw [← PreviewStore.checkAll_ok, accepted]
        simp [Machine.output, previewing, answered]
      · rw [answered]
        intro _ token
        exact get?_foldl_spend _ _ token
      · rw [answered]
        intro failed
        exact absurd rfl failed

theorem Numbered.fresh (h : run.Numbered sha256) {call : PreviewCall}
    (apart : run.DigestsApart sha256 call) : run.MintsFresh sha256 call := by
  cases call with
  | issue claim moment =>
    intro member
    obtain ⟨counter, other, drawn, minted, same⟩ := h _ member
    have digests := IndexKey.hexText_inj.mp ((String.append_right_inj "pt_").mp same)
    have inputs := apart.2 _ minted digests.symm
    have counters := mintInput_counter (Nat.lt_of_le_of_lt drawn (Nat.lt_of_succ_lt apart.1))
      apart.1 inputs
    omega
  | _ => trivial

theorem Numbered.step (h : run.Numbered sha256) (call : PreviewCall) :
    ((previewing sha256).next run call).Numbered sha256 := by
  cases call with
  | issue claim moment =>
    have drawn : (run.store.issue sha256 moment claim).2.next = run.store.next + 1 ∧
        (run.store.issue sha256 moment claim).2.seed = run.store.seed := by
      unfold PreviewStore.issue PreviewStore.prune
      dsimp only
      repeat' split
      all_goals exact ⟨rfl, rfl⟩
    intro token member
    dsimp only [Machine.next, previewing]
    rw [drawn.1, drawn.2]
    obtain before | new := List.mem_append.mp member
    · obtain ⟨counter, other, drawn, minted, same⟩ := h token before
      exact ⟨counter, other, Nat.le_succ_of_le drawn, List.mem_append_left _ minted, same⟩
    · exact ⟨_, claim, Nat.le_refl _, List.mem_append_right _ (List.mem_singleton_self _),
        List.mem_singleton.mp new⟩
  | verify checks => exact h
  | redeem checks =>
    obtain ⟨refusal, -, answered⟩ | ⟨-, answered⟩ := run.store.redeem_cases checks
    all_goals
      simp only [Machine.next, previewing, answered]
      exact h

theorem meets_mintsFresh {store : PreviewStore} {calls : List PreviewCall}
    (apart : (previewing sha256).Meets (DigestsApart sha256) { store } calls) :
    (previewing sha256).Meets (MintsFresh sha256) { store } calls :=
  (previewing sha256).meets_of_step (Numbered sha256) (fun _ call held _ => held.step call)
    (fun _ _ held apart => held.fresh apart) (List.forall_mem_nil _) apart

/-- What was spent is not held, or is held as used, and no token is held that was not
issued. -/
structure Sound (run : PreviewRun) : Prop where
  held : ∀ token entry, run.store.entries.get? token = some entry → token ∈ run.issued
  spent : ∀ batch ∈ run.redeemed, ∀ token ∈ batch, token ∈ run.issued ∧
    ∀ entry, run.store.entries.get? token = some entry → entry.used = true
  once : run.SingleUse

theorem sound_start (ttlMs : Int) (maxEntries : Nat) (seed : Bytes) :
    Sound { store := { ttlMs, maxEntries, seed } } :=
  ⟨by simp, by simp, fun token => by simp⟩

theorem Sound.issue (h : run.Sound) {claim : PreviewClaim} {moment : IssueMoment}
    (fresh : run.MintsFresh sha256 (.issue claim moment)) :
    ((previewing sha256).next run (.issue claim moment)).Sound := by
  constructor
  · intro token entry found
    cases PreviewStore.get?_of_issue found with
    | inl before => exact List.mem_append_left _ (h.held token entry before)
    | inr minted =>
      rw [minted]
      exact List.mem_append_right _ (List.mem_singleton_self _)
  · intro batch member token presented
    obtain ⟨issued, used⟩ := h.spent batch member token presented
    refine ⟨List.mem_append_left _ issued, ?_⟩
    intro entry found
    cases PreviewStore.get?_of_issue found with
    | inl before => exact used entry before
    | inr minted => exact absurd (minted ▸ issued) fresh
  · exact h.once

theorem Sound.redeem (h : run.Sound) (checks : List (PreviewCheck × Int)) :
    ((previewing sha256).next run (.redeem checks)).Sound := by
  obtain ⟨refusal, -, answered⟩ | ⟨accepted, answered⟩ := run.store.redeem_cases checks
  · simpa [Machine.next, previewing, answered] using h
  · have redeemable := PreviewStore.checkAll_ok.mp accepted
    have presented : ∀ token ∈ tokensOf checks, ∃ entry,
        run.store.entries.get? token = some entry ∧ entry.used = false := by
      intro token member
      obtain ⟨check, listed, rfl⟩ := List.mem_map.mp member
      obtain ⟨entry, _, held, unused, -⟩ := redeemable check listed
      exact ⟨entry, held, unused⟩
    simp only [Machine.next, previewing, answered]
    constructor
    · intro token entry found
      rw [get?_foldl_spend, Option.map_eq_some_iff] at found
      obtain ⟨before, held, -⟩ := found
      exact h.held token before held
    · intro batch member token inside
      have spends : token ∈ tokensOf checks ∨ ∃ earlier ∈ run.redeemed, token ∈ earlier := by
        cases List.mem_append.mp member with
        | inl earlier => exact .inr ⟨batch, earlier, inside⟩
        | inr last => exact .inl (List.mem_singleton.mp last ▸ inside)
      have issued : token ∈ run.issued := by
        cases spends with
        | inl now =>
          obtain ⟨entry, held, -⟩ := presented token now
          exact h.held token entry held
        | inr before =>
          obtain ⟨earlier, listed, inside⟩ := before
          exact (h.spent earlier listed token inside).1
      refine ⟨issued, ?_⟩
      intro entry found
      rw [get?_foldl_spend, Option.map_eq_some_iff] at found
      obtain ⟨before, held, rfl⟩ := found
      split
      · rfl
      · rename_i kept
        obtain ⟨earlier, listed, inside⟩ := spends.resolve_left kept
        exact (h.spent earlier listed token inside).2 before held
    · intro token
      rw [List.filter_append, List.length_append]
      by_cases now : token ∈ tokensOf checks
      · have none : run.redeemed.filter (fun batch => token ∈ batch) = [] := by
          rw [List.filter_eq_nil_iff]
          intro batch listed inside
          obtain ⟨entry, held, unused⟩ := presented token now
          have used := (h.spent batch listed token (of_decide_eq_true inside)).2 entry held
          rw [used] at unused
          cases unused
        rw [none]
        exact (Nat.zero_add _).le.trans (List.length_filter_le _ _)
      · have none : [tokensOf checks].filter (fun batch => token ∈ batch) = [] := by
          simp [now]
        rw [none]
        exact h.once token

theorem Sound.step (h : run.Sound) {call : PreviewCall} (fresh : run.MintsFresh sha256 call) :
    ((previewing sha256).next run call).Sound := by
  cases call with
  | issue claim moment => exact h.issue fresh
  | verify checks => exact h
  | redeem checks => exact h.redeem checks

/-- Whatever is issued, verified and redeemed at whatever readings of the clock: each token is
spent once, a redeem succeeds exactly where all it presents can be redeemed, and what is
refused or only verified changes no token. -/
theorem tokens_single_use {sha256 : Bytes → Bytes} {ttlMs : Int} {maxEntries : Nat} {seed : Bytes}
    {calls : List PreviewCall}
    (apart : (previewing sha256).Meets (DigestsApart sha256)
      { store := { ttlMs, maxEntries, seed } } calls) :
    let start : PreviewRun := { store := { ttlMs, maxEntries, seed } }
    ((previewing sha256).after start calls).SingleUse ∧
      (previewing sha256).Meets (Exact sha256) start calls := by
  intro start
  constructor
  · have sound := (previewing sha256).invariant_of_step Sound (fun _ _ held new => held.step new)
      (sound_start ttlMs maxEntries seed) (meets_mintsFresh apart)
    exact sound.once
  · exact (previewing sha256).meets_of_step (fun _ => True) (fun _ _ _ _ => trivial)
      (fun run call _ _ => exact sha256 run call) trivial apart

def sampleSeed : Bytes := List.replicate 32 7

def sampleClaim : PreviewClaim where
  repositoryId := "repo_1"
  worktreeId := "wt_1"
  targetGeneration := "gen_1"
  pathId := "path_1"
  fingerprintHex := some "aa"
  sizeBytes := some 2
  contentKind := .text

/-- SHA-256 of what the first two tokens of the sample claim are minted from. -/
def sampleDigest (input : Bytes) : Bytes :=
  if input = mintInput sampleSeed 1 sampleClaim then
    [104, 27, 202, 234, 87, 160, 55, 139, 180, 16, 249, 188, 131, 49, 125, 58, 58, 206, 31, 76, 133,
      84, 84, 217, 234, 104, 181, 33, 184, 204, 173, 190]
  else if input = mintInput sampleSeed 2 sampleClaim then
    [172, 32, 209, 237, 44, 91, 136, 224, 142, 136, 117, 69, 94, 203, 149, 46, 154, 22, 11, 230, 84,
      30, 39, 219, 248, 229, 71, 172, 92, 251, 54, 102]
  else []

def sampleCheck (token fingerprint : String) : PreviewCheck × Int :=
  ({ previewToken := token
     repositoryId := "repo_1"
     worktreeId := "wt_1"
     targetGeneration := "gen_1"
     pathId := "path_1"
     currentFingerprintHex := some fingerprint }, 5)

/-- Two tokens for one claim; a batch with stale content, the whole batch, and one again. -/
def sampleCalls : List PreviewCall :=
  let moment : IssueMoment := { nowMs := 0, prunedAtMs := 0, walk := .byKey }
  let first := "pt_681bcaea57a0378bb410f9bc83317d3a"
  let second := "pt_ac20d1ed2c5b88e08e8875455ecb952e"
  [.issue sampleClaim moment, .issue sampleClaim moment,
    .redeem [sampleCheck first "aa", sampleCheck second "bb"],
    .redeem [sampleCheck first "aa", sampleCheck second "aa"], .redeem [sampleCheck first "aa"]]

theorem tokens_single_use_two_tokens :
    let start : PreviewRun :=
      { store := { ttlMs := 300000, maxEntries := 10000, seed := sampleSeed } }
    ((previewing sampleDigest).after start sampleCalls).redeemed.length = 1 ∧
      ((previewing sampleDigest).after start sampleCalls).SingleUse ∧
      (previewing sampleDigest).Meets (Exact sampleDigest) start sampleCalls :=
  ⟨by decide +kernel, tokens_single_use (by decide +kernel)⟩

end PreviewRun
end Refyard.Previews
