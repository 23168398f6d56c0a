import Refyard.Previews

/-! Which token goes when there are too many. The order is taken from when they expire, which a
millisecond does not tell apart. -/
namespace Refyard.Previews

def PreviewCall.readings : PreviewCall → List Int
  | .issue _ moment => [moment.nowMs, moment.prunedAtMs]
  | .verify checks | .redeem checks => checks.map Prod.snd

def StoredPreview.Live (entry : StoredPreview) (nowMs : Int) : Prop :=
  entry.used = false ∧ nowMs < entry.expiresAtMs

instance (entry : StoredPreview) (nowMs : Int) : Decidable (entry.Live nowMs) :=
  inferInstanceAs (Decidable (_ ∧ _))

def PreviewStore.minted (sha256 : Bytes → Bytes) (store : PreviewStore) (claim : PreviewClaim)
    (nowMs : Int) : StoredPreview where
  token := mint sha256 store.seed (store.next + 1) claim
  claim := claim
  expiresAtMs := nowMs + store.ttlMs
  used := false

def PreviewStore.filed (sha256 : Bytes → Bytes) (store : PreviewStore) (claim : PreviewClaim)
    (nowMs : Int) : Table StoredPreview.token :=
  store.entries.insert (store.minted sha256 claim nowMs)

namespace PreviewRun

/-- The place of a token in the order of issue. A new one is behind all others. -/
def place (run : PreviewRun) (entry : StoredPreview) : Nat := run.issued.idxOf entry.token

/-- What a call may do to the tokens. The store stays within its bound. An issue keeps the token
that it issues; it drops a live one only where no dead one is left and all that are left were
issued later. No other call drops a token. -/
def PrunesFairly (sha256 : Bytes → Bytes) (run : PreviewRun) (call : PreviewCall) : Prop :=
  let after := ((previewing sha256).next run call).store
  after.entries.size ≤ after.maxEntries ∧ match call with
    | .issue claim moment =>
        (after.entries.get? (run.store.minted sha256 claim moment.nowMs).token).isSome = true ∧
        ∀ gone, (run.store.filed sha256 claim moment.nowMs).get? gone.token = some gone →
          after.entries.get? gone.token = none → gone.Live moment.prunedAtMs →
          ∀ kept, after.entries.get? kept.token = some kept →
            kept.Live moment.prunedAtMs ∧ run.place gone < run.place kept
    | .verify _ | .redeem _ =>
        ∀ token, after.entries.get? token = none → run.store.entries.get? token = none

/-- Where a token is issued into a full store, it is not expired when the store is pruned; and
where all others are live too, the walk of the map meets the first that was issued before any
other that expires in the same millisecond. -/
def MeetsOldestFirst (sha256 : Bytes → Bytes) (run : PreviewRun) : PreviewCall → Prop
  | .issue claim moment =>
      let minted := run.store.minted sha256 claim moment.nowMs
      let walked := moment.walk.entries (run.store.filed sha256 claim moment.nowMs)
      run.store.maxEntries ≤ run.store.entries.size → minted.Live moment.prunedAtMs ∧
          ((∀ entry ∈ walked, entry.Live moment.prunedAtMs) →
            ∀ oldest ∈ Table.first (fun entry => (run.place entry : Int)) walked,
              ∀ other ∈ walked.takeWhile fun entry => entry.token ≠ oldest.token,
                oldest.expiresAtMs < other.expiresAtMs)
  | .verify _ | .redeem _ => True

/-- Later tokens expire no earlier, and none after a token that is issued now. -/
structure Ordered (nowMs : Int) (run : PreviewRun) : Prop where
  bounded : run.store.entries.size ≤ run.store.maxEntries
  held : ∀ token entry, run.store.entries.get? token = some entry → token ∈ run.issued
  soon : ∀ token entry, run.store.entries.get? token = some entry →
    entry.expiresAtMs ≤ nowMs + run.store.ttlMs
  expiring : ∀ earlier later, run.store.entries.get? earlier.token = some earlier →
    run.store.entries.get? later.token = some later → run.place earlier < run.place later →
    earlier.expiresAtMs ≤ later.expiresAtMs

section
variable {sha256 : Bytes → Bytes} {run : PreviewRun} {nowMs : Int} {claim : PreviewClaim}
  {moment : IssueMoment}

theorem get?_filed {token : String} {entry : StoredPreview}
    (held : (run.store.filed sha256 claim nowMs).get? token = some entry) :
    entry = run.store.minted sha256 claim nowMs ∨ run.store.entries.get? token = some entry := by
  rw [PreviewStore.filed, Table.get?_insert] at held
  split at held
  · exact .inl (Option.some.inj held).symm
  · exact .inr held

theorem Ordered.filed (h : run.Ordered nowMs)
    (fresh : run.MintsFresh sha256 (.issue claim moment)) (passed : nowMs ≤ moment.nowMs)
    {earlier later : StoredPreview}
    (first : (run.store.filed sha256 claim moment.nowMs).get? earlier.token = some earlier)
    (second : (run.store.filed sha256 claim moment.nowMs).get? later.token = some later)
    (before : run.place earlier < run.place later) : earlier.expiresAtMs ≤ later.expiresAtMs := by
  obtain rfl | heldFirst := get?_filed first
  · -- nothing is behind the new token
    have last : run.place (run.store.minted sha256 claim moment.nowMs) = run.issued.length :=
      List.idxOf_eq_length fresh
    have within : run.place later ≤ run.issued.length := List.idxOf_le_length
    omega
  · obtain rfl | heldSecond := get?_filed second
    · exact Int.le_trans (h.soon _ _ heldFirst) (Int.add_le_add_right passed _)
    · exact h.expiring earlier later heldFirst heldSecond before

theorem Ordered.place_inj (h : run.Ordered nowMs)
    (fresh : run.MintsFresh sha256 (.issue claim moment)) {left right : StoredPreview}
    (first : (run.store.filed sha256 claim moment.nowMs).get? left.token = some left)
    (second : (run.store.filed sha256 claim moment.nowMs).get? right.token = some right)
    (same : run.place left = run.place right) : left = right := by
  have last : run.place (run.store.minted sha256 claim moment.nowMs) = run.issued.length :=
    List.idxOf_eq_length fresh
  have within : ∀ entry : StoredPreview, run.store.entries.get? entry.token = some entry →
      run.place entry < run.issued.length := fun entry held =>
    List.idxOf_lt_length_of_mem (h.held _ _ held)
  obtain rfl | heldLeft := get?_filed first
  · obtain rfl | heldRight := get?_filed second
    · rfl
    · have behind := within right heldRight
      omega
  · obtain rfl | heldRight := get?_filed second
    · have behind := within left heldLeft
      omega
    · have token : left.token = right.token :=
        (List.idxOf_inj (h.held _ _ heldLeft)).mp same
      rw [token] at heldLeft
      exact Option.some.inj (heldLeft.symm.trans heldRight)

theorem Ordered.size_filed (h : run.Ordered nowMs)
    (fresh : run.MintsFresh sha256 (.issue claim moment)) :
    (run.store.filed sha256 claim moment.nowMs).size = run.store.entries.size + 1 := by
  apply Table.size_insert
  cases held : run.store.entries.get? (run.store.minted sha256 claim moment.nowMs).token with
  | none => rfl
  | some entry => exact absurd (h.held _ entry held) fresh

theorem live_iff {entry : StoredPreview} :
    (!entry.used && decide (nowMs < entry.expiresAtMs)) = true ↔ entry.Live nowMs := by
  unfold StoredPreview.Live
  rw [Bool.and_eq_true, Bool.not_eq_true', decide_eq_true_iff]

theorem walked_nodup (walk : Table.Walk StoredPreview.token) (table : Table StoredPreview.token) :
    (walk.entries table).Nodup :=
  (walk.perm table).nodup_iff.mpr table.values_nodup

/-- A store with one token too many is pruned of what is dead; if nothing is, of the one token
that comes first when all are put in the order they expire in. -/
theorem prune_cases {store : PreviewStore} (full : store.entries.size = store.maxEntries + 1)
    (moment : IssueMoment) :
    let alive := store.entries.retain fun entry =>
      !entry.used && moment.prunedAtMs < entry.expiresAtMs
    (alive.size ≤ store.maxEntries ∧ store.prune moment = { store with entries := alive }) ∨
      (∀ token entry, store.entries.get? token = some entry → entry.Live moment.prunedAtMs) ∧
      ∃ victim, Table.first StoredPreview.expiresAtMs (moment.walk.entries store.entries) =
          some victim ∧
        store.prune moment = { store with entries := store.entries.erase victim.token } := by
  intro alive
  have many : ¬store.entries.size ≤ store.maxEntries := by omega
  by_cases few : alive.size ≤ store.maxEntries
  · refine .inl ⟨few, ?_⟩
    unfold PreviewStore.prune
    rw [if_neg many]
    exact if_pos few
  · have fits : store.entries.size ≤ alive.size := by omega
    have passes : ∀ token entry, store.entries.get? token = some entry →
        (!entry.used && decide (moment.prunedAtMs < entry.expiresAtMs)) = true :=
      fun token entry held => Table.passes_of_size fits held
    have whole : alive = store.entries := Table.retain_eq_self passes
    refine .inr ⟨fun token entry held => live_iff.mp (passes token entry held), ?_⟩
    have sorted : ((moment.walk.entries store.entries).mergeSort fun first second =>
          first.expiresAtMs ≤ second.expiresAtMs).head? =
        Table.first StoredPreview.expiresAtMs (moment.walk.entries store.entries) :=
      Table.head?_mergeSort (walked_nodup moment.walk store.entries)
    cases found : Table.first StoredPreview.expiresAtMs (moment.walk.entries store.entries) with
    | none =>
      rw [Table.first_eq_none, ← List.length_eq_zero_iff, moment.walk.length_entries] at found
      omega
    | some victim =>
      refine ⟨victim, rfl, ?_⟩
      rw [found, List.head?_eq_some_iff] at sorted
      obtain ⟨rest, sorted⟩ := sorted
      unfold PreviewStore.prune
      rw [if_neg many]
      rw [if_neg few]
      change { store with entries := drop alive (List.take (alive.size - store.maxEntries)
        ((moment.walk.entries alive).mergeSort fun first second =>
          first.expiresAtMs ≤ second.expiresAtMs)) } = _
      have one : alive.size - store.maxEntries = 1 := by
        rw [whole]
        omega
      rw [one, whole, sorted]
      rfl

variable {oldest : StoredPreview}

theorem front_of_split {walked front back : List StoredPreview}
    (distinct : (walked.map StoredPreview.token).Nodup) (split : walked = front ++ oldest :: back) :
    walked.takeWhile (fun entry => entry.token ≠ oldest.token) = front := by
  have others : ∀ entry ∈ front, decide (entry.token ≠ oldest.token) = true := by
    intro entry member
    rw [split, List.map_append, List.nodup_append] at distinct
    have apart := distinct.2.2 entry.token (List.mem_map_of_mem member) oldest.token
      (List.mem_map_of_mem List.mem_cons_self)
    exact decide_eq_true apart
  rw [split, List.takeWhile_append_of_pos others, List.takeWhile_cons_of_neg (by simp),
    List.append_nil]

/-- A token that no other precedes in expiry comes first exactly if those met before it expire
later. -/
theorem first_expiring_iff {walked : List StoredPreview}
    (distinct : (walked.map StoredPreview.token).Nodup) (member : oldest ∈ walked)
    (least : ∀ other ∈ walked, oldest.expiresAtMs ≤ other.expiresAtMs) :
    Table.first StoredPreview.expiresAtMs walked = some oldest ↔
      ∀ other ∈ walked.takeWhile fun entry => entry.token ≠ oldest.token,
        oldest.expiresAtMs < other.expiresAtMs := by
  constructor
  · intro found
    obtain ⟨front, back, split, before, -⟩ := Table.first_eq_some.mp found
    rwa [front_of_split distinct split]
  · intro before
    obtain ⟨front, back, split, -⟩ := List.eq_append_cons_of_mem member
    rw [front_of_split distinct split] at before
    refine Table.first_eq_some.mpr ⟨front, back, split, before, fun other inside => ?_⟩
    exact least other (split ▸ List.mem_append_right _ (List.mem_cons_of_mem _ inside))

theorem fair_of_dead {filed : Table StoredPreview.token} {minted : StoredPreview}
    (new : filed.get? minted.token = some minted) :
    let alive := filed.retain fun entry => !entry.used && nowMs < entry.expiresAtMs
    ((alive.get? minted.token).isSome = true ↔ minted.Live nowMs) ∧
      ∀ gone, filed.get? gone.token = some gone → alive.get? gone.token = none →
        ¬gone.Live nowMs := by
  intro alive
  constructor
  · rw [Table.get?_retain, new, ← live_iff]
    cases live : !minted.used && decide (nowMs < minted.expiresAtMs) <;> simp [live]
  · intro gone held absent live
    rw [Table.get?_retain, held, Option.filter_some, if_pos (live_iff.mpr live)] at absent
    cases absent

theorem fair_of_live {filed : Table StoredPreview.token} {minted victim : StoredPreview}
    {place : StoredPreview → Nat} (new : filed.get? minted.token = some minted)
    (live : ∀ token entry, filed.get? token = some entry → entry.Live nowMs)
    (dropped : filed.get? victim.token = some victim)
    (first : filed.get? oldest.token = some oldest) (behind : place oldest < place minted)
    (before : ∀ other, filed.get? other.token = some other → other ≠ oldest →
      place oldest < place other) : (((filed.erase victim.token).get? minted.token).isSome = true ∧
      ∀ gone, filed.get? gone.token = some gone →
        (filed.erase victim.token).get? gone.token = none → gone.Live nowMs →
        ∀ kept, (filed.erase victim.token).get? kept.token = some kept →
          kept.Live nowMs ∧ place gone < place kept) ↔ victim = oldest := by
  have held_of_kept : ∀ kept, (filed.erase victim.token).get? kept.token = some kept →
      filed.get? kept.token = some kept ∧ kept ≠ victim := by
    intro kept stays
    rw [Table.get?_erase] at stays
    split at stays
    · cases stays
    · rename_i differs
      exact ⟨stays, fun same => differs (congrArg _ same)⟩
  constructor
  · rintro ⟨-, fair⟩
    by_contra differs
    have gone : (filed.erase victim.token).get? victim.token = none := Table.get?_erase_self _ _
    have other : oldest.token ≠ victim.token := by
      intro same
      rw [same, dropped] at first
      exact differs (Option.some.inj first)
    have stays : (filed.erase victim.token).get? oldest.token = some oldest := by
      rw [Table.get?_erase, if_neg other, first]
    have later := (fair victim dropped gone (live _ _ dropped) oldest stays).2
    have earlier := before victim dropped differs
    omega
  · rintro rfl
    constructor
    · have differs : minted.token ≠ victim.token := by
        intro same
        rw [same, dropped] at new
        cases Option.some.inj new
        omega
      rw [Table.get?_erase, if_neg differs, new]
      rfl
    · intro gone held absent _ kept stays
      obtain ⟨inside, other⟩ := held_of_kept kept stays
      have same : gone = victim := by
        rw [Table.get?_erase] at absent
        split at absent
        · rename_i token
          rw [token, dropped] at held
          exact (Option.some.inj held).symm
        · rw [held] at absent
          cases absent
      exact ⟨live _ _ inside, same ▸ before kept inside other⟩

theorem Ordered.exists_oldest (h : run.Ordered nowMs) (positive : 1 ≤ run.store.entries.size)
    (fresh : run.MintsFresh sha256 (.issue claim moment)) :
    let filed := run.store.filed sha256 claim moment.nowMs
    let walked := moment.walk.entries filed
    ∃ oldest, Table.first (fun entry => (run.place entry : Int)) walked = some oldest ∧
      filed.get? oldest.token = some oldest ∧
      run.place oldest < run.place (run.store.minted sha256 claim moment.nowMs) ∧
      ∀ other, filed.get? other.token = some other → other ≠ oldest →
        run.place oldest < run.place other := by
  intro filed walked
  have last : run.place (run.store.minted sha256 claim moment.nowMs) = run.issued.length :=
    List.idxOf_eq_length fresh
  cases found : Table.first (fun entry => (run.place entry : Int)) walked with
  | none =>
    rw [Table.first_eq_none, ← List.length_eq_zero_iff, moment.walk.length_entries,
      h.size_filed fresh] at found
    omega
  | some oldest =>
    have held := moment.walk.mem_entries.mp (Table.mem_of_first found)
    have least : ∀ other, filed.get? other.token = some other →
        run.place oldest ≤ run.place other := by
      intro other inside
      have bound := Table.first_le found (moment.walk.mem_entries.mpr inside)
      omega
    refine ⟨oldest, rfl, held, ?_, fun other inside differs => ?_⟩
    · -- a token that was there before the new one
      obtain ⟨entry, listed⟩ : ∃ entry, entry ∈ run.store.entries.values := by
        apply List.exists_mem_of_length_pos
        rw [Table.length_values]
        omega
      have within := Table.mem_values.mp listed
      have issued := h.held _ _ within
      have differs : entry.token ≠ (run.store.minted sha256 claim moment.nowMs).token := by
        intro same
        apply fresh
        rw [same] at issued
        exact issued
      have inside : filed.get? entry.token = some entry := by
        rw [← within]
        exact Table.get?_insert_of_ne differs
      have bound := least entry inside
      have below : run.place entry < run.issued.length := List.idxOf_lt_length_of_mem issued
      omega
    · have bound := least other inside
      have apart : run.place oldest ≠ run.place other := fun same =>
        differs (h.place_inj fresh held inside same).symm
      omega

theorem Ordered.fair_iff (h : run.Ordered nowMs) (positive : 1 ≤ run.store.maxEntries)
    (fresh : run.MintsFresh sha256 (.issue claim moment)) (passed : nowMs ≤ moment.nowMs) :
    run.PrunesFairly sha256 (.issue claim moment) ↔
      run.MeetsOldestFirst sha256 (.issue claim moment) := by
  let minted := run.store.minted sha256 claim moment.nowMs
  let filed := run.store.filed sha256 claim moment.nowMs
  let store : PreviewStore := { run.store with next := run.store.next + 1, entries := filed }
  have size : filed.size = run.store.entries.size + 1 := h.size_filed fresh
  have bounded := h.bounded
  have new : filed.get? minted.token = some minted := Table.get?_insert_self _ _
  have next : ((previewing sha256).next run (.issue claim moment)).store = store.prune moment := rfl
  unfold PrunesFairly MeetsOldestFirst
  rw [next]
  by_cases room : filed.size ≤ run.store.maxEntries
  · have kept : store.prune moment = store := if_pos room
    rw [kept]
    refine iff_of_true ⟨room, Option.isSome_iff_exists.mpr ⟨_, new⟩, ?_⟩ fun full => ?_
    · intro gone held absent
      rw [held] at absent
      cases absent
    · omega
  · have enough : run.store.maxEntries ≤ run.store.entries.size := by omega
    have full : store.entries.size = store.maxEntries + 1 := by
      change filed.size = run.store.maxEntries + 1
      omega
    obtain ⟨few, pruned⟩ | ⟨live, victim, found, pruned⟩ := prune_cases full moment
    · rw [pruned]
      obtain ⟨stays, losses⟩ := fair_of_dead new
      constructor
      · rintro ⟨-, present, -⟩ -
        refine ⟨stays.mp present, fun all => ?_⟩
        have whole : filed.retain (fun entry =>
            !entry.used && moment.prunedAtMs < entry.expiresAtMs) = filed := by
          apply Table.retain_eq_self
          intro token entry held
          have named : entry.token = token := Table.key_of_get? held
          exact live_iff.mpr (all entry (moment.walk.mem_entries.mpr (named ▸ held)))
        exact absurd (whole ▸ few) room
      · intro met
        exact ⟨few, stays.mpr (met enough).1, fun gone held absent live =>
          absurd live (losses gone held absent)⟩
    · rw [pruned]
      have dropped := moment.walk.mem_entries.mp (Table.mem_of_first found)
      have fewer : (filed.erase victim.token).size + 1 = filed.size := Table.size_erase dropped
      have fits : (filed.erase victim.token).size ≤ run.store.maxEntries := by omega
      obtain ⟨oldest, first, held, behind, before⟩ := h.exists_oldest (by omega) fresh
      have distinct : ((moment.walk.entries filed).map StoredPreview.token).Nodup :=
        ((moment.walk.perm filed).map _).nodup_iff.mpr filed.keys_nodup
      have least : ∀ other ∈ moment.walk.entries filed,
          oldest.expiresAtMs ≤ other.expiresAtMs := by
        intro other member
        have inside := moment.walk.mem_entries.mp member
        by_cases same : other = oldest
        · exact Int.le_of_eq (congrArg _ same.symm)
        · exact h.filed fresh passed held inside (before other inside same)
      have expiring := first_expiring_iff distinct (moment.walk.mem_entries.mpr held) least
      have chosen : victim = oldest ↔
          Table.first StoredPreview.expiresAtMs (moment.walk.entries filed) = some oldest := by
        rw [found, Option.some_inj]
      have fair := fair_of_live new live dropped held behind before
      refine (and_iff_right fits).trans (fair.trans (chosen.trans (expiring.trans ?_)))
      constructor
      · intro met _
        refine ⟨live _ _ new, fun _ other same => ?_⟩
        rw [first] at same
        cases Option.some.inj same
        exact met
      · intro met
        exact (met enough).2 (fun entry member => live _ _ (moment.walk.mem_entries.mp member))
          oldest first

theorem prune_bounds (store : PreviewStore) (moment : IssueMoment) :
    (store.prune moment).ttlMs = store.ttlMs ∧
      (store.prune moment).maxEntries = store.maxEntries := by
  unfold PreviewStore.prune
  dsimp only
  split_ifs <;> exact ⟨rfl, rfl⟩

theorem bounded_prune {store : PreviewStore} (few : store.entries.size ≤ store.maxEntries + 1)
    (moment : IssueMoment) : (store.prune moment).entries.size ≤ store.maxEntries := by
  by_cases room : store.entries.size ≤ store.maxEntries
  · rw [show store.prune moment = store by exact if_pos room]
    exact room
  · have full : store.entries.size = store.maxEntries + 1 := by omega
    obtain ⟨fits, pruned⟩ | ⟨-, victim, found, pruned⟩ := prune_cases full moment
    · rw [pruned]
      exact fits
    · have fewer := Table.size_erase (moment.walk.mem_entries.mp (Table.mem_of_first found))
      rw [pruned]
      dsimp only
      omega

theorem Ordered.issue (h : run.Ordered nowMs)
    (fresh : run.MintsFresh sha256 (.issue claim moment)) (passed : nowMs ≤ moment.nowMs) :
    ((previewing sha256).next run (.issue claim moment)).Ordered moment.nowMs := by
  let minted := run.store.minted sha256 claim moment.nowMs
  let filed := run.store.filed sha256 claim moment.nowMs
  let store : PreviewStore := { run.store with next := run.store.next + 1, entries := filed }
  let after := (previewing sha256).next run (.issue claim moment)
  have next : after.store = store.prune moment := rfl
  have issued : after.issued = run.issued ++ [minted.token] := rfl
  obtain ⟨sameTtl, sameMax⟩ := prune_bounds store moment
  have size : filed.size = run.store.entries.size + 1 := h.size_filed fresh
  have kept : ∀ token entry, after.store.entries.get? token = some entry →
      filed.get? token = some entry := fun token entry held => PreviewStore.get?_of_prune held
  have place : ∀ entry, filed.get? entry.token = some entry → after.place entry = run.place entry := by
    intro entry held
    unfold PreviewRun.place
    rw [issued, List.idxOf_append]
    split
    · rfl
    · rename_i absent
      obtain rfl | before := get?_filed held
      · rw [List.idxOf_eq_length absent, List.idxOf_cons_self, Nat.zero_add]
      · exact absurd (h.held _ _ before) absent
  constructor
  · rw [next, sameMax]
    apply bounded_prune
    have bounded := h.bounded
    change filed.size ≤ run.store.maxEntries + 1
    omega
  · intro token entry held
    have named : entry.token = token := Table.key_of_get? held
    rw [issued, List.mem_append, ← named]
    obtain rfl | before := get?_filed (kept token entry held)
    · exact .inr (List.mem_singleton_self _)
    · exact .inl (h.held _ _ (named ▸ before))
  · intro token entry held
    rw [next, sameTtl]
    obtain rfl | before := get?_filed (kept token entry held)
    · exact Int.le_refl _
    · exact Int.le_trans (h.soon _ _ before) (Int.add_le_add_right passed _)
  · intro earlier later first second before
    have heldFirst := kept _ _ first
    have heldSecond := kept _ _ second
    rw [place earlier heldFirst, place later heldSecond] at before
    exact h.filed fresh passed heldFirst heldSecond before

theorem Ordered.redeem (h : run.Ordered nowMs) (checks : List (PreviewCheck × Int)) :
    ((previewing sha256).next run (.redeem checks)).Ordered nowMs ∧
      run.PrunesFairly sha256 (.redeem checks) := by
  obtain ⟨refusal, -, answered⟩ | ⟨-, answered⟩ := run.store.redeem_cases checks
  · have same : (previewing sha256).next run (.redeem checks) = run := by
      simp [Machine.next, previewing, answered]
    unfold PrunesFairly
    rw [same]
    exact ⟨h, h.bounded, fun token absent => absent⟩
  · have next : (previewing sha256).next run (.redeem checks) = { run with
          store := { run.store with entries := (tokensOf checks).foldl spend run.store.entries }
          redeemed := run.redeemed ++ [tokensOf checks] } := by
      simp [Machine.next, previewing, answered]
    have before : ∀ token entry, ((tokensOf checks).foldl spend run.store.entries).get? token =
        some entry → ∃ old, run.store.entries.get? token = some old ∧
          old.token = entry.token ∧ old.expiresAtMs = entry.expiresAtMs := by
      intro token entry held
      rw [get?_foldl_spend, Option.map_eq_some_iff] at held
      obtain ⟨old, found, rfl⟩ := held
      refine ⟨old, found, ?_⟩
      split <;> exact ⟨rfl, rfl⟩
    have bounded : ((tokensOf checks).foldl spend run.store.entries).size ≤ run.store.maxEntries := by
      refine Nat.le_trans (Table.size_le_of_held fun token entry held => ?_) h.bounded
      obtain ⟨old, found, -⟩ := before token entry held
      exact ⟨old, found⟩
    unfold PrunesFairly
    rw [next]
    refine ⟨⟨bounded, ?_, ?_, ?_⟩, bounded, ?_⟩
    · intro token entry held
      obtain ⟨old, found, -⟩ := before token entry held
      exact h.held token old found
    · intro token entry held
      obtain ⟨old, found, -, expiry⟩ := before token entry held
      exact expiry ▸ h.soon token old found
    · intro earlier later first second behind
      obtain ⟨one, foundOne, namedOne, expiryOne⟩ := before _ _ first
      obtain ⟨two, foundTwo, namedTwo, expiryTwo⟩ := before _ _ second
      rw [← expiryOne, ← expiryTwo]
      refine h.expiring one two (namedOne ▸ foundOne) (namedTwo ▸ foundTwo) ?_
      unfold PreviewRun.place at behind ⊢
      rw [namedOne, namedTwo]
      exact behind
    · intro token absent
      rw [get?_foldl_spend, Option.map_eq_none_iff] at absent
      exact absent

theorem maxEntries_next (sha256 : Bytes → Bytes) (run : PreviewRun) (call : PreviewCall) :
    ((previewing sha256).next run call).store.maxEntries = run.store.maxEntries := by
  cases call with
  | issue claim moment =>
    exact (prune_bounds { run.store with
      next := run.store.next + 1, entries := run.store.filed sha256 claim moment.nowMs } moment).2
  | verify checks => rfl
  | redeem checks =>
    obtain ⟨refusal, -, answered⟩ | ⟨-, answered⟩ := run.store.redeem_cases checks
    · simp [Machine.next, previewing, answered]
    · simp [Machine.next, previewing, answered]

theorem Ordered.meets_iff (h : run.Ordered nowMs) (positive : 1 ≤ run.store.maxEntries)
    {calls : List PreviewCall}
    (clock : (nowMs :: calls.flatMap PreviewCall.readings).Pairwise (· ≤ ·))
    (fresh : (previewing sha256).Meets (MintsFresh sha256) run calls) :
    (previewing sha256).Meets (PrunesFairly sha256) run calls ↔
      (previewing sha256).Meets (MeetsOldestFirst sha256) run calls := by
  induction calls generalizing run nowMs with
  | nil => rfl
  | cons call rest ih =>
    rw [List.flatMap_cons, List.pairwise_cons, List.pairwise_append] at clock
    obtain ⟨since, -, later, behind⟩ := clock
    have sinceNow : (nowMs :: rest.flatMap PreviewCall.readings).Pairwise (· ≤ ·) :=
      List.pairwise_cons.mpr ⟨fun reading member => since reading (List.mem_append_right _ member),
        later⟩
    have max := maxEntries_next sha256 run call
    unfold Machine.Meets
    cases call with
    | issue claim moment =>
      have passed : nowMs ≤ moment.nowMs :=
        since _ (List.mem_append_left _ List.mem_cons_self)
      have sinceIssue : (moment.nowMs :: rest.flatMap PreviewCall.readings).Pairwise (· ≤ ·) :=
        List.pairwise_cons.mpr ⟨fun reading member =>
          behind moment.nowMs List.mem_cons_self reading member, later⟩
      rw [h.fair_iff positive fresh.1 passed]
      exact and_congr_right fun _ =>
        ih (h.issue fresh.1 passed) (max ▸ positive) sinceIssue fresh.2
    | verify checks =>
      exact and_congr (iff_of_true ⟨h.bounded, fun token absent => absent⟩ trivial)
        (ih h positive sinceNow fresh.2)
    | redeem checks =>
      obtain ⟨ordered, fair⟩ := h.redeem checks
      exact and_congr (iff_of_true fair trivial) (ih ordered (max ▸ positive) sinceNow fresh.2)

end

/-- Whatever is issued, verified and redeemed while the clock does not go back: pruning is fair
exactly in the runs in which each issue into a full store finds the oldest token first among
those of its millisecond, and does not outlive its own token. -/
theorem pruning_fair_iff {sha256 : Bytes → Bytes} {ttlMs : Int} {maxEntries : Nat} {seed : Bytes}
    {calls : List PreviewCall} (positive : 1 ≤ maxEntries)
    (clock : (calls.flatMap PreviewCall.readings).Pairwise (· ≤ ·))
    (apart : (previewing sha256).Meets (DigestsApart sha256)
      { store := { ttlMs, maxEntries, seed } } calls) :
    let start : PreviewRun := { store := { ttlMs, maxEntries, seed } }
    (previewing sha256).Meets (PrunesFairly sha256) start calls ↔
      (previewing sha256).Meets (MeetsOldestFirst sha256) start calls := by
  intro start
  have fresh := meets_mintsFresh apart
  have ordered : ∀ nowMs, start.Ordered nowMs := fun nowMs =>
    ⟨Nat.zero_le _, by simp [start], by simp [start], by simp [start]⟩
  cases readings : calls.flatMap PreviewCall.readings with
  | nil =>
    refine (ordered 0).meets_iff positive ?_ fresh
    rw [readings]
    exact List.pairwise_singleton _ _
  | cons first rest =>
    rw [readings] at clock
    refine (ordered first).meets_iff positive ?_ fresh
    rw [readings]
    exact List.pairwise_cons.mpr ⟨List.forall_mem_cons.mpr
      ⟨Int.le_refl _, (List.pairwise_cons.mp clock).1⟩, clock⟩

def backwards : Table.Walk StoredPreview.token where
  entries := fun table => table.values.reverse
  perm := fun table => List.reverse_perm table.values

def issueAt (nowMs : Int) : PreviewCall :=
  .issue sampleClaim { nowMs, prunedAtMs := nowMs, walk := backwards }

/-- A store for one token, which holds one that was issued at the beginning. -/
def holdingOne : PreviewRun :=
  (previewing sampleDigest).next
    { store := { ttlMs := 300000, maxEntries := 1, seed := sampleSeed } } (issueAt 0)

theorem meetsOldestFirst_holdingOne {nowMs : Int} (soon : nowMs = 0 ∨ nowMs = 1) :
    holdingOne.MeetsOldestFirst sampleDigest (issueAt nowMs) ↔ nowMs = 1 := by
  let first : StoredPreview :=
    { token := "pt_681bcaea57a0378bb410f9bc83317d3a", claim := sampleClaim
      expiresAtMs := 300000, used := false }
  let second : StoredPreview :=
    { token := "pt_ac20d1ed2c5b88e08e8875455ecb952e", claim := sampleClaim
      expiresAtMs := nowMs + 300000, used := false }
  have walked : backwards.entries (holdingOne.store.filed sampleDigest sampleClaim nowMs) =
      [second, first] := by
    obtain rfl | rfl := soon
    · decide +kernel
    · decide +kernel
  have oldest : Table.first (fun entry => (holdingOne.place entry : Int)) [second, first] =
      some first := by
    obtain rfl | rfl := soon
    · decide +kernel
    · decide +kernel
  have minted : (holdingOne.store.minted sampleDigest sampleClaim nowMs).Live nowMs ∧
      second.Live nowMs ∧ first.Live nowMs := by
    obtain rfl | rfl := soon
    · decide +kernel
    · decide +kernel
  have before : [second, first].takeWhile (fun entry => entry.token ≠ first.token) = [second] := by
    obtain rfl | rfl := soon
    · decide +kernel
    · decide +kernel
  have full : holdingOne.store.maxEntries ≤ holdingOne.store.entries.size := by decide +kernel
  unfold MeetsOldestFirst issueAt
  dsimp only
  rw [walked]
  constructor
  · intro met
    have later := (met full).2 (by simpa using minted.2) first oldest second
      (before ▸ List.mem_singleton_self second)
    change (300000 : Int) < nowMs + 300000 at later
    omega
  · rintro rfl _
    refine ⟨minted.1, fun _ other found entry member => ?_⟩
    obtain rfl : first = other := Option.some.inj (oldest.symm.trans found)
    rw [before, List.mem_singleton] at member
    rw [member]
    decide

theorem pruning_fair_one_millisecond_later :
    (previewing sampleDigest).Meets (PrunesFairly sampleDigest)
      { store := { ttlMs := 300000, maxEntries := 1, seed := sampleSeed } } [issueAt 0, issueAt 1] := by
  refine (pruning_fair_iff (by decide) (by decide) (by decide +kernel)).mpr ⟨fun full => ?_, ?_, trivial⟩
  · exact absurd full (by decide +kernel)
  · exact (meetsOldestFirst_holdingOne (.inr rfl)).mpr rfl

/-- In one millisecond the map may give up the token that was just issued. -/
theorem not_fair_same_millisecond : ¬(previewing sampleDigest).Meets (PrunesFairly sampleDigest)
      { store := { ttlMs := 300000, maxEntries := 1, seed := sampleSeed } } [issueAt 0, issueAt 0] := by
  rintro ⟨-, fair, -⟩
  have start : ({ store := { ttlMs := 300000, maxEntries := 1, seed := sampleSeed } } :
      PreviewRun).Ordered 0 := ⟨Nat.zero_le _, by simp, by simp, by simp⟩
  have firstFresh : ({ store := { ttlMs := 300000, maxEntries := 1, seed := sampleSeed } } :
      PreviewRun).MintsFresh sampleDigest (issueAt 0) := List.not_mem_nil
  have secondFresh : holdingOne.MintsFresh sampleDigest (issueAt 0) := by
    change _ ∉ holdingOne.issued
    decide +kernel
  have ordered : holdingOne.Ordered 0 := start.issue firstFresh (Int.le_refl 0)
  have met := (ordered.fair_iff (by decide +kernel) secondFresh (Int.le_refl 0)).mp fair
  exact absurd ((meetsOldestFirst_holdingOne (.inl rfl)).mp met) (by decide)

end PreviewRun
end Refyard.Previews
