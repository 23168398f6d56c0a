import Refyard.Foundation.Machine
import Refyard.Snapshots

/-! How long a snapshot is answered with, and how many snapshots and cursors are kept, over
runs of calls. -/
namespace Refyard.Snapshots

inductive SnapshotCall where
  | mint (request : SnapshotRequest)
  | get (snapshotId : String)
  | mintCursor (snapshot : SnapshotRecord) (skip limit : Nat)
  | resolveCursor (cursor : String)

inductive SnapshotAnswer where
  | minted (snapshot : SnapshotRecord)
  | found (snapshot : Option SnapshotRecord)
  | cursor (cursor : String)
  | resolved (result : CursorResult)

/-- The store behind a run of calls. What the calls asked for is recorded beside it: the
snapshots minted, the snapshots that cursors were minted for, and the last reading of the
clock. No answer depends on that. -/
structure SnapshotRun where
  store : SnapshotState := {}
  minted : List SnapshotRecord := []
  continued : List String := []
  clock : Nat := 0

namespace SnapshotRun

def answering (ttlMs maxEntries : Nat) : Machine SnapshotRun (Nat × SnapshotCall) SnapshotAnswer where
  step run input :=
    let run := { run with clock := input.1 }
    match input.2 with
    | .mint request =>
        let (snapshot, store) := run.store.mint ttlMs maxEntries input.1 request
        ({ run with store, minted := run.minted ++ [snapshot] }, .minted snapshot)
    | .get snapshotId => (run, .found (run.store.get snapshotId))
    | .mintCursor snapshot skip limit =>
        let (cursor, store) := run.store.mintCursor snapshot skip limit
        ({ run with store, continued := run.continued ++ [snapshot.snapshotId] }, .cursor cursor)
    | .resolveCursor cursor => (run, .resolved (run.store.resolveCursor cursor))

def Forward (run : SnapshotRun) (input : Nat × SnapshotCall) : Prop := run.clock ≤ input.1

/-- An answer at this reading names no snapshot that is older than the time to live, and a
cursor resolves only to a snapshot that is retained. -/
def FreshAnswer (ttlMs now : Nat) (run : SnapshotRun) : SnapshotAnswer → Prop
  | .found (some snapshot) => now - snapshot.createdAtMs ≤ ttlMs
  | .resolved (.resolved snapshotId _ _ _) =>
      ∃ snapshot, run.store.get snapshotId = some snapshot ∧ now - snapshot.createdAtMs ≤ ttlMs
  | _ => True

/-- No cursor is kept longer than the snapshot it names. -/
def Anchored (store : SnapshotState) : Prop :=
  ∀ (cursor : String) (record : CursorRecord), store.cursors[cursor]? = some record →
    store.byId.contains record.snapshotId = true

/-- What one call must do: answer with nothing that is too old, and leave no cursor without its
snapshot and no more snapshots and cursors than the bounds allow. -/
def Kept (ttlMs maxEntries bound : Nat) (run : SnapshotRun) (input : Nat × SnapshotCall) : Prop :=
  let machine := answering ttlMs maxEntries
  FreshAnswer ttlMs input.1 run (machine.output run input) ∧
    Anchored (machine.next run input).store ∧
    (machine.next run input).store.byId.size ≤ maxEntries ∧
    (machine.next run input).store.cursors.size ≤ bound

/-- The snapshot of this name is no older than the time to live, or it has gone: so many
others were minted after it, or one when it had come of age. -/
def YoungOrGone (ttlMs maxEntries now : Nat) (run : SnapshotRun) (snapshotId : String) : Prop :=
  ∀ place snapshot, run.minted[place]? = some snapshot → snapshot.snapshotId = snapshotId →
    now - snapshot.createdAtMs ≤ ttlMs ∨ place + maxEntries < run.minted.length ∨
      ∃ last, run.minted.getLast? = some last ∧ ttlMs ≤ last.createdAtMs - snapshot.createdAtMs

/-- A snapshot of this name was minted, and has not gone. -/
def Retains (ttlMs maxEntries : Nat) (run : SnapshotRun) (snapshotId : String) : Prop :=
  ∃ place snapshot, run.minted[place]? = some snapshot ∧ snapshot.snapshotId = snapshotId ∧
    run.minted.length ≤ place + maxEntries ∧
      ∀ last, run.minted.getLast? = some last → last.createdAtMs - snapshot.createdAtMs < ttlMs

/-- A mint drops no snapshot that a cursor continues, a cursor is minted for a snapshot that is
retained, and no snapshot is asked for that has come of age and not gone. -/
def Careful (ttlMs maxEntries bound : Nat) (run : SnapshotRun) : Nat × SnapshotCall → Prop
  | (now, .mint _) =>
      ∀ snapshotId ∈ run.continued, ∀ place snapshot, run.minted[place]? = some snapshot →
        snapshot.snapshotId = snapshotId →
          now - snapshot.createdAtMs < ttlMs ∧ run.minted.length < place + maxEntries
  | (now, .get snapshotId) => run.YoungOrGone ttlMs maxEntries now snapshotId
  | (_, .mintCursor snapshot _ _) =>
      run.continued.length < bound ∧ run.Retains ttlMs maxEntries snapshot.snapshotId
  | (now, .resolveCursor cursor) =>
      SnapshotState.isCursorShape cursor = true → ∀ place snapshotId,
        run.continued[place]? = some snapshotId → cursor = mintedCursorId (place + 1) →
          run.YoungOrGone ttlMs maxEntries now snapshotId

end SnapshotRun

namespace SnapshotRun
open SnapshotState

/-- All but the first `dropped` snapshots are retained, and those have gone for a reason. -/
structure Sound (ttlMs maxEntries : Nat) (run : SnapshotRun) (dropped : Nat) : Prop where
  lists : Lists run.store.order run.store.byId (run.minted.drop dropped)
  within : dropped ≤ run.minted.length
  few : run.minted.length ≤ dropped + maxEntries
  next : run.store.nextSnapshot = run.minted.length
  named : ∀ place snapshot, run.minted[place]? = some snapshot →
    snapshot.snapshotId = mintedSnapshotId (place + 1)
  forward : run.minted.Pairwise fun earlier later => earlier.createdAtMs ≤ later.createdAtMs
  clock : ∀ snapshot ∈ run.minted, snapshot.createdAtMs ≤ run.clock
  gone : ∀ place snapshot, run.minted[place]? = some snapshot →
    (place < dropped ↔ place + maxEntries < run.minted.length ∨
      ∃ last, run.minted.getLast? = some last ∧ ttlMs ≤ last.createdAtMs - snapshot.createdAtMs)

structure Continues (run : SnapshotRun) : Prop where
  next : run.store.nextCursor = run.continued.length
  size : run.store.cursors.size = run.continued.length
  holds : ∀ cursor snapshotId,
    (∃ record, run.store.cursors[cursor]? = some record ∧ record.snapshotId = snapshotId) ↔
      ∃ place, run.continued[place]? = some snapshotId ∧ cursor = mintedCursorId (place + 1)

section
variable {ttlMs maxEntries bound : Nat} {run : SnapshotRun} {dropped : Nat}

theorem sound_empty : Sound ttlMs maxEntries {} 0 where
  lists := ⟨rfl, List.nodup_nil, by simp⟩
  within := Nat.le_refl _
  few := Nat.zero_le _
  next := rfl
  named := by simp
  forward := List.Pairwise.nil
  clock := by simp
  gone := by simp

theorem continues_empty : Continues {} :=
  ⟨rfl, rfl, by simp⟩

theorem Sound.tick (h : run.Sound ttlMs maxEntries dropped) {now : Nat} (forward : run.clock ≤ now) :
    Sound ttlMs maxEntries { run with clock := now } dropped :=
  { h with clock := fun snapshot member => Nat.le_trans (h.clock snapshot member) forward }

theorem Sound.fresh (h : run.Sound ttlMs maxEntries dropped) :
    mintedSnapshotId (run.store.nextSnapshot + 1) ∉
      (run.minted.drop dropped).map SnapshotRecord.snapshotId := by
  intro member
  obtain ⟨snapshot, kept, same⟩ := List.mem_map.mp member
  obtain ⟨place, found⟩ := List.mem_iff_getElem?.mp (List.mem_of_mem_drop kept)
  rw [h.named place snapshot found, h.next] at same
  have numbers := mintedSnapshotId_injective same
  have inside := (List.getElem?_eq_some_iff.mp found).1
  omega

theorem Sound.mint (h : run.Sound ttlMs maxEntries dropped) {now : Nat}
    (forward : run.clock ≤ now) (request : SnapshotRequest) : ∃ dropped, Sound ttlMs maxEntries
      ((answering ttlMs maxEntries).next run (now, .mint request)) dropped := by
  let snapshot := request.record (mintedSnapshotId (run.store.nextSnapshot + 1)) now
  let filed : SnapshotState := { run.store with
    nextSnapshot := run.store.nextSnapshot + 1
    order := run.store.order ++ [snapshot.snapshotId]
    byId := run.store.byId.insert snapshot }
  have length : (run.minted ++ [snapshot]).length = run.minted.length + 1 := List.length_append
  have older : ∀ earlier ∈ run.minted, earlier.createdAtMs ≤ now := fun earlier member =>
    Nat.le_trans (h.clock earlier member) forward
  have rising : (run.minted ++ [snapshot]).Pairwise
      fun earlier later => earlier.createdAtMs ≤ later.createdAtMs := by
    rw [List.pairwise_append]
    refine ⟨h.forward, List.pairwise_singleton _ _, ?_⟩
    intro earlier member later last
    rw [List.mem_singleton] at last
    rw [last]
    exact older earlier member
  have inserted : Lists filed.order filed.byId ((run.minted ++ [snapshot]).drop dropped) := by
    rw [List.drop_append_of_le_length h.within]
    exact h.lists.insert h.fresh
  obtain ⟨count, within, files, few, went⟩ := inserted.evict_oldest ttlMs maxEntries now
    (rising.sublist (List.drop_sublist _ _))
  have lasting := h.within
  rw [List.length_drop, length] at within few
  refine ⟨dropped + count, ?_⟩
  constructor
  · rw [List.drop_drop] at files
    exact files
  · exact length.symm ▸ (by omega : dropped + count ≤ run.minted.length + 1)
  · exact length.symm ▸ (by omega : run.minted.length + 1 ≤ dropped + count + maxEntries)
  · exact (congrArg (· + 1) h.next).trans length.symm
  · intro place record found
    cases getElem?_concat_eq_some.mp found with
    | inl before => exact h.named place record before
    | inr last => rw [last.1, ← last.2, ← h.next]; rfl
  · exact rising
  · intro record member
    cases List.mem_append.mp member with
    | inl before => exact older record before
    | inr last => rw [List.mem_singleton.mp last]; exact Nat.le_refl now
  · intro place record found
    have gone : (∃ last, (run.minted ++ [snapshot]).getLast? = some last ∧
        ttlMs ≤ last.createdAtMs - record.createdAtMs) ↔ ttlMs ≤ now - record.createdAtMs := by
      simp [snapshot, SnapshotRequest.record]
    have minted : ((answering ttlMs maxEntries).next run (now, .mint request)).minted =
        run.minted ++ [snapshot] := rfl
    rw [minted] at found
    have inside := (List.getElem?_eq_some_iff.mp found).1
    rw [length] at inside
    rw [minted, gone, length]
    clear gone
    by_cases before : place < dropped
    · -- what had gone stays gone: both reasons last
      have earlier : run.minted[place]? = some record := by
        have bound : place < run.minted.length := by omega
        rw [← List.getElem?_append_left bound]
        exact found
      have reason := (h.gone place record earlier).mp before
      refine iff_of_true (by omega) ?_
      cases reason with
      | inl many => left; omega
      | inr aged =>
        obtain ⟨last, ends, ttl⟩ := aged
        have := older last (List.mem_of_getLast? ends)
        right; omega
    · have later : ((run.minted ++ [snapshot]).drop dropped)[place - dropped]? = some record := by
        rw [List.getElem?_drop, Nat.add_sub_cancel' (Nat.le_of_not_lt before)]
        exact found
      have tested := went (place - dropped) record later
      rw [List.length_drop, length] at tested
      have places : place < dropped + count ↔ place - dropped < count := by omega
      have counts : place - dropped + maxEntries < run.minted.length + 1 - dropped ↔
          place + maxEntries < run.minted.length + 1 := by omega
      rw [places, tested, counts]

variable {input : Nat × SnapshotCall}

theorem Sound.step (h : run.Sound ttlMs maxEntries dropped) (forward : run.Forward input) :
    ∃ dropped, Sound ttlMs maxEntries ((answering ttlMs maxEntries).next run input) dropped := by
  obtain ⟨now, call⟩ := input
  have ticked := h.tick forward
  cases call with
  | mint request => exact h.mint forward request
  | get snapshotId => exact ⟨dropped, ticked⟩
  | mintCursor snapshot skip limit =>
    exact ⟨dropped, ticked.lists, ticked.within, ticked.few, ticked.next, ticked.named,
      ticked.forward, ticked.clock, ticked.gone⟩
  | resolveCursor cursor => exact ⟨dropped, ticked⟩

theorem Continues.mintCursor (h : run.Continues) (now : Nat) (snapshot : SnapshotRecord)
    (skip limit : Nat) :
    Continues ((answering ttlMs maxEntries).next run (now, .mintCursor snapshot skip limit)) := by
  have absent : ¬run.store.cursors.contains (mintedCursorId (run.store.nextCursor + 1)) = true := by
    rw [← Std.ExtTreeMap.isSome_getElem?_eq_contains, Option.isSome_iff_exists]
    rintro ⟨record, found⟩
    obtain ⟨place, continued, same⟩ := (h.holds _ _).mp ⟨record, found, rfl⟩
    have inside := (List.getElem?_eq_some_iff.mp continued).1
    have numbers := mintedCursorId_injective same
    rw [h.next] at numbers
    omega
  let minted : CursorRecord := {
    snapshotId := snapshot.snapshotId, skip, limit, kind := snapshot.kind
    repositoryId := snapshot.repositoryId, worktreeId := snapshot.worktreeId }
  have cursors : ((answering ttlMs maxEntries).next run
        (now, .mintCursor snapshot skip limit)).store.cursors =
      run.store.cursors.insert (mintedCursorId (run.store.nextCursor + 1)) minted := rfl
  have continued : ((answering ttlMs maxEntries).next run
        (now, .mintCursor snapshot skip limit)).continued =
      run.continued ++ [snapshot.snapshotId] := rfl
  constructor
  · rw [continued, List.length_append]
    exact congrArg (· + 1) h.next
  · rw [cursors, continued, List.length_append, Std.ExtTreeMap.size_insert, if_neg absent, h.size]
    rfl
  · intro cursor snapshotId
    simp only [cursors, continued, getElem?_concat_eq_some, Std.ExtTreeMap.getElem?_insert]
    by_cases same : cursor = mintedCursorId (run.store.nextCursor + 1)
    · rw [if_pos (Std.compare_eq_iff_eq.mpr same.symm)]
      constructor
      · rintro ⟨record, ⟨rfl⟩, named⟩
        exact ⟨_, .inr ⟨rfl, named⟩, same.trans (by rw [h.next])⟩
      · rintro ⟨place, before | last, other⟩
        · have inside := (List.getElem?_eq_some_iff.mp before).1
          have numbers := mintedCursorId_injective (same.symm.trans other)
          rw [h.next] at numbers
          omega
        · exact ⟨minted, rfl, last.2⟩
    · rw [if_neg fun eq => same (Std.LawfulEqOrd.eq_of_compare eq).symm, h.holds]
      apply exists_congr
      intro place
      constructor
      · rintro ⟨before, named⟩
        exact ⟨.inl before, named⟩
      · rintro ⟨before | last, named⟩
        · exact ⟨before, named⟩
        · rw [last.1, ← h.next] at named
          exact absurd named same

theorem Continues.step (h : run.Continues) (input : Nat × SnapshotCall) :
    Continues ((answering ttlMs maxEntries).next run input) := by
  obtain ⟨now, call⟩ := input
  cases call with
  | mint request => exact ⟨h.next, h.size, h.holds⟩
  | get snapshotId => exact ⟨h.next, h.size, h.holds⟩
  | mintCursor snapshot skip limit => exact h.mintCursor now snapshot skip limit
  | resolveCursor cursor => exact ⟨h.next, h.size, h.holds⟩

theorem Sound.size (h : run.Sound ttlMs maxEntries dropped) : run.store.byId.size ≤ maxEntries := by
  rw [h.lists.size, List.length_drop]
  have := h.few
  omega

/-- What is retained under a name is too old exactly when it was minted, has come of age and
has not gone. -/
theorem Sound.young_iff (h : run.Sound ttlMs maxEntries dropped) (now : Nat) (snapshotId : String) :
    (∀ snapshot, run.store.get snapshotId = some snapshot → now - snapshot.createdAtMs ≤ ttlMs) ↔
      run.YoungOrGone ttlMs maxEntries now snapshotId := by
  constructor
  · intro young place snapshot found named
    rw [← h.gone place snapshot found]
    by_cases before : place < dropped
    · exact .inr before
    · have kept : snapshot ∈ run.minted.drop dropped := by
        rw [List.mem_iff_getElem?]
        refine ⟨place - dropped, ?_⟩
        rw [List.getElem?_drop, Nat.add_sub_cancel' (Nat.le_of_not_lt before)]
        exact found
      exact .inl (young snapshot ((h.lists.holds _ _).mpr ⟨kept, named⟩))
  · intro careful snapshot held
    obtain ⟨kept, named⟩ := (h.lists.holds _ _).mp held
    obtain ⟨place, found⟩ := List.mem_iff_getElem?.mp kept
    rw [List.getElem?_drop] at found
    have either := careful _ snapshot found named
    rw [← h.gone _ snapshot found] at either
    exact either.resolve_right (by omega)

theorem Continues.fresh_iff (c : run.Continues) (h : run.Sound ttlMs maxEntries dropped)
    (now : Nat) (cursor : String) :
    FreshAnswer ttlMs now run (.resolved (run.store.resolveCursor cursor)) ↔
      run.Careful ttlMs maxEntries bound (now, .resolveCursor cursor) := by
  unfold SnapshotState.resolveCursor
  cases shape : isCursorShape cursor with
  | false => simp [FreshAnswer, Careful, shape]
  | true =>
    have names : run.Careful ttlMs maxEntries bound (now, .resolveCursor cursor) ↔
        ∀ record, run.store.cursors[cursor]? = some record →
          run.YoungOrGone ttlMs maxEntries now record.snapshotId := by
      constructor
      · intro careful record found
        obtain ⟨place, continued, same⟩ := (c.holds _ _).mp ⟨record, found, rfl⟩
        exact careful shape place _ continued same
      · intro young _ place snapshotId continued same
        obtain ⟨record, found, rfl⟩ := (c.holds _ _).mpr ⟨place, continued, same⟩
        exact young record found
    rw [names]
    cases found : run.store.cursors[cursor]? with
    | none => simp [FreshAnswer]
    | some record =>
      simp only [Option.some_inj, forall_eq']
      rw [← h.young_iff, SnapshotState.get]
      cases held : run.store.byId.get? record.snapshotId with
      | none => simp [FreshAnswer, Table.contains, held]
      | some snapshot => simp [FreshAnswer, Table.contains, SnapshotState.get, held]

theorem Sound.fresh_iff (h : run.Sound ttlMs maxEntries dropped) (now : Nat) (snapshotId : String) :
    FreshAnswer ttlMs now run (.found (run.store.get snapshotId)) ↔
      run.Careful ttlMs maxEntries bound (now, .get snapshotId) := by
  refine Iff.trans ?_ (h.young_iff now snapshotId)
  cases run.store.get snapshotId with
  | none => simp [FreshAnswer]
  | some snapshot => simp [FreshAnswer]

theorem Sound.contains_iff (h : run.Sound ttlMs maxEntries dropped) (snapshotId : String) :
    run.store.byId.contains snapshotId = true ↔ run.Retains ttlMs maxEntries snapshotId := by
  have stays : ∀ place snapshot, run.minted[place]? = some snapshot → (dropped ≤ place ↔
      run.minted.length ≤ place + maxEntries ∧ ∀ last, run.minted.getLast? = some last →
        last.createdAtMs - snapshot.createdAtMs < ttlMs) := by
    intro place snapshot found
    rw [← not_lt, h.gone place snapshot found]
    simp only [not_or, not_lt, not_exists, not_and, not_le]
  rw [Table.contains, Option.isSome_iff_exists]
  constructor
  · rintro ⟨snapshot, held⟩
    obtain ⟨kept, named⟩ := (h.lists.holds _ _).mp held
    obtain ⟨place, found⟩ := List.mem_iff_getElem?.mp kept
    rw [List.getElem?_drop] at found
    exact ⟨_, snapshot, found, named, (stays _ _ found).mp (Nat.le_add_right _ _)⟩
  · rintro ⟨place, snapshot, found, named, reasons⟩
    refine ⟨snapshot, (h.lists.holds _ _).mpr ⟨List.mem_iff_getElem?.mpr ⟨place - dropped, ?_⟩, named⟩⟩
    rw [List.getElem?_drop, Nat.add_sub_cancel' ((stays place snapshot found).mpr reasons)]
    exact found

theorem Continues.anchored_iff (c : run.Continues) (h : run.Sound ttlMs maxEntries dropped) :
    Anchored run.store ↔ ∀ snapshotId ∈ run.continued, run.Retains ttlMs maxEntries snapshotId := by
  constructor
  · intro anchored snapshotId member
    obtain ⟨place, found⟩ := List.mem_iff_getElem?.mp member
    obtain ⟨record, held, rfl⟩ := (c.holds _ snapshotId).mpr ⟨place, found, rfl⟩
    exact (h.contains_iff _).mp (anchored _ record held)
  · intro retains cursor record held
    obtain ⟨place, found, -⟩ := (c.holds cursor _).mp ⟨record, held, rfl⟩
    exact (h.contains_iff _).mpr (retains _ (List.mem_of_getElem? found))

theorem retains_mint {now after : Nat}
    {request : SnapshotRequest} {snapshotId : String}
    (sound : Sound ttlMs maxEntries ((answering ttlMs maxEntries).next run (now, .mint request)) after)
    (retained : run.Retains ttlMs maxEntries snapshotId) :
    Retains ttlMs maxEntries ((answering ttlMs maxEntries).next run (now, .mint request)) snapshotId ↔
      ∀ place snapshot, run.minted[place]? = some snapshot → snapshot.snapshotId = snapshotId →
        now - snapshot.createdAtMs < ttlMs ∧ run.minted.length < place + maxEntries := by
  have minted : ((answering ttlMs maxEntries).next run (now, .mint request)).minted =
      run.minted ++ [request.record (mintedSnapshotId (run.store.nextSnapshot + 1)) now] := rfl
  have later : ∀ {place snapshot}, run.minted[place]? = some snapshot →
      ((answering ttlMs maxEntries).next run (now, .mint request)).minted[place]? = some snapshot :=
    fun found => getElem?_concat_eq_some.mpr (.inl found)
  constructor
  · rintro ⟨place, snapshot, found, named, many, young⟩ other earlier held same
    -- a name is given out once, so this is the snapshot that is retained
    have numbers := (sound.named place snapshot found).symm.trans
      (named.trans (same.symm.trans (sound.named other earlier (later held))))
    obtain rfl : place = other := Nat.succ.inj (mintedSnapshotId_injective numbers)
    obtain rfl : snapshot = earlier := Option.some.inj (found.symm.trans (later held))
    rw [minted, List.length_append, List.length_singleton] at many
    exact ⟨young _ (by rw [minted, List.getLast?_concat]), many⟩
  · intro careful
    obtain ⟨place, snapshot, found, named, -⟩ := retained
    obtain ⟨young, many⟩ := careful place snapshot found named
    refine ⟨place, snapshot, later found, named, ?_, fun last ends => ?_⟩
    · rw [minted, List.length_append]
      exact many
    · rw [minted, List.getLast?_concat] at ends
      cases ends
      exact young

theorem kept_iff (h : run.Sound ttlMs maxEntries dropped) (c : run.Continues)
    (anchored : Anchored run.store) (few : run.continued.length ≤ bound)
    (forward : run.Forward input) :
    run.Kept ttlMs maxEntries bound input ↔ run.Careful ttlMs maxEntries bound input := by
  obtain ⟨after, sound⟩ := h.step forward
  have continues := @Continues.step ttlMs maxEntries run c input
  have retains := (c.anchored_iff h).mp anchored
  unfold Kept
  dsimp only
  rw [and_iff_right sound.size, continues.size]
  obtain ⟨now, call⟩ := input
  cases call with
  | mint request =>
    refine (and_iff_right trivial).trans ((and_iff_left few).trans ?_)
    refine (continues.anchored_iff sound).trans (forall₂_congr fun snapshotId member => ?_)
    exact retains_mint sound (retains snapshotId member)
  | get snapshotId => exact (and_iff_left ⟨anchored, few⟩).trans (h.fresh_iff now snapshotId)
  | mintCursor snapshot skip limit =>
    have continued : ((answering ttlMs maxEntries).next run
          (now, .mintCursor snapshot skip limit)).continued =
        run.continued ++ [snapshot.snapshotId] := rfl
    refine (and_iff_right trivial).trans ?_
    rw [continues.anchored_iff sound, continued, List.length_append]
    refine and_comm.trans (and_congr_right fun _ => ?_)
    exact ⟨fun each => each _ (List.mem_append_right _ List.mem_cons_self),
      fun last => List.forall_mem_append.mpr ⟨retains, List.forall_mem_singleton.mpr last⟩⟩
  | resolveCursor cursor => exact (and_iff_left ⟨anchored, few⟩).trans (c.fresh_iff h now cursor)

def Bounded (ttlMs maxEntries bound : Nat) (run : SnapshotRun) : Prop :=
  (∃ dropped, run.Sound ttlMs maxEntries dropped) ∧ run.Continues ∧ Anchored run.store ∧
    run.continued.length ≤ bound

theorem bounded_empty : Bounded ttlMs maxEntries bound {} :=
  ⟨⟨0, sound_empty⟩, continues_empty, by simp [Anchored], Nat.zero_le _⟩

theorem Bounded.step (h : run.Bounded ttlMs maxEntries bound) (forward : run.Forward input)
    (kept : run.Kept ttlMs maxEntries bound input) :
    Bounded ttlMs maxEntries bound ((answering ttlMs maxEntries).next run input) := by
  obtain ⟨⟨dropped, sound⟩, continues, -⟩ := h
  have continued : Continues ((answering ttlMs maxEntries).next run input) :=
    continues.step input
  exact ⟨sound.step forward, continued, kept.2.1, continued.size ▸ kept.2.2.2⟩

theorem Bounded.kept_iff (h : run.Bounded ttlMs maxEntries bound) (forward : run.Forward input) :
    run.Kept ttlMs maxEntries bound input ↔ run.Careful ttlMs maxEntries bound input := by
  obtain ⟨⟨dropped, sound⟩, continues, anchored, few⟩ := h
  exact SnapshotRun.kept_iff sound continues anchored few forward

end

/-- In a run whose clock does not go back, every answer is fresh, no cursor outlives its snapshot and
both tables stay within their bounds exactly when no call asks for what has come of age and not
gone, no mint drops a snapshot that is continued, and cursors are minted for snapshots that are
retained and for no more than the bound. -/
theorem expiry_and_bounds_iff (ttlMs maxEntries bound : Nat) (calls : List (Nat × SnapshotCall))
    (forward : (answering ttlMs maxEntries).Meets Forward {} calls) :
    (answering ttlMs maxEntries).Meets (Kept ttlMs maxEntries bound) {} calls ↔
      (answering ttlMs maxEntries).Meets (Careful ttlMs maxEntries bound) {} calls := by
  constructor
  · intro kept
    refine Machine.meets_of_step _ (Bounded ttlMs maxEntries bound) ?_ ?_ bounded_empty
      (Machine.meets_and _ forward kept)
    · intro run input bounded condition
      exact bounded.step condition.1 condition.2
    · intro run input bounded condition
      exact (bounded.kept_iff condition.1).mp condition.2
  · intro careful
    refine Machine.meets_of_step _ (Bounded ttlMs maxEntries bound) ?_ ?_ bounded_empty
      (Machine.meets_and _ forward careful)
    · intro run input bounded condition
      exact bounded.step condition.1 ((bounded.kept_iff condition.1).mpr condition.2)
    · intro run input bounded condition
      exact (bounded.kept_iff condition.1).mpr condition.2

def refsRead : SnapshotRequest where
  kind := .refs
  repositoryId := "repo_1"
  worktreeId := none
  targetGeneration := "gen_1"
  tips := []
  headOid := none
  observedRefsFingerprint := some "refs"
  indexKey := none
  historyIntent := none

/-- One page is continued, and asked for again beside another read in the first half of its time. -/
def pagedRead : List (Nat × SnapshotCall) :=
  [(0, .mint refsRead), (0, .mintCursor (refsRead.record "snap_1" 0) 50 50), (5, .get "snap_1"),
    (5, .mint refsRead), (5, .resolveCursor "cur_1")]

theorem expiry_and_bounds_iff_pagedRead : (answering 10 4).Meets (Kept 10 4 1) {} pagedRead ↔
      (answering 10 4).Meets (Careful 10 4 1) {} pagedRead :=
  expiry_and_bounds_iff 10 4 1 pagedRead
    ⟨Nat.le_refl 0, Nat.le_refl 0, Nat.zero_le 5, Nat.le_refl 5, Nat.le_refl 5, trivial⟩

/-- Continuing one snapshot over and over, all at the same reading of the clock. -/
def continuations (snapshot : SnapshotRecord) (count : Nat) : List (Nat × SnapshotCall) :=
  List.replicate count (0, .mintCursor snapshot 0 1)

theorem forward_continuations {ttlMs maxEntries : Nat} {run : SnapshotRun} (start : run.clock = 0)
    (snapshot : SnapshotRecord) (count : Nat) :
    (answering ttlMs maxEntries).Meets Forward run (continuations snapshot count) := by
  induction count generalizing run with
  | zero => trivial
  | succ count ih =>
    rw [continuations, List.replicate_succ]
    exact ⟨Nat.le_of_eq start, ih rfl⟩

theorem continued_continuations {ttlMs maxEntries : Nat} (run : SnapshotRun)
    (snapshot : SnapshotRecord) (count : Nat) :
    ((answering ttlMs maxEntries).after run (continuations snapshot count)).continued.length =
      run.continued.length + count := by
  induction count generalizing run with
  | zero => rfl
  | succ count ih =>
    have first : ((answering ttlMs maxEntries).next run
        (0, .mintCursor snapshot 0 1)).continued = run.continued ++ [snapshot.snapshotId] := rfl
    rw [continuations, List.replicate_succ, Machine.after_cons]
    refine (ih _).trans ?_
    rw [first, List.length_append, List.length_singleton]
    omega

/-- A page is continued whose snapshot has gone, for all that its cursor is kept. -/
def outlived : List (Nat × SnapshotCall) :=
  [(0, .mint refsRead), (0, .mintCursor (refsRead.record "snap_1" 0) 50 50), (20, .mint refsRead)]

/-- Expiry is looked for only when a snapshot is minted, and cursors are never dropped. -/
theorem stale_snapshot_answered_and_cursors_unbounded :
    (∃ ttlMs maxEntries calls, (answering ttlMs maxEntries).Meets Forward {} calls ∧
      ¬(answering ttlMs maxEntries).Meets (fun run input => FreshAnswer ttlMs input.1 run
        ((answering ttlMs maxEntries).output run input)) {} calls) ∧
      ((answering 10 4).Meets Forward {} outlived ∧
        ¬Anchored ((answering 10 4).after {} outlived).store) ∧
      ∀ bound : Nat → Nat → Nat, ∃ ttlMs maxEntries calls,
        (answering ttlMs maxEntries).Meets Forward {} calls ∧ bound ttlMs maxEntries <
            ((answering ttlMs maxEntries).after {} calls).store.cursors.size := by
  refine ⟨?_, ⟨⟨Nat.le_refl 0, Nat.le_refl 0, Nat.zero_le 20, trivial⟩, ?_⟩, ?_⟩
  · refine ⟨10, 4, [(0, .mint refsRead), (11, .get (mintedSnapshotId 1))],
      ⟨Nat.le_refl 0, Nat.zero_le 11, trivial⟩, ?_⟩
    intro fresh
    have forward : Forward {} (0, .mint refsRead) := Nat.le_refl 0
    obtain ⟨dropped, sound⟩ := (@sound_empty 10 4).step forward
    have young := (@Sound.fresh_iff 10 4 0 _ _ sound 11 (mintedSnapshotId 1)).mp fresh.2.1
    have reasons := young 0 (refsRead.record (mintedSnapshotId 1) 0) rfl rfl
    obtain old | many | aged := reasons
    · exact absurd old (by decide)
    · exact absurd many (by decide)
    · obtain ⟨last, ends, ttl⟩ := aged
      cases ends
      exact absurd ttl (by decide)
  · intro anchored
    have kept : (((answering 10 4).after {} outlived).store.cursors["cur_1"]?).map
        CursorRecord.snapshotId = some "snap_1" := by decide +kernel
    obtain ⟨record, held, named⟩ := Option.map_eq_some_iff.mp kept
    have retained := anchored _ record held
    rw [named] at retained
    exact absurd retained (by decide +kernel)
  · intro bound
    refine ⟨0, 0, continuations (refsRead.record "snap_1" 0) (bound 0 0 + 1),
      forward_continuations rfl _ _, ?_⟩
    have continues := (answering 0 0).invariant Continues
      (fun run input held => held.step input) continues_empty
      (continuations (refsRead.record "snap_1" 0) (bound 0 0 + 1))
    rw [continues.size, continued_continuations]
    exact Nat.lt_of_lt_of_le (Nat.lt_succ_self _) (Nat.le_add_left _ _)

end SnapshotRun
end Refyard.Snapshots
