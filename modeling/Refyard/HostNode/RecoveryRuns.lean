import Refyard.HostNode.Recovery

/-! When a verified backup is not lost. Every step is asked what it would write or take away;
the backups that a later call may still record count as well as those that were returned. -/
namespace Refyard.Recovery
open Approvals

def Rewrite.pending (rewrite : Rewrite) : Option Verified :=
  match rewrite.purpose with
  | .backUp backup => some backup
  | .prune _ => none

def Phase.pending : Phase → Option Verified
  | .root rewrite => rewrite.pending
  | .index rewrite => rewrite.pending
  | _ => none

def Sweep.expires (sweep : Sweep) (path : String) : Bool :=
  sweep.records.any fun record => record.backupPath = path && record.createdAtMs < sweep.cutoff

namespace RecoveryStore
variable (options : RecoveryStoreOptions) (store : RecoveryStore)

def fresh (record : BackupRecord) : Bool :=
  store.readings.all fun reading => reading - options.budget.maxAgeMs ≤ record.createdAtMs

def backups : List Verified :=
  store.verified ++ store.calls.values.filterMap fun call => call.phase.pending

def guards (path : String) : Bool :=
  store.backups.any fun backup => backup.record.backupPath = path && store.fresh options backup.record

def clears (directory : String) : Bool :=
  !isInsideOrEqual directory options.indexPath &&
    (store.filesIn directory).all fun path => !store.guards options path

/-- What the call waits for takes no backup away: a copy is written where none is guarded and
is no longer than the file was said to be, a directory is removed with expired files only, and
the index is written as it was read. -/
def spares : Phase → Bool
  | .copy copying _ => !store.guards options copying.backupPath
  | .fingerprint copying hex =>
      (store.files.get? copying.backupPath).all fun copy =>
        hex ≠ options.sha256 copy.contents || copy.contents.length ≤ copying.metadata.sizeBytes
  | .mismatch backupPath => store.clears options (dirname backupPath)
  | .index rewrite => store.index.read = rewrite.existing
  | .removing sweep record =>
      let directory := dirname (dirname record.backupPath)
      store.clears options directory && (store.filesIn directory).all sweep.expires
  | _ => true

/-- A part of it takes none away: no index is cut short that has a backup to keep. -/
def sparesPart : Phase → Bool
  | .index _ => store.verified.all fun backup => !store.fresh options backup.record
  | phase => store.spares options phase

def fits : RecoveryStep → Bool
  | .performs number _ => (store.calls.get? number).all fun call => store.spares options call.phase
  | .performsPart number _ =>
      (store.calls.get? number).all fun call => store.sparesPart options call.phase
  | _ => true

def Holds (backup : Verified) : Prop :=
  store.files.get? backup.record.backupPath = some ⟨backup.record.backupPath, backup.contents⟩ ∧
    backup.record.fingerprint = fingerprintFile options.sha256 backup.contents

/-- Verified backups that are not too old are listed and there, prunes removed the files of
expired records only, and the records are within the budget. -/
structure Safe : Prop where
  kept : ∀ backup ∈ store.verified, store.fresh options backup.record = true →
    backup.record ∈ store.list ∧ store.Holds options backup
  pruned : ∀ removed ∈ store.pruned, ∃ record ∈ removed.records,
    record.backupPath = removed.path ∧ record.createdAtMs < removed.cutoff
  budget : store.usageBytes ≤ options.budget.maxTotalBytes

def CopyingSound (copying : Copying) : Prop :=
  liveBytes copying.existing + copying.metadata.sizeBytes ≤ options.budget.maxTotalBytes

structure RewriteSound (rewrite : Rewrite) : Prop where
  budget : liveBytes rewrite.records ≤ options.budget.maxTotalBytes
  keeps : ∀ record ∈ rewrite.existing, store.fresh options record = true → record ∈ rewrite.records
  pending : ∀ backup, rewrite.pending = some backup → backup.record ∈ rewrite.records ∧
      (store.fresh options backup.record = true → store.Holds options backup)

/-- What is left of the records, once `rest` is gone through as well. -/
structure SweepSound (cutoff : Int) (records rest : List BackupRecord) : Prop where
  budget : liveBytes rest ≤ options.budget.maxTotalBytes
  reading : ∃ reading ∈ store.readings, cutoff = reading - options.budget.maxAgeMs
  keeps : ∀ record ∈ records, cutoff ≤ record.createdAtMs → record ∈ rest

def PhaseSound : Phase → Prop
  | .directory copying => CopyingSound options copying
  | .source copying => CopyingSound options copying
  | .copy copying _ => CopyingSound options copying
  | .original copying => CopyingSound options copying
  | .fingerprint copying _ => CopyingSound options copying
  | .root rewrite => store.RewriteSound options rewrite
  | .index rewrite => store.RewriteSound options rewrite
  | .removing sweep _ => store.SweepSound options sweep.cutoff sweep.records (sweep.keep ++ sweep.left)
  | _ => True

structure Kept : Prop where
  safe : store.Safe options
  phases : ∀ call ∈ store.calls.values, store.PhaseSound options call.phase

end RecoveryStore

theorem liveBytes_append (first second : List BackupRecord) :
    liveBytes (first ++ second) = liveBytes first + liveBytes second := by
  unfold liveBytes
  rw [List.map_append, List.sum_append]

theorem liveBytes_cons (record : BackupRecord) (rest : List BackupRecord) :
    liveBytes (record :: rest) = record.fingerprint.sizeBytes + liveBytes rest := by
  unfold liveBytes
  rw [List.map_cons, List.sum_cons]

namespace RecoveryStore
variable {options : RecoveryStoreOptions} {store next : RecoveryStore}

theorem fresh_iff {record : BackupRecord} : store.fresh options record = true ↔
      ∀ reading ∈ store.readings, reading - options.budget.maxAgeMs ≤ record.createdAtMs := by
  unfold fresh
  simp only [List.all_eq_true, decide_eq_true_eq]

theorem mem_backups {backup : Verified} : backup ∈ store.backups ↔ backup ∈ store.verified ∨
      ∃ call ∈ store.calls.values, call.phase.pending = some backup := by
  unfold backups
  rw [List.mem_append, List.mem_filterMap]

theorem guards_of_mem {backup : Verified} (member : backup ∈ store.backups)
    (fresh : store.fresh options backup.record = true) :
    store.guards options backup.record.backupPath = true := by
  unfold guards
  rw [List.any_eq_true]
  exact ⟨backup, member, by rw [fresh, Bool.and_true, decide_eq_true_eq]⟩

structure Carries (options : RecoveryStoreOptions) (store next : RecoveryStore) : Prop where
  calls : next.calls = store.calls
  readings : ∀ reading ∈ store.readings, reading ∈ next.readings
  holds : ∀ backup ∈ store.backups, store.fresh options backup.record = true →
    store.Holds options backup → next.Holds options backup

theorem Carries.fresh (carries : Carries options store next) {record : BackupRecord}
    (fresh : next.fresh options record = true) : store.fresh options record = true := by
  rw [fresh_iff] at fresh ⊢
  exact fun reading member => fresh reading (carries.readings reading member)

theorem RewriteSound.carry {rewrite : Rewrite} (sound : store.RewriteSound options rewrite)
    (carries : Carries options store next)
    (counts : ∀ backup, rewrite.pending = some backup → backup ∈ store.backups) :
    next.RewriteSound options rewrite where
  budget := sound.budget
  keeps := fun record member fresh => sound.keeps record member (carries.fresh fresh)
  pending := by
    intro backup pending
    obtain ⟨listed, held⟩ := sound.pending backup pending
    refine ⟨listed, fun fresh => ?_⟩
    have before := carries.fresh fresh
    exact carries.holds backup (counts backup pending) before (held before)

variable {records : List BackupRecord} {phase : Phase}

theorem SweepSound.carry {cutoff : Int} {rest : List BackupRecord}
    (sound : store.SweepSound options cutoff records rest) (carries : Carries options store next) :
    next.SweepSound options cutoff records rest where
  budget := sound.budget
  reading := by
    obtain ⟨reading, member, same⟩ := sound.reading
    exact ⟨reading, carries.readings reading member, same⟩
  keeps := sound.keeps

theorem readings_removes (directory : String) (paths : List String) :
    (store.removes options directory paths).readings = store.readings := rfl

theorem readings_prunes (sweep : Sweep) (record : BackupRecord) (paths : List String) :
    (store.prunes options sweep record paths).readings = store.readings := by
  unfold RecoveryStore.prunes
  rw [readings_removes]

theorem phaseSound_carry (sound : store.PhaseSound options phase)
    (carries : Carries options store next)
    (counts : ∀ backup, phase.pending = some backup → backup ∈ store.backups) :
    next.PhaseSound options phase := by
  cases phase with
  | root rewrite | index rewrite => exact RewriteSound.carry sound carries counts
  | removing sweep record => exact SweepSound.carry sound carries
  | directory copying | source copying | original copying => exact sound
  | copy copying contents => exact sound
  | fingerprint copying hex => exact sound
  | metadata | existing | mismatch | listing | pruning => trivial

theorem Kept.carry (kept : store.Kept options) (carries : Carries options store next)
    (safe : next.Safe options) : next.Kept options where
  safe := safe
  phases := by
    intro call member
    rw [carries.calls] at member
    apply phaseSound_carry (kept.phases call member) carries
    intro backup pending
    exact mem_backups.mpr (.inr ⟨call, member, pending⟩)

theorem carries_reads (readings : List Int) : Carries options store (store.reads readings) where
  calls := rfl
  readings := fun _ member => List.mem_append_left _ member
  holds := fun _ _ _ held => held

theorem Kept.reads (kept : store.Kept options) (readings : List Int) :
    (store.reads readings).Kept options :=
  kept.carry (carries_reads readings)
    { kept := fun backup member fresh =>
        kept.safe.kept backup member ((carries_reads readings).fresh fresh)
      pruned := kept.safe.pruned
      budget := kept.safe.budget }

theorem Kept.files (kept : store.Kept options) {files : InsertionMap BackupFile.path}
    (same : ∀ path, store.guards options path = true → files.get? path = store.files.get? path) :
    ({ store with files } : RecoveryStore).Kept options := by
  have holds : ∀ backup ∈ store.backups, store.fresh options backup.record = true →
      store.Holds options backup →
      ({ store with files } : RecoveryStore).Holds options backup := by
    intro backup member fresh held
    exact ⟨(same _ (guards_of_mem member fresh)).trans held.1, held.2⟩
  have carries : Carries options store { store with files } :=
    ⟨rfl, fun _ member => member, holds⟩
  apply kept.carry carries
  refine ⟨?_, kept.safe.pruned, kept.safe.budget⟩
  intro backup member fresh
  obtain ⟨listed, held⟩ := kept.safe.kept backup member fresh
  exact ⟨listed, holds backup (mem_backups.mpr (.inl member)) fresh held⟩

theorem Kept.sets (kept : store.Kept options) {path : String} (contents : Bytes)
    (free : store.guards options path = false) :
    ({ store with files := store.files.set ⟨path, contents⟩ } : RecoveryStore).Kept options := by
  apply kept.files
  intro other guarded
  rw [InsertionMap.get?_set, if_neg]
  rintro rfl
  rw [free] at guarded
  cases guarded

theorem Kept.removes (kept : store.Kept options) {directory : String}
    (clears : store.clears options directory = true) {paths : List String}
    (within : ∀ path ∈ paths, path ∈ store.filesIn directory) :
    (store.removes options directory paths).Kept options := by
  unfold RecoveryStore.clears at clears
  rw [Bool.and_eq_true, Bool.not_eq_true', List.all_eq_true] at clears
  unfold RecoveryStore.removes
  rw [if_neg (by rw [clears.1]; exact Bool.false_ne_true)]
  apply kept.files
  intro path guarded
  rw [InsertionMap.get?_foldl_erase, if_neg]
  intro member
  have spared := clears.2 path (within path member)
  rw [guarded] at spared
  cases spared

theorem Kept.notes (kept : store.Kept options) {pruned : List Pruned}
    (expired : ∀ removed ∈ pruned, ∃ record ∈ removed.records,
      record.backupPath = removed.path ∧ record.createdAtMs < removed.cutoff) :
    ({ store with pruned } : RecoveryStore).Kept options := by
  have carries : Carries options store { store with pruned } :=
    ⟨rfl, fun _ member => member, fun _ _ _ held => held⟩
  exact kept.carry carries ⟨kept.safe.kept, expired, kept.safe.budget⟩

theorem Kept.prunes (kept : store.Kept options) {sweep : Sweep} {record : BackupRecord}
    (clears : store.clears options (dirname (dirname record.backupPath)) = true)
    (expires : ∀ path ∈ store.filesIn (dirname (dirname record.backupPath)),
      sweep.expires path = true) {paths : List String}
    (within : ∀ path ∈ paths, path ∈ store.filesIn (dirname (dirname record.backupPath))) :
    (store.prunes options sweep record paths).Kept options := by
  apply (kept.removes clears within).notes
  intro gone member
  obtain before | new := List.mem_append.mp member
  · exact kept.safe.pruned gone before
  · obtain ⟨path, among, rfl⟩ := List.mem_map.mp new
    have old := expires path (within path among)
    unfold Sweep.expires at old
    simpa using old

theorem Kept.writes (kept : store.Kept options) {rewrite : Rewrite}
    (sound : store.RewriteSound options rewrite)
    (read : store.index.read = rewrite.existing) : (store.writes rewrite).Kept options := by
  have carries : Carries options store (store.writes rewrite) :=
    ⟨rfl, fun _ member => member, fun _ _ _ held => held⟩
  apply kept.carry carries
  refine ⟨?_, kept.safe.pruned, sound.budget⟩
  intro backup member fresh
  obtain before | new := List.mem_append.mp member
  · obtain ⟨listed, held⟩ := kept.safe.kept backup before fresh
    unfold list at listed
    rw [read] at listed
    exact ⟨sound.keeps backup.record listed fresh, held⟩
  · cases purpose : rewrite.purpose with
    | prune removed =>
      rw [purpose] at new
      cases new
    | backUp pending =>
      rw [purpose] at new
      obtain rfl := List.mem_singleton.mp new
      obtain ⟨listed, held⟩ := sound.pending backup (by rw [Rewrite.pending, purpose])
      exact ⟨listed, held fresh⟩

theorem Kept.tears (kept : store.Kept options)
    (old : ∀ backup ∈ store.verified, store.fresh options backup.record = false) :
    ({ store with index := .torn } : RecoveryStore).Kept options := by
  have carries : Carries options store { store with index := .torn } :=
    ⟨rfl, fun _ member => member, fun _ _ _ held => held⟩
  apply kept.carry carries
  refine ⟨?_, kept.safe.pruned, Nat.zero_le _⟩
  intro backup member fresh
  have stale := old backup member
  rw [show store.fresh options backup.record = true from fresh] at stale
  cases stale

theorem phaseSound_calling (started : Nat) (calls : InsertionMap Call.number)
    (sound : store.PhaseSound options phase) :
    ({ store with started, calls } : RecoveryStore).PhaseSound options phase := by
  cases phase with
  | root rewrite | index rewrite => exact ⟨sound.budget, sound.keeps, sound.pending⟩
  | removing sweep record => exact ⟨sound.budget, sound.reading, sound.keeps⟩
  | directory copying | source copying | original copying => exact sound
  | copy copying contents => exact sound
  | fingerprint copying hex => exact sound
  | metadata | existing | mismatch | listing | pruning => trivial

theorem Kept.calling (kept : store.Kept options) (started : Nat)
    {calls : InsertionMap Call.number}
    (sound : ∀ call ∈ calls.values, store.PhaseSound options call.phase) :
    ({ store with started, calls } : RecoveryStore).Kept options :=
  ⟨⟨kept.safe.kept, kept.safe.pruned, kept.safe.budget⟩,
    fun call member => phaseSound_calling started calls (sound call member)⟩

theorem Kept.awaits (kept : store.Kept options) (started number : Nat)
    (sound : store.PhaseSound options phase) :
    ({ store with started, calls := store.calls.set { number, phase } } : RecoveryStore).Kept
      options := by
  apply kept.calling
  intro call member
  obtain rfl | ⟨before, -⟩ := InsertionMap.mem_values_set.mp member
  · exact sound
  · exact kept.phases call before

theorem Kept.settle (kept : store.Kept options) (number : Nat) {turn : Turn}
    (sound : ∀ phase, turn = .awaits phase → store.PhaseSound options phase) :
    (store.settle number turn).1.Kept options := by
  cases turn with
  | awaits phase => exact kept.awaits store.started number (sound phase rfl)
  | returns answer =>
    apply kept.calling store.started
    intro call member
    exact kept.phases call (InsertionMap.mem_values_erase.mp member).1

theorem sweepOn_sound {cutoff : Int} {keep left : List BackupRecord} {removed : Nat}
    (sound : store.SweepSound options cutoff records (keep ++ left)) :
    ∀ phase, sweepOn cutoff records removed keep left = .awaits phase →
      store.PhaseSound options phase := by
  induction left generalizing keep with
  | nil =>
    intro phase goes
    rw [List.append_nil] at sound
    unfold sweepOn at goes
    split at goes
    · cases goes
      obtain ⟨reading, member, same⟩ := sound.reading
      refine ⟨sound.budget, ?_, nofun⟩
      intro record among fresh
      exact sound.keeps record among (same ▸ fresh_iff.mp fresh reading member)
    · cases goes
  | cons record left ih =>
    intro phase goes
    unfold sweepOn at goes
    split at goes
    · refine ih ?_ phase goes
      rw [List.append_assoc]
      exact sound
    · rename_i expired
      cases goes
      refine ⟨?_, sound.reading, ?_⟩
      · have total := sound.budget
        rw [liveBytes_append, liveBytes_cons] at total
        show liveBytes (keep ++ left) ≤ _
        rw [liveBytes_append]
        omega
      · intro other among fresh
        obtain front | here := List.mem_append.mp (sound.keeps other among fresh)
        · exact List.mem_append_left _ front
        · obtain rfl | back := List.mem_cons.mp here
          · exact absurd fresh expired
          · exact List.mem_append_right _ back

theorem onRecords_sound (outside : Outside)
    (budget : liveBytes records ≤ options.budget.maxTotalBytes) :
    ∀ phase, (onRecords options outside records).2 = .awaits phase →
      (store.reads (onRecords options outside records).1).PhaseSound options phase := by
  apply sweepOn_sound
  exact ⟨budget, ⟨outside.nowMs, List.mem_append_right _ (List.mem_singleton_self _), rfl⟩,
    fun record member _ => member⟩

theorem onExisting_sound (outside : Outside) (input : BackUpInput) (metadata : PathMetadata)
    (existing : List BackupRecord) :
    ∀ phase, (onExisting options outside input metadata existing).2 = .awaits phase →
      (store.reads (onExisting options outside input metadata existing).1).PhaseSound options
        phase := by
  intro phase goes
  unfold onExisting at goes ⊢
  dsimp only at goes ⊢
  split at goes
  · cases goes
  · rename_i room
    split at goes
    · cases goes
    · cases goes
      exact Nat.le_of_not_gt room

theorem fingerprinted {copying : Copying} (sound : CopyingSound options copying)
    {copy : BackupFile} (found : store.files.get? copying.backupPath = some copy)
    (short : copy.contents.length ≤ copying.metadata.sizeBytes) (outside : Outside) :
    let record : BackupRecord :=
      { backupPath := copying.backupPath
        originalPath := copying.input.originalPath
        fingerprint := fingerprintFile options.sha256 copy.contents
        createdAtMs := outside.nowMs
        mode := copying.metadata.mode }
    (store.reads [outside.nowMs]).RewriteSound options
      { existing := copying.existing
        records := copying.existing ++ [record]
        purpose := .backUp { record, contents := copy.contents } } := by
  intro record
  have named : copy.path = copying.backupPath := (InsertionMap.get?_eq_some.mp found).2
  refine ⟨?_, fun other member _ => List.mem_append_left _ member, ?_⟩
  · unfold CopyingSound at sound
    rw [liveBytes_append, liveBytes_cons]
    show liveBytes copying.existing + (copy.contents.length + 0) ≤ _
    omega
  · intro backup pending
    obtain rfl : _ = backup := Option.some.inj pending
    refine ⟨List.mem_append_right _ (List.mem_singleton_self _), fun _ => ⟨?_, rfl⟩⟩
    show store.files.get? copying.backupPath = some ⟨copying.backupPath, copy.contents⟩
    rw [found, ← named]

theorem not_awaits {answer : RecoveryAnswer} {Sound : Phase → Prop} :
    ∀ phase, Turn.returns answer = .awaits phase → Sound phase := by
  intro phase goes
  cases goes

theorem performed (kept : store.Kept options) (outside : Outside)
    (sound : store.PhaseSound options phase) (spares : store.spares options phase = true) :
    (store.perform options outside phase).1.Kept options ∧
      ∀ next, (store.perform options outside phase).2 = .awaits next →
        (store.perform options outside phase).1.PhaseSound options next := by
  cases phase with
  | metadata input =>
    dsimp only [perform]
    split
    · exact ⟨kept, not_awaits⟩
    · refine ⟨kept, fun next goes => ?_⟩
      cases goes
      trivial
  | existing input metadata =>
    exact ⟨kept.reads _, onExisting_sound outside input metadata store.index.read⟩
  | directory copying | source copying | original copying =>
    refine ⟨kept, fun next goes => ?_⟩
    cases goes
    exact sound
  | copy copying contents =>
    unfold RecoveryStore.spares at spares
    rw [Bool.not_eq_true'] at spares
    refine ⟨kept.sets contents spares, fun next goes => ?_⟩
    cases goes
    exact sound
  | fingerprint copying hex =>
    dsimp only [perform]
    dsimp only [RecoveryStore.spares] at spares
    cases found : store.files.get? copying.backupPath with
    | none => exact ⟨kept, not_awaits⟩
    | some copy =>
      rw [found, Option.all_some, Bool.or_eq_true, decide_eq_true_eq, decide_eq_true_eq] at spares
      dsimp only
      split
      · refine ⟨kept, fun next goes => ?_⟩
        cases goes
        trivial
      · rename_i same
        refine ⟨kept.reads _, fun next goes => ?_⟩
        cases goes
        exact fingerprinted sound found (spares.resolve_left same) outside
  | mismatch backupPath => exact ⟨kept.removes spares fun path member => member, not_awaits⟩
  | root rewrite =>
    refine ⟨kept, fun next goes => ?_⟩
    cases goes
    exact sound
  | index rewrite =>
    exact ⟨kept.writes sound (of_decide_eq_true spares), not_awaits⟩
  | listing => exact ⟨kept, not_awaits⟩
  | pruning => exact ⟨kept.reads _, onRecords_sound outside kept.safe.budget⟩
  | removing sweep record =>
    unfold RecoveryStore.spares at spares
    rw [Bool.and_eq_true, List.all_eq_true] at spares
    dsimp only [perform]
    refine ⟨kept.prunes spares.1 spares.2 fun path member => member, ?_⟩
    apply sweepOn_sound
    obtain ⟨reading, member, same⟩ := sound.reading
    refine ⟨sound.budget, ⟨reading, ?_, same⟩, sound.keeps⟩
    rw [readings_prunes]
    exact member

theorem rejected (kept : store.Kept options) (outside : Outside) (phase : Phase) :
    (store.rejects options outside phase).1.Kept options ∧
      ∀ next, (store.rejects options outside phase).2 = .awaits next →
        (store.rejects options outside phase).1.PhaseSound options next := by
  cases phase with
  | existing input metadata => exact ⟨kept.reads _, onExisting_sound outside input metadata []⟩
  | pruning => exact ⟨kept.reads _, onRecords_sound outside (Nat.zero_le _)⟩
  | metadata | directory | source | copy | original | fingerprint | mismatch | root | index |
    listing | removing => exact ⟨kept, not_awaits⟩

theorem performedPart (kept : store.Kept options) (part : Nat)
    (spares : store.sparesPart options phase = true) :
    (store.performsPart options part phase).Kept options := by
  cases phase with
  | copy copying contents =>
    have free : (!store.guards options copying.backupPath) = true := spares
    exact kept.sets _ (Bool.not_eq_true' _ ▸ free)
  | mismatch backupPath =>
    dsimp only [RecoveryStore.sparesPart, RecoveryStore.spares] at spares
    exact kept.removes spares fun path member => List.mem_of_mem_take member
  | index rewrite =>
    apply kept.tears
    intro backup member
    have stale := List.all_eq_true.mp spares backup member
    rwa [Bool.not_eq_true'] at stale
  | removing sweep record =>
    dsimp only [RecoveryStore.sparesPart, RecoveryStore.spares] at spares
    rw [Bool.and_eq_true, List.all_eq_true] at spares
    exact kept.prunes spares.1 spares.2 fun path member => List.mem_of_mem_take member
  | metadata | existing | directory | source | original | fingerprint | root | listing | pruning =>
    exact kept

end RecoveryStore

theorem kept_next {options : RecoveryStoreOptions} (store : RecoveryStore) (step : RecoveryStep) (kept : store.Kept options)
    (fits : store.fits options step = true) : ((recovering options).next store step).Kept options := by
  cases step with
  | backUp input =>
    have sound : store.PhaseSound options (.metadata input) := trivial
    exact kept.awaits (store.started + 1) (store.started + 1) sound
  | list =>
    have sound : store.PhaseSound options .listing := trivial
    exact kept.awaits (store.started + 1) (store.started + 1) sound
  | prune =>
    have sound : store.PhaseSound options .pruning := trivial
    exact kept.awaits (store.started + 1) (store.started + 1) sound
  | performs number outside =>
    dsimp only [RecoveryStore.fits] at fits
    dsimp only [Machine.next, recovering]
    cases found : store.calls.get? number with
    | none => exact kept
    | some call =>
      rw [found, Option.all_some] at fits
      have sound := kept.phases call (InsertionMap.get?_eq_some.mp found).1
      obtain ⟨performs, goes⟩ := RecoveryStore.performed kept outside sound fits
      exact performs.settle number goes
  | performsPart number part =>
    dsimp only [RecoveryStore.fits] at fits
    dsimp only [Machine.next, recovering]
    cases found : store.calls.get? number with
    | none => exact kept
    | some call =>
      rw [found, Option.all_some] at fits
      exact RecoveryStore.performedPart kept part fits
  | rejects number outside =>
    dsimp only [Machine.next, recovering]
    cases found : store.calls.get? number with
    | none => exact kept
    | some call =>
      obtain ⟨rejects, goes⟩ := RecoveryStore.rejected kept outside call.phase
      exact rejects.settle number goes
  | crash =>
    apply kept.calling store.started
    intro call member
    cases member

variable (options : RecoveryStoreOptions)

theorem kept_empty : ({} : RecoveryStore).Kept options := by
  refine ⟨⟨?_, ?_, Nat.zero_le _⟩, ?_⟩ <;> intro entry member <;> cases member

def RecoveryAnswer.verified? : RecoveryAnswer → Option BackupRecord
  | .backedUp (.verified record) => some record
  | _ => none

def Turn.verified? : Turn → Option BackupRecord
  | .awaits _ => none
  | .returns answer => answer.verified?

theorem verified_sweepOn (cutoff : Int) (records : List BackupRecord) (removed : Nat)
    (keep left : List BackupRecord) :
    (sweepOn cutoff records removed keep left).verified? = none := by
  induction left generalizing keep with
  | nil =>
    unfold sweepOn
    split <;> rfl
  | cons record left ih =>
    unfold sweepOn
    split
    · exact ih _
    · rfl

theorem verified_onExisting (outside : Outside) (input : BackUpInput) (metadata : PathMetadata)
    (existing : List BackupRecord) :
    (onExisting options outside input metadata existing).2.verified? = none := by
  unfold onExisting
  dsimp only
  split
  · rfl
  · dsimp only
    split <;> rfl

theorem verified_settle (store : RecoveryStore) (number : Nat) (turn : Turn) :
    (store.settle number turn).1.verified = store.verified ∧
      (store.settle number turn).2.verified? = turn.verified? := by
  cases turn with
  | awaits phase => exact ⟨rfl, rfl⟩
  | returns answer => exact ⟨rfl, rfl⟩

theorem verified_perform (store : RecoveryStore) (outside : Outside) (phase : Phase) :
    (store.perform options outside phase).1.verified.map Verified.record =
      store.verified.map Verified.record ++
        (store.perform options outside phase).2.verified?.toList := by
  cases phase with
  | metadata input =>
    dsimp only [RecoveryStore.perform]
    split <;> exact (List.append_nil _).symm
  | existing input metadata =>
    dsimp only [RecoveryStore.perform]
    rw [verified_onExisting]
    exact (List.append_nil _).symm
  | fingerprint copying hex =>
    dsimp only [RecoveryStore.perform]
    split
    · exact (List.append_nil _).symm
    · split <;> exact (List.append_nil _).symm
  | index rewrite =>
    dsimp only [RecoveryStore.perform, RecoveryStore.writes]
    cases rewrite.purpose with
    | backUp backup => exact List.map_append
    | prune removed => exact List.map_append
  | pruning =>
    dsimp only [RecoveryStore.perform, onRecords]
    rw [verified_sweepOn]
    exact (List.append_nil _).symm
  | removing sweep record =>
    dsimp only [RecoveryStore.perform, RecoveryStore.prunes, RecoveryStore.removes]
    rw [verified_sweepOn]
    exact (List.append_nil _).symm
  | mismatch backupPath =>
    dsimp only [RecoveryStore.perform, RecoveryStore.removes]
    exact (List.append_nil _).symm
  | directory | source | copy | original | root | listing => exact (List.append_nil _).symm

theorem verified_rejects (store : RecoveryStore) (outside : Outside) (phase : Phase) :
    (store.rejects options outside phase).1.verified = store.verified ∧
      (store.rejects options outside phase).2.verified? = none := by
  cases phase with
  | existing input metadata => exact ⟨rfl, verified_onExisting options outside input metadata []⟩
  | pruning =>
    exact ⟨rfl, verified_sweepOn (outside.nowMs - options.budget.maxAgeMs) [] 0 [] []⟩
  | metadata | directory | source | copy | original | fingerprint | mismatch | root | index |
    listing | removing => exact ⟨rfl, rfl⟩

theorem verified_performsPart (store : RecoveryStore) (part : Nat) (phase : Phase) :
    (store.performsPart options part phase).verified = store.verified := by
  cases phase with
  | mismatch backupPath => dsimp only [RecoveryStore.performsPart, RecoveryStore.removes]
  | removing sweep record =>
    dsimp only [RecoveryStore.performsPart, RecoveryStore.prunes, RecoveryStore.removes]
  | metadata | existing | directory | source | copy | original | fingerprint | root | index |
    listing | pruning => rfl

theorem verified_next (store : RecoveryStore) (step : RecoveryStep) :
    ((recovering options).next store step).verified.map Verified.record =
      store.verified.map Verified.record ++
        ((recovering options).output store step).verified?.toList := by
  dsimp only [Machine.next, Machine.output, recovering]
  cases step with
  | performs number outside =>
    dsimp only
    split
    · exact (List.append_nil _).symm
    · rename_i call found
      obtain ⟨same, answers⟩ := verified_settle (store.perform options outside call.phase).1 number
        (store.perform options outside call.phase).2
      rw [same, answers]
      exact verified_perform options store outside call.phase
  | performsPart number part =>
    dsimp only
    split
    · exact (List.append_nil _).symm
    · rename_i call found
      rw [verified_performsPart]
      exact (List.append_nil _).symm
  | rejects number outside =>
    dsimp only
    split
    · exact (List.append_nil _).symm
    · rename_i call found
      obtain ⟨same, answers⟩ := verified_settle (store.rejects options outside call.phase).1 number
        (store.rejects options outside call.phase).2
      obtain ⟨stays, silent⟩ := verified_rejects options store outside call.phase
      rw [same, answers, stays, silent]
      exact (List.append_nil _).symm
  | backUp | list | prune | crash => exact (List.append_nil _).symm

/-- What is kept as verified is what was answered. -/
theorem verified_after (store : RecoveryStore) (steps : List RecoveryStep) :
    ((recovering options).after store steps).verified.map Verified.record =
      store.verified.map Verified.record ++
        ((recovering options).outputs store steps).filterMap RecoveryAnswer.verified? := by
  induction steps generalizing store with
  | nil => exact (List.append_nil _).symm
  | cons step steps ih =>
    rw [Machine.after_cons, ih, verified_next, List.append_assoc, Machine.outputs,
      List.filterMap_cons]
    cases ((recovering options).output store step).verified? <;> rfl

theorem backups_are_kept (options : RecoveryStoreOptions) (steps : List RecoveryStep)
    (fits : (recovering options).Meets
      (fun store step => store.fits options step = true) {} steps) :
    ((recovering options).after {} steps).Safe options ∧
      ((recovering options).after {} steps).verified.map Verified.record =
        ((recovering options).outputs {} steps).filterMap RecoveryAnswer.verified? := by
  have kept : ((recovering options).after {} steps).Kept options :=
    (recovering options).invariant_of_step (RecoveryStore.Kept options) kept_next
      (kept_empty options) fits
  exact ⟨kept.safe, verified_after options {} steps⟩

def letterDigest (contents : Bytes) : String :=
  if contents = [0x61] then "ca978112ca1bbdcafac231b39a23dc4da786eff8147c4e72b9807785afee48bb"
  else if contents = [0x62] then "3e23e8160039594a33894f6564e1b1348bbd7a0088d42c4acb73eeaed59c009d"
  else ""

def stateOptions : RecoveryStoreOptions where
  root := ⟨"/state/backups", ["state".toList, "backups".toList], by decide, by decide⟩
  sha256 := letterDigest

theorem isRealPath_work : IsRealPath "/work" := by
  refine ⟨["work".toList], by decide, fun name member => ?_⟩
  obtain rfl := List.mem_singleton.mp member
  exact ⟨⟨by decide, by decide, by decide⟩, by decide⟩

def workPath : RealPath := ⟨"/work", isRealPath_work⟩

def discardA : BackUpInput where
  contentRoot := workPath
  relativePath := "a"
  operationId := "op_1"
  safe := by decide
  named := by decide

def discardB : BackUpInput where
  contentRoot := workPath
  relativePath := "b"
  operationId := "op_1"
  safe := by decide
  named := by decide

def laterDiscard : BackUpInput where
  contentRoot := workPath
  relativePath := "b"
  operationId := "op_2"
  safe := by decide
  named := by decide

def letterAt (letter : UInt8) (nowMs : Int) : Outside where
  metadata := { kind := .regularFile, sizeBytes := 1, mode := "644" }
  contents := [letter]
  nowMs := nowMs

def performsAll (number awaits : Nat) (outside : Outside) : List RecoveryStep :=
  List.replicate awaits (.performs number outside)

/-- A file is backed up, another one a week later, and the first backup is pruned. -/
def twoDiscards : List RecoveryStep :=
  [.backUp discardA] ++ performsAll 1 9 (letterAt 0x61 1000) ++ [.backUp laterDiscard] ++
    performsAll 2 9 (letterAt 0x62 604801000) ++ [.prune] ++
    performsAll 3 4 (letterAt 0x62 604801001)

theorem backups_are_kept_week :
    ((recovering stateOptions).after {} twoDiscards).verified.length = 2 ∧
      ((recovering stateOptions).after {} twoDiscards).pruned.length = 1 ∧
      ((recovering stateOptions).after {} twoDiscards).Safe stateOptions := by
  have run : (recovering stateOptions).Meets
        (fun store step => store.fits stateOptions step = true) {} twoDiscards ∧
      ((recovering stateOptions).after {} twoDiscards).verified.length = 2 ∧
      ((recovering stateOptions).after {} twoDiscards).pruned.length = 1 := by
    decide +kernel
  exact ⟨run.2.1, run.2.2, (backups_are_kept stateOptions twoDiscards run.1).1⟩

/-- Two backups of one discard, and a prune when the first is too old and the second is not. -/
def oneDiscard : List RecoveryStep :=
  [.backUp discardA] ++ performsAll 1 9 (letterAt 0x61 1000) ++ [.backUp discardB] ++
    performsAll 2 9 (letterAt 0x62 1001) ++ [.prune] ++ performsAll 3 4 (letterAt 0x62 604801001)

def cutShort : List RecoveryStep :=
  [.backUp discardA] ++ performsAll 1 9 (letterAt 0x61 1000) ++ [.backUp discardB] ++
    performsAll 2 8 (letterAt 0x62 1001) ++ [.performsPart 2 1, .crash]

def atOnce : List RecoveryStep :=
  [.backUp discardA, .backUp laterDiscard] ++ performsAll 1 2 (letterAt 0x61 1000) ++
    performsAll 2 9 (letterAt 0x62 1000) ++ performsAll 1 7 (letterAt 0x61 1000)

def tightOptions : RecoveryStoreOptions :=
  { stateOptions with budget := { maxTotalBytes := 0, maxAgeMs := 1000 } }

/-- A file that was empty when its metadata was read, and is not when it is copied. -/
def grown : List RecoveryStep :=
  [.backUp discardA] ++
    performsAll 1 9 { letterAt 0x61 1000 with metadata := ⟨.regularFile, 0, "644"⟩ }

def RecoveryStore.keepsAll (options : RecoveryStoreOptions) (store : RecoveryStore) : Bool :=
  store.verified.all fun backup => !store.fresh options backup.record ||
    store.list.contains backup.record && (store.files.get? backup.record.backupPath).isSome

theorem RecoveryStore.Safe.keepsAll {options : RecoveryStoreOptions} {store : RecoveryStore}
    (safe : store.Safe options) : store.keepsAll options = true := by
  unfold RecoveryStore.keepsAll
  rw [List.all_eq_true]
  intro backup member
  cases fresh : store.fresh options backup.record with
  | false => rfl
  | true =>
    obtain ⟨listed, held, -⟩ := safe.kept backup member fresh
    rw [held, List.contains_iff_mem.mpr listed]
    rfl

theorem backups_are_lost : ¬ ((recovering stateOptions).after {} oneDiscard).Safe stateOptions ∧
      ¬ ((recovering stateOptions).after {} cutShort).Safe stateOptions ∧
      ¬ ((recovering stateOptions).after {} atOnce).Safe stateOptions ∧
      ¬ ((recovering tightOptions).after {} grown).Safe tightOptions := by
  have lost : ((recovering stateOptions).after {} oneDiscard).keepsAll stateOptions = false ∧
      ((recovering stateOptions).after {} cutShort).keepsAll stateOptions = false ∧
      ((recovering stateOptions).after {} atOnce).keepsAll stateOptions = false := by
    decide +kernel
  obtain ⟨pruned, torn, overtaken⟩ := lost
  refine ⟨fun safe => ?_, fun safe => ?_, fun safe => ?_, fun safe => absurd safe.budget (by decide +kernel)⟩
  · exact absurd safe.keepsAll (by rw [pruned]; decide)
  · exact absurd safe.keepsAll (by rw [torn]; decide)
  · exact absurd safe.keepsAll (by rw [overtaken]; decide)

end Refyard.Recovery
