import Refyard.HostNode.HandleNames
import Refyard.HostNode.Worktrees

/-! When a worktree id names one path: what a reconcile may take up and take away while others
run. -/
namespace Refyard.HostWorktrees
open Approvals Handles

namespace WorktreeRegistry

/-- A row of a reconcile in progress, or of the last list that was returned. -/
def Live (registry : WorktreeRegistry) (repositoryId : String) (row : Row) : Prop :=
  (∃ reconcile ∈ registry.reconciles, reconcile.input.repositoryId = repositoryId ∧
      row ∈ reconcile.rows) ∨
    ∃ last, (registry.lists repositoryId).getLast? = some last ∧ row ∈ last

/-- The rows that count and have this text are of the same repository and lead to the same place,
and those of the repository that lead to the place have this text. -/
structure RowFits (registry : WorktreeRegistry) (repositoryId : String) (place : Bytes)
    (path : String) : Prop where
  one : ∀ row ∈ registry.rows, registry.Live row.repositoryId row → row.path = path →
    row.repositoryId = repositoryId ∧ row.place = place
  text : ∀ row ∈ registry.rows, registry.Live repositoryId row → row.place = place → row.path = path

/-- What the other reconciles of the repository have taken up was seen by this one. -/
def Spares (registry : WorktreeRegistry) (reconcile : Reconcile) : Prop :=
  ∀ other ∈ registry.reconciles, other.number ≠ reconcile.number →
    other.input.repositoryId = reconcile.input.repositoryId →
    ∀ worktreeId ∈ other.seen, worktreeId ∈ reconcile.seen

/-- The step takes up a row that fits, or ends a reconcile that spares the others. -/
def Fits (registry : WorktreeRegistry) : WorktreeStep → Prop
  | .advance number leads => ∀ reconcile ∈ registry.turn number,
      (reconcile.left = [] → registry.Spares reconcile) ∧
        ∀ record ∈ reconcile.left.head?, registry.RowFits reconcile.input.repositoryId
          (placeOf leads record) (resolvedText leads record)
  | _ => True

section
variable (registry : WorktreeRegistry)

instance (repositoryId : String) (row : Row) : Decidable (registry.Live repositoryId row) :=
  inferInstanceAs (Decidable (_ ∨ ∃ last ∈ (registry.lists repositoryId).getLast?, row ∈ last))

instance (repositoryId : String) (place : Bytes) (path : String) :
    Decidable (registry.RowFits repositoryId place path) :=
  decidable_of_iff (_ ∧ _) ⟨fun both => ⟨both.1, both.2⟩, fun fits => ⟨fits.one, fits.text⟩⟩

instance (reconcile : Reconcile) : Decidable (registry.Spares reconcile) :=
  inferInstanceAs (Decidable (∀ other ∈ registry.reconciles, _))

instance : DecidablePred registry.Fits
  | .advance .. => by unfold Fits; infer_instance
  | .reconcile .. | .handles .. | .drawId => inferInstanceAs (Decidable True)

end

/-- A path that is in each of these lists has one id in them, by which it is found. -/
def KeepsId (registry : WorktreeRegistry) (repositoryId : String) (lists : List (List Row))
    (place : Bytes) : Prop :=
  (∀ rows ∈ lists, ∃ row ∈ rows, row.place = place) → ∃ worktreeId,
    (∀ rows ∈ lists, ∀ row ∈ rows, row.place = place → row.worktreeId = worktreeId) ∧
    ∃ worktree, registry.get worktreeId = some worktree ∧
      registry.require repositoryId (some worktreeId) = .ok worktree

/-- Ids name paths: two rows that were ever given one id name one path; a path keeps its id as
long as the lists hold it; and a repository that no reconcile is in progress for has the
worktrees of its last list. -/
structure NamesPaths (registry : WorktreeRegistry) : Prop where
  onePath : ∀ first ∈ registry.rows, ∀ second ∈ registry.rows,
    first.worktreeId = second.worktreeId → first.place = second.place
  keepsId : ∀ repositoryId front back, registry.lists repositoryId = front ++ back → back ≠ [] →
    ∀ place, registry.KeepsId repositoryId back place
  listed : ∀ repositoryId,
    (∀ reconcile ∈ registry.reconciles, reconcile.input.repositoryId ≠ repositoryId) →
    ∀ worktreeId path, (∃ worktree ∈ registry.list repositoryId, worktree.worktreeId = worktreeId ∧
        worktree.path = path) ↔
      ∃ last, (registry.lists repositoryId).getLast? = some last ∧ ∃ row ∈ last,
        row.worktreeId = worktreeId ∧ row.path = path

def Drawn (registry : WorktreeRegistry) (worktreeId : String) : Prop :=
  ∃ number ≤ registry.counter, worktreeId = mintedWorktreeId number

structure Sound (registry : WorktreeRegistry) : Prop where
  filed : ∀ path worktreeId, registry.idByPath path = some worktreeId ↔
    ∃ worktree, registry.byId.get? worktreeId = some worktree ∧ worktree.path = path
  drawnRows : ∀ row ∈ registry.rows, registry.Drawn row.worktreeId
  drawnIds : ∀ worktreeId worktree, registry.byId.get? worktreeId = some worktree →
    registry.Drawn worktreeId
  numbered : (registry.reconciles.map Reconcile.number).Nodup
  started : ∀ reconcile ∈ registry.reconciles, reconcile.number ≤ registry.started
  seen : ∀ reconcile ∈ registry.reconciles,
    reconcile.seen = reconcile.rows.map Row.worktreeId ∧ ∀ row ∈ reconcile.rows, row ∈ registry.rows

structure Kept (registry : WorktreeRegistry) : Prop where
  onePath : ∀ first ∈ registry.rows, ∀ second ∈ registry.rows,
    first.worktreeId = second.worktreeId → first.place = second.place
  held : ∀ repositoryId row, registry.Live repositoryId row →
    ∃ worktree, registry.byId.get? row.worktreeId = some worktree ∧
      worktree.repositoryId = repositoryId ∧ worktree.path = row.path
  recorded : ∀ repositoryId row, registry.Live repositoryId row →
    row ∈ registry.rows ∧ row.repositoryId = repositoryId
  texts : ∀ repositoryId first second, registry.Live repositoryId first →
    registry.Live repositoryId second → first.place = second.place → first.path = second.path
  accounted : ∀ worktreeId worktree, registry.byId.get? worktreeId = some worktree →
    ∃ row, registry.Live worktree.repositoryId row ∧ row.worktreeId = worktreeId
  steady : ∀ repositoryId front first second back,
    registry.lists repositoryId = front ++ first :: second :: back →
      ∀ row ∈ first, ∀ other ∈ second, row.place = other.place → row.worktreeId = other.worktreeId

end WorktreeRegistry

theorem mintedWorktreeId_injective {left right : Nat}
    (same : mintedWorktreeId left = mintedWorktreeId right) : left = right := by
  unfold mintedWorktreeId at same
  apply base36_injective
  simpa [toString, String.toList_inj] using congrArg String.toList same

structure TakesUp (registry : WorktreeRegistry) (reconcile : Reconcile)
    (record : GitWorktreeRecord) (left : List GitWorktreeRecord) (leads : Leads)
    (after : WorktreeRegistry) (row : Row) (worktree : HostWorktree) : Prop where
  row_eq : row = ⟨reconcile.input.repositoryId, placeOf leads record, resolvedText leads record,
    worktree.worktreeId⟩
  repository : worktree.repositoryId = reconcile.input.repositoryId
  path : worktree.path = resolvedText leads record
  drawn : (registry.idByPath worktree.path = some worktree.worktreeId ∧
      after.counter = registry.counter) ∨ registry.idByPath worktree.path = none ∧
      worktree.worktreeId = mintedWorktreeId (registry.counter + 1) ∧
      after.counter = registry.counter + 1
  byId : after.byId = registry.byId.set worktree
  idByPath : after.idByPath =
    Function.update registry.idByPath worktree.path (some worktree.worktreeId)
  started : after.started = registry.started
  reconciles : after.reconciles = registry.putBack
    { reconcile with
      left
      worktrees := reconcile.worktrees ++ [worktree]
      rows := reconcile.rows ++ [row] }
  rows : after.rows = registry.rows ++ [row]
  lists : after.lists = registry.lists

variable (registry : WorktreeRegistry)

theorem handleIn_eq (root : ApprovedRoot) (allowedRootId : String) (representable : Bool)
    (path : String) : ∃ handle handles, registry.handleIn root allowedRootId representable path =
      (handle, { registry with handles }) := by
  unfold WorktreeRegistry.handleIn
  split
  · split
    · exact ⟨_, _, rfl⟩
    · exact ⟨_, registry.handles, rfl⟩
  · exact ⟨_, registry.handles, rfl⟩

theorem takesUp (reconcile : Reconcile) (record : GitWorktreeRecord) (left : List GitWorktreeRecord)
    (leads : Leads) : ∃ row worktree, TakesUp registry reconcile record left leads
      (registry.takeUp reconcile record left leads) row worktree := by
  obtain ⟨handle, handles, handled⟩ := handleIn_eq (registry.idFor (resolvedText leads record)).2
    reconcile.root reconcile.input.allowedRootId
    (TextCodec.toDisplayPath record.pathBytes).representable (resolvedText leads record)
  refine ⟨_, WorktreeRegistry.worktreeOf reconcile.input record (resolvedText leads record)
    (registry.idFor (resolvedText leads record)).1 handle, rfl, rfl, rfl, ?_, ?_, ?_, ?_, ?_, ?_, ?_⟩
  all_goals unfold WorktreeRegistry.takeUp
  all_goals simp only [handled, WorktreeRegistry.worktreeOf]
  all_goals unfold WorktreeRegistry.idFor
  all_goals cases found : registry.idByPath (resolvedText leads record) with
    | none => simp
    | some worktreeId => simp [← found]

namespace WorktreeRegistry

variable {registry : WorktreeRegistry}
variable {reconcile : Reconcile}

theorem mem_of_turn {number : Nat} (found : registry.turn number = some reconcile) :
    reconcile ∈ registry.reconciles ∧ reconcile.number = number := by
  unfold turn at found
  split at found
  · exact ⟨List.mem_of_find?_eq_some found, by simpa using List.find?_some found⟩
  · cases found

theorem mem_putBack {changed : Reconcile} (member : reconcile ∈ registry.reconciles)
    (same : changed.number = reconcile.number) {other : Reconcile} :
    other ∈ registry.putBack changed ↔
      other = changed ∨ other ∈ registry.reconciles ∧ other.number ≠ reconcile.number := by
  unfold putBack
  rw [List.mem_map]
  constructor
  · rintro ⟨before, found, rfl⟩
    split
    · exact Or.inl rfl
    · rename_i differ
      exact Or.inr ⟨found, same ▸ differ⟩
  · rintro (rfl | ⟨found, differ⟩)
    · exact ⟨reconcile, member, by rw [if_pos same.symm]⟩
    · exact ⟨other, found, by rw [if_neg (same ▸ differ)]⟩

theorem map_number_putBack (changed : Reconcile) : (registry.putBack changed).map Reconcile.number =
      registry.reconciles.map Reconcile.number := by
  unfold putBack
  rw [List.map_map]
  apply List.map_congr_left
  intro other _
  rw [Function.comp_apply]
  split
  · rename_i same
    exact same.symm
  · rfl

variable {worktree : HostWorktree}

theorem mem_gone :
    worktree ∈ registry.gone reconcile ↔ registry.byId.get? worktree.worktreeId = some worktree ∧
        worktree.repositoryId = reconcile.input.repositoryId ∧
        worktree.worktreeId ∉ reconcile.seen := by
  unfold gone
  rw [List.mem_filter, InsertionMap.mem_values]
  simp

theorem get?_finish {worktreeId : String} :
    (registry.finish reconcile).byId.get? worktreeId = some worktree ↔
      registry.byId.get? worktreeId = some worktree ∧
        (worktree.repositoryId = reconcile.input.repositoryId → worktreeId ∈ reconcile.seen) := by
  have erased : (registry.finish reconcile).byId =
      ((registry.gone reconcile).map HostWorktree.worktreeId).foldl InsertionMap.erase
        registry.byId := by
    rw [List.foldl_map]
    rfl
  rw [erased, InsertionMap.get?_foldl_erase]
  split
  · rename_i taken
    obtain ⟨removed, member, rfl⟩ := List.mem_map.mp taken
    obtain ⟨found, repository, unseen⟩ := mem_gone.mp member
    simp only [reduceCtorEq, false_iff, not_and]
    intro held sighted
    have same : removed = worktree := Option.some.inj (found.symm.trans held)
    exact unseen (sighted (same ▸ repository))
  · rename_i kept
    rw [and_comm, Iff.comm, and_iff_right_iff_imp]
    intro held repository
    by_contra unseen
    have named : worktree.worktreeId = worktreeId := (InsertionMap.get?_eq_some.mp held).2
    exact kept (List.mem_map.mpr ⟨worktree, mem_gone.mpr ⟨named ▸ held, repository, named ▸ unseen⟩,
      named⟩)

end WorktreeRegistry

inductive Moves (registry : WorktreeRegistry) : WorktreeStep → WorktreeRegistry → Prop
  | stays (input : WorktreeStep) (handles : HandleRegistry) (counter : Nat)
      (grown : registry.counter ≤ counter) :
      Moves registry input { registry with handles, counter }
  | starts (input : ReconcileInput) (reconcile : Reconcile) (running : Option Nat)
      (numbered : reconcile.number = registry.started + 1) (unread : reconcile.worktrees = [])
      (empty : reconcile.rows = []) :
      Moves registry (.reconcile input)
        { registry with
          started := registry.started + 1
          reconciles := registry.reconciles ++ [reconcile]
          running }
  | takes (number : Nat) (leads : Leads) (reconcile : Reconcile) (record : GitWorktreeRecord)
      (left : List GitWorktreeRecord) (found : registry.turn number = some reconcile)
      (next : reconcile.left = record :: left) :
      Moves registry (.advance number leads) (registry.takeUp reconcile record left leads)
  | ends (number : Nat) (leads : Leads) (reconcile : Reconcile)
      (found : registry.turn number = some reconcile) (done : reconcile.left = []) :
      Moves registry (.advance number leads) (registry.finish reconcile)

theorem moves (input : WorktreeStep) : Moves registry input (reconciling.next registry input) := by
  have rests : ∀ input, Moves registry input registry := fun input =>
    Moves.stays input registry.handles registry.counter le_rfl
  cases input with
  | advance number leads =>
    show Moves registry (.advance number leads) (registry.advance number leads).1
    unfold WorktreeRegistry.advance
    split
    · exact rests _
    · rename_i reconcile found
      split
      · rename_i done
        exact Moves.ends number leads reconcile found done
      · rename_i record left next
        exact Moves.takes number leads reconcile record left found next
  | reconcile input =>
    unfold Machine.next reconciling
    dsimp only
    split
    · exact rests _
    · unfold WorktreeRegistry.reconcile
      split
      · exact rests _
      · exact Moves.starts input _ _ rfl rfl rfl
  | handles call =>
    unfold Machine.next reconciling
    dsimp only
    split
    · exact rests _
    · exact Moves.stays _ _ registry.counter le_rfl
  | drawId =>
    unfold Machine.next reconciling
    dsimp only
    split
    · exact rests _
    · exact Moves.stays _ registry.handles _ (Nat.le_succ _)

namespace WorktreeRegistry

variable {registry : WorktreeRegistry}
variable {worktreeId : String}

theorem Drawn.grown {after : WorktreeRegistry} (drawn : registry.Drawn worktreeId)
    (grown : registry.counter ≤ after.counter) : after.Drawn worktreeId := by
  obtain ⟨number, bound, same⟩ := drawn
  exact ⟨number, bound.trans grown, same⟩

theorem not_drawn_next : ¬ registry.Drawn (mintedWorktreeId (registry.counter + 1)) := by
  rintro ⟨number, bound, same⟩
  have : registry.counter + 1 = number := mintedWorktreeId_injective same
  omega

theorem Sound.filed_eq (sound : registry.Sound) {path : String} {worktree : HostWorktree}
    (filed : registry.idByPath path = some worktreeId)
    (held : registry.byId.get? worktreeId = some worktree) : worktree.path = path := by
  obtain ⟨other, found, named⟩ := (sound.filed path worktreeId).mp filed
  rw [held] at found
  exact Option.some.inj found ▸ named

end WorktreeRegistry

namespace TakesUp

variable {registry after : WorktreeRegistry} {reconcile : Reconcile} {record : GitWorktreeRecord}
  {left : List GitWorktreeRecord} {leads : Leads} {row : Row} {worktree : HostWorktree}

theorem grown (takes : TakesUp registry reconcile record left leads after row worktree) :
    registry.counter ≤ after.counter := by
  obtain ⟨-, same⟩ | ⟨-, -, grown⟩ := takes.drawn <;> omega

theorem filed_or_fresh (takes : TakesUp registry reconcile record left leads after row worktree) :
    registry.idByPath worktree.path = some worktree.worktreeId ∨
      registry.idByPath worktree.path = none ∧ ¬ registry.Drawn worktree.worktreeId := by
  obtain ⟨filed, -⟩ | ⟨absent, minted, -⟩ := takes.drawn
  · exact Or.inl filed
  · exact Or.inr ⟨absent, minted ▸ WorktreeRegistry.not_drawn_next⟩

theorem drawn_after (takes : TakesUp registry reconcile record left leads after row worktree)
    (sound : registry.Sound) : after.Drawn worktree.worktreeId := by
  obtain ⟨filed, same⟩ | ⟨-, minted, grown⟩ := takes.drawn
  · obtain ⟨other, held, -⟩ := (sound.filed _ _).mp filed
    exact (sound.drawnIds _ other held).grown same.ge
  · exact ⟨registry.counter + 1, grown.ge, minted⟩

theorem path_eq (takes : TakesUp registry reconcile record left leads after row worktree)
    (sound : registry.Sound) {other : HostWorktree}
    (held : registry.byId.get? worktree.worktreeId = some other) :
    registry.idByPath worktree.path = some worktree.worktreeId ∧ other.path = worktree.path := by
  obtain filed | ⟨-, fresh⟩ := takes.filed_or_fresh
  · exact ⟨filed, sound.filed_eq filed held⟩
  · exact absurd (sound.drawnIds _ other held) fresh

end TakesUp

namespace WorktreeRegistry

variable {registry : WorktreeRegistry}
variable {reconcile : Reconcile} {row : Row} {repositoryId : String}

theorem Sound.takeUp (sound : registry.Sound) (member : reconcile ∈ registry.reconciles)
    (record : GitWorktreeRecord) (left : List GitWorktreeRecord) (leads : Leads) :
    (registry.takeUp reconcile record left leads).Sound := by
  obtain ⟨row, worktree, takes⟩ := takesUp registry reconcile record left leads
  have named : row.worktreeId = worktree.worktreeId := by rw [takes.row_eq]
  constructor
  case filed =>
    intro path worktreeId
    rw [takes.idByPath, takes.byId, InsertionMap.get?_set, Function.update_apply]
    split
    · rename_i here
      constructor
      · intro same
        rw [if_pos (Option.some.inj same)]
        exact ⟨worktree, rfl, here.symm⟩
      · rintro ⟨other, held, there⟩
        split at held
        · rename_i same
          exact congrArg some same
        · rename_i differ
          have filed := (sound.filed path worktreeId).mpr ⟨other, held, there⟩
          obtain other | ⟨absent, -⟩ := takes.filed_or_fresh
          · exact absurd (Option.some.inj (other.symm.trans (here ▸ filed))) differ
          · rw [here, absent] at filed
            cases filed
    · rename_i elsewhere
      split
      · rename_i same
        subst same
        constructor
        · intro filed
          obtain ⟨other, held, there⟩ := (sound.filed _ _).mp filed
          exact absurd (there.symm.trans (takes.path_eq sound held).2) elsewhere
        · rintro ⟨other, held, there⟩
          exact absurd (there.symm.trans (Option.some.inj held ▸ rfl)) elsewhere
      · exact sound.filed path worktreeId
  case drawnRows =>
    intro other among
    rw [takes.rows] at among
    obtain before | new := List.mem_append.mp among
    · exact (sound.drawnRows other before).grown takes.grown
    · rw [List.mem_singleton.mp new, named]
      exact takes.drawn_after sound
  case drawnIds =>
    intro worktreeId other held
    rw [takes.byId, InsertionMap.get?_set] at held
    split at held
    · rename_i same
      exact same ▸ takes.drawn_after sound
    · exact (sound.drawnIds worktreeId other held).grown takes.grown
  case numbered =>
    rw [takes.reconciles, map_number_putBack]
    exact sound.numbered
  case started =>
    intro other among
    rw [takes.started]
    obtain rfl | ⟨before, -⟩ := (mem_putBack member (by rfl)).mp among
    · exact sound.started reconcile member
    · exact sound.started other before
  case seen =>
    intro other among
    rw [takes.reconciles] at among
    rw [takes.rows]
    obtain rfl | ⟨before, -⟩ := (mem_putBack member (by rfl)).mp among
    · obtain ⟨same, within⟩ := sound.seen reconcile member
      refine ⟨?_, fun other among => ?_⟩
      · unfold Reconcile.seen at same ⊢
        rw [List.map_append, same, List.map_append, List.map_singleton, List.map_singleton, named]
      · obtain old | new := List.mem_append.mp among
        · exact List.mem_append_left _ (within other old)
        · exact List.mem_append_right _ new
    · obtain ⟨same, within⟩ := sound.seen other before
      exact ⟨same, fun row among => List.mem_append_left _ (within row among)⟩

theorem Sound.finish (sound : registry.Sound) (reconcile : Reconcile) :
    (registry.finish reconcile).Sound := by
  have within : (registry.finish reconcile).reconciles.Sublist registry.reconciles :=
    List.filter_sublist
  constructor
  case filed =>
    intro path worktreeId
    have taken : (registry.finish reconcile).idByPath path =
        if (registry.gone reconcile).any fun worktree => worktree.path = path then none
        else registry.idByPath path := rfl
    rw [taken]
    split
    · rename_i removed
      simp only [reduceCtorEq, false_iff, not_exists, not_and]
      intro worktree held there
      obtain ⟨held, sighted⟩ := get?_finish.mp held
      obtain ⟨other, member, same⟩ := List.any_eq_true.mp removed
      obtain ⟨found, repository, unseen⟩ := mem_gone.mp member
      have filed := (sound.filed path worktreeId).mpr ⟨worktree, held, there⟩
      have also := (sound.filed path _).mpr ⟨other, found, of_decide_eq_true same⟩
      have one : worktreeId = other.worktreeId := Option.some.inj (filed.symm.trans also)
      subst one
      have equal : worktree = other := Option.some.inj (held.symm.trans found)
      exact unseen (sighted (equal ▸ repository))
    · rename_i kept
      rw [sound.filed]
      apply exists_congr
      intro worktree
      rw [get?_finish]
      constructor
      · rintro ⟨held, there⟩
        refine ⟨⟨held, fun repository => ?_⟩, there⟩
        by_contra unseen
        have named : worktree.worktreeId = worktreeId := (InsertionMap.get?_eq_some.mp held).2
        exact kept (List.any_eq_true.mpr ⟨worktree,
          mem_gone.mpr ⟨named ▸ held, repository, named ▸ unseen⟩, decide_eq_true there⟩)
      · rintro ⟨⟨held, -⟩, there⟩
        exact ⟨held, there⟩
  case drawnRows => exact sound.drawnRows
  case drawnIds =>
    intro worktreeId worktree held
    exact sound.drawnIds worktreeId worktree (get?_finish.mp held).1
  case numbered => exact sound.numbered.sublist (within.map _)
  case started => exact fun other among => sound.started other (within.subset among)
  case seen => exact fun other among => sound.seen other (within.subset among)

theorem Sound.next (registry : WorktreeRegistry) (input : WorktreeStep) (sound : registry.Sound) :
    (reconciling.next registry input).Sound := by
  have move := moves registry input
  generalize reconciling.next registry input = after at move ⊢
  cases move with
  | stays input handles counter grown =>
    exact ⟨sound.filed, fun row among => (sound.drawnRows row among).grown grown,
      fun worktreeId worktree held => (sound.drawnIds worktreeId worktree held).grown grown,
      sound.numbered, sound.started, sound.seen⟩
  | starts input reconcile running numbered unread empty =>
    refine ⟨sound.filed, sound.drawnRows, sound.drawnIds, ?_, ?_, ?_⟩
    · rw [List.map_append, List.map_singleton, List.nodup_append]
      refine ⟨sound.numbered, List.nodup_singleton _, ?_⟩
      intro first member second single same
      obtain ⟨other, among, rfl⟩ := List.mem_map.mp member
      have bound := sound.started other among
      rw [List.mem_singleton.mp single, numbered] at same
      omega
    · intro other among
      obtain before | new := List.mem_append.mp among
      · exact (sound.started other before).trans (Nat.le_succ _)
      · rw [List.mem_singleton.mp new, numbered]
    · intro other among
      obtain before | new := List.mem_append.mp among
      · exact sound.seen other before
      · rw [List.mem_singleton.mp new]
        unfold Reconcile.seen
        simp [unread, empty]
  | takes number leads reconcile record left found next =>
    exact sound.takeUp (mem_of_turn found).1 record left leads
  | ends number leads reconcile found done => exact sound.finish reconcile

theorem sound_empty : ({} : WorktreeRegistry).Sound := by
  constructor <;> simp

variable {record : GitWorktreeRecord} {leads : Leads}

theorem live_takeUp (member : reconcile ∈ registry.reconciles) {left : List GitWorktreeRecord}
    {after : WorktreeRegistry} {worktree : HostWorktree}
    (takes : TakesUp registry reconcile record left leads after row worktree)
    (numbered : (registry.reconciles.map Reconcile.number).Nodup) (repositoryId : String)
    (other : Row) : after.Live repositoryId other ↔ registry.Live repositoryId other ∨
      other = row ∧ repositoryId = reconcile.input.repositoryId := by
  unfold Live
  rw [takes.lists, takes.reconciles, or_right_comm]
  apply or_congr_left
  constructor
  · rintro ⟨changed, among, same, within⟩
    obtain rfl | ⟨before, -⟩ := (mem_putBack member (by rfl)).mp among
    · obtain old | new := List.mem_append.mp within
      · exact Or.inl ⟨reconcile, member, same, old⟩
      · exact Or.inr ⟨List.mem_singleton.mp new, same.symm⟩
    · exact Or.inl ⟨changed, before, same, within⟩
  · rintro (⟨before, among, same, within⟩ | ⟨rfl, rfl⟩)
    · by_cases here : before.number = reconcile.number
      · obtain rfl : before = reconcile := List.inj_on_of_nodup_map numbered among member here
        exact ⟨_, (mem_putBack member (by rfl)).mpr (Or.inl rfl), same,
          List.mem_append_left _ within⟩
      · exact ⟨before, (mem_putBack member (by rfl)).mpr (Or.inr ⟨among, here⟩), same, within⟩
    · exact ⟨_, (mem_putBack member (by rfl)).mpr (Or.inl rfl), rfl,
        List.mem_append_right _ (List.mem_singleton_self _)⟩

theorem live_finish : (registry.finish reconcile).Live repositoryId row ↔
      (∃ other ∈ registry.reconciles, other.number ≠ reconcile.number ∧
        other.input.repositoryId = repositoryId ∧ row ∈ other.rows) ∨
      if repositoryId = reconcile.input.repositoryId then row ∈ reconcile.rows
      else ∃ last, (registry.lists repositoryId).getLast? = some last ∧ row ∈ last := by
  unfold Live finish
  apply or_congr
  · simp only [List.mem_filter, decide_eq_true_eq, and_assoc]
  · dsimp only
    rw [Function.update_apply]
    split
    · rename_i same
      simp
    · exact Iff.rfl

theorem live_of_finish (member : reconcile ∈ registry.reconciles)
    (live : (registry.finish reconcile).Live repositoryId row) :
    registry.Live repositoryId row := by
  obtain ⟨other, among, -, same, within⟩ | last := live_finish.mp live
  · exact Or.inl ⟨other, among, same, within⟩
  · split at last
    · rename_i same
      exact Or.inl ⟨reconcile, member, same.symm, last⟩
    · exact Or.inr last

theorem Kept.live_same (kept : registry.Kept) (sound : registry.Sound) {first second : Row}
    (left : registry.Live repositoryId first) (right : registry.Live repositoryId second)
    (same : first.place = second.place) : first.worktreeId = second.worktreeId := by
  obtain ⟨worktree, held, -, there⟩ := kept.held repositoryId first left
  obtain ⟨other, also, -, here⟩ := kept.held repositoryId second right
  have filed := (sound.filed _ _).mpr ⟨worktree, held, there⟩
  have again := (sound.filed _ _).mpr ⟨other, also, here⟩
  rw [kept.texts repositoryId first second left right same, again] at filed
  exact (Option.some.inj filed).symm

/-- An id is on file for the text of a row that counts, so where a row of the text fits, all that
were given the id lead to its place. -/
theorem Kept.fits_filed (kept : registry.Kept) (sound : registry.Sound) {place : Bytes}
    {path : String} (fits : registry.RowFits repositoryId place path)
    (filed : registry.idByPath path = some worktreeId) :
    (∀ row ∈ registry.rows, row.worktreeId = worktreeId → row.place = place) ∧
      ∀ worktree, registry.byId.get? worktreeId = some worktree →
        worktree.repositoryId = repositoryId := by
  obtain ⟨worktree, held, named⟩ := (sound.filed path worktreeId).mp filed
  obtain ⟨row, live, same⟩ := kept.accounted worktreeId worktree held
  obtain ⟨other, found, -, text⟩ := kept.held _ row live
  cases (same ▸ found).symm.trans held
  obtain ⟨listed, repository⟩ := kept.recorded _ row live
  rw [← repository] at live
  obtain ⟨owner, placed⟩ := fits.one row listed live (text.symm.trans named)
  refine ⟨fun other among again => ?_, fun other also => ?_⟩
  · exact (kept.onePath other among row listed (again.trans same.symm)).trans placed
  · cases also.symm.trans held
    exact repository.symm.trans owner

theorem Kept.takeUp (kept : registry.Kept) (sound : registry.Sound)
    (member : reconcile ∈ registry.reconciles) (left : List GitWorktreeRecord)
    (fits : registry.RowFits reconcile.input.repositoryId (placeOf leads record)
      (resolvedText leads record)) : (registry.takeUp reconcile record left leads).Kept := by
  obtain ⟨row, worktree, takes⟩ := takesUp registry reconcile record left leads
  have named : row.worktreeId = worktree.worktreeId := by rw [takes.row_eq]
  have placed : row.place = placeOf leads record := by rw [takes.row_eq]
  have text : row.path = worktree.path := by rw [takes.row_eq, takes.path]
  have live := live_takeUp member takes sound.numbered
  have before : ∀ other ∈ registry.rows, other.worktreeId = row.worktreeId →
      other.place = row.place := by
    intro other among same
    rw [named] at same
    rw [placed]
    obtain filed | ⟨-, fresh⟩ := takes.filed_or_fresh
    · exact (kept.fits_filed sound fits (takes.path ▸ filed)).1 other among same
    · exact absurd (same ▸ sound.drawnRows other among) fresh
  constructor
  case onePath =>
    intro first left second right same
    rw [takes.rows] at left right
    simp only [List.mem_append, List.mem_singleton] at left right
    obtain left | rfl := left
    · obtain right | rfl := right
      · exact kept.onePath first left second right same
      · exact before first left same
    · obtain right | rfl := right
      · exact (before second right same.symm).symm
      · rfl
  case held =>
    intro repositoryId other counts
    rw [takes.byId, InsertionMap.get?_set]
    obtain old | ⟨rfl, rfl⟩ := (live repositoryId other).mp counts
    · obtain ⟨held, found, repository, there⟩ := kept.held repositoryId other old
      split
      · rename_i same
        rw [← same] at found
        obtain ⟨filed, equal⟩ := takes.path_eq sound found
        refine ⟨worktree, rfl, ?_, equal ▸ there⟩
        rw [takes.repository, ← repository]
        exact ((kept.fits_filed sound fits (takes.path ▸ filed)).2 held found).symm
      · exact ⟨held, found, repository, there⟩
    · exact ⟨worktree, by rw [if_pos named.symm], takes.repository, text.symm⟩
  case recorded =>
    intro repositoryId other counts
    rw [takes.rows]
    obtain old | ⟨rfl, rfl⟩ := (live repositoryId other).mp counts
    · exact (kept.recorded repositoryId other old).imp_left (List.mem_append_left _)
    · exact ⟨List.mem_append_right _ List.mem_cons_self, by rw [takes.row_eq]⟩
  case texts =>
    intro repositoryId first second left right same
    have new : ∀ other, registry.Live reconcile.input.repositoryId other →
        other.place = row.place → other.path = row.path := by
      intro other counts same
      rw [text, takes.path]
      exact fits.text other (kept.recorded _ other counts).1 counts (same.trans placed)
    obtain left | ⟨rfl, rfl⟩ := (live repositoryId first).mp left
    · obtain right | ⟨rfl, rfl⟩ := (live repositoryId second).mp right
      · exact kept.texts repositoryId first second left right same
      · exact new first left same
    · obtain right | ⟨rfl, -⟩ := (live _ second).mp right
      · exact (new second right same.symm).symm
      · rfl
  case accounted =>
    intro worktreeId other held
    rw [takes.byId, InsertionMap.get?_set] at held
    split at held
    · rename_i same
      obtain rfl := Option.some.inj held
      exact ⟨row, (live _ row).mpr (Or.inr ⟨rfl, takes.repository⟩), named.trans same⟩
    · obtain ⟨old, counts, same⟩ := kept.accounted worktreeId other held
      exact ⟨old, (live _ old).mpr (Or.inl counts), same⟩
  case steady =>
    rw [takes.lists]
    exact kept.steady

theorem Kept.finish (kept : registry.Kept) (sound : registry.Sound)
    (member : reconcile ∈ registry.reconciles) (spares : registry.Spares reconcile) :
    (registry.finish reconcile).Kept := by
  constructor
  case onePath => exact kept.onePath
  case held =>
    intro repositoryId row counts
    obtain ⟨worktree, held, repository, there⟩ :=
      kept.held repositoryId row (live_of_finish member counts)
    refine ⟨worktree, get?_finish.mpr ⟨held, fun same => ?_⟩, repository, there⟩
    have seen : ∀ other ∈ registry.reconciles, row ∈ other.rows → row.worktreeId ∈ other.seen := by
      intro other among within
      rw [(sound.seen other among).1]
      exact List.mem_map_of_mem within
    obtain ⟨other, among, differ, also, within⟩ | last := live_finish.mp counts
    · exact spares other among differ (by rw [also, ← repository, same]) _ (seen other among within)
    · rw [if_pos (repository.symm.trans same)] at last
      exact seen reconcile member last
  case recorded =>
    intro repositoryId row counts
    exact kept.recorded repositoryId row (live_of_finish member counts)
  case texts =>
    intro repositoryId first second left right same
    exact kept.texts repositoryId first second (live_of_finish member left)
      (live_of_finish member right) same
  case accounted =>
    intro worktreeId worktree held
    obtain ⟨held, sighted⟩ := get?_finish.mp held
    by_cases here : worktree.repositoryId = reconcile.input.repositoryId
    · have within := sighted here
      rw [(sound.seen reconcile member).1] at within
      obtain ⟨row, among, same⟩ := List.mem_map.mp within
      exact ⟨row, live_finish.mpr (Or.inr (by rw [if_pos here]; exact among)), same⟩
    · obtain ⟨row, counts, same⟩ := kept.accounted worktreeId worktree held
      refine ⟨row, live_finish.mpr ?_, same⟩
      obtain ⟨other, among, repository, within⟩ | last := counts
      · refine Or.inl ⟨other, among, fun one => here ?_, repository, within⟩
        rw [← repository, List.inj_on_of_nodup_map sound.numbered among member one]
      · exact Or.inr (by rw [if_neg here]; exact last)
  case steady =>
    intro repositoryId front first second back lists
    unfold WorktreeRegistry.finish at lists
    dsimp only at lists
    rw [Function.update_apply] at lists
    split at lists
    · rename_i here
      subst here
      obtain rfl | ⟨rest, last, rfl⟩ := List.eq_nil_or_concat back
      · have split : registry.lists reconcile.input.repositoryId ++ [reconcile.rows] =
            (front ++ [first]) ++ [second] := by
          rw [lists, List.append_assoc]
          rfl
        obtain ⟨before, rows⟩ := List.append_inj' split rfl
        obtain rfl : reconcile.rows = second := List.head_eq_of_cons_eq rows
        intro row among other within same
        refine kept.live_same sound (Or.inr ⟨first, ?_, among⟩)
          (Or.inl ⟨reconcile, member, rfl, within⟩) same
        rw [before, List.getLast?_concat]
      · have split : registry.lists reconcile.input.repositoryId ++ [reconcile.rows] =
            (front ++ first :: second :: rest) ++ [last] := by
          rw [lists]
          simp
        exact kept.steady _ front first second rest (List.append_inj' split rfl).1
    · exact kept.steady repositoryId front first second back lists

theorem Kept.next (registry : WorktreeRegistry) (input : WorktreeStep)
    (held : registry.Sound ∧ registry.Kept) (fits : registry.Fits input) :
    (reconciling.next registry input).Kept := by
  obtain ⟨sound, kept⟩ := held
  have move := moves registry input
  generalize reconciling.next registry input = after at move ⊢
  cases move with
  | stays input handles counter grown =>
    exact { kept with }
  | starts input reconcile running numbered unread empty =>
    have live : ∀ repositoryId row, Live
        { registry with
          started := registry.started + 1
          reconciles := registry.reconciles ++ [reconcile]
          running } repositoryId row ↔ registry.Live repositoryId row := by
      intro repositoryId row
      unfold Live
      simp [or_and_right, exists_or, empty]
    refine ⟨kept.onePath, ?_, ?_, ?_, ?_, kept.steady⟩
    · exact fun repositoryId row counts => kept.held repositoryId row ((live _ _).mp counts)
    · exact fun repositoryId row counts => kept.recorded repositoryId row ((live _ _).mp counts)
    · exact fun repositoryId first second left right =>
        kept.texts repositoryId first second ((live _ _).mp left) ((live _ _).mp right)
    · intro worktreeId worktree found
      obtain ⟨row, counts, same⟩ := kept.accounted worktreeId worktree found
      exact ⟨row, (live _ _).mpr counts, same⟩
  | takes number leads reconcile record left found next =>
    have rowFits := (fits reconcile found).2 record (by rw [next]; rfl)
    exact kept.takeUp sound (mem_of_turn found).1 left rowFits
  | ends number leads reconcile found done =>
    exact kept.finish sound (mem_of_turn found).1 ((fits reconcile found).1 done)

theorem kept_empty : ({} : WorktreeRegistry).Kept := by
  constructor <;> simp [Live]

theorem Kept.steady_id (kept : registry.Kept) (sound : registry.Sound) {place : Bytes}
    {front back : List (List Row)} (lists : registry.lists repositoryId = front ++ back)
    (some : back ≠ []) (always : ∀ rows ∈ back, ∃ row ∈ rows, row.place = place) :
    ∃ worktreeId, (∀ rows ∈ back, ∀ row ∈ rows, row.place = place → row.worktreeId = worktreeId) ∧
      ∃ row, registry.Live repositoryId row ∧ row.worktreeId = worktreeId := by
  induction back generalizing front with
  | nil => exact absurd rfl some
  | cons first rest ih =>
    cases rest with
    | nil =>
      obtain ⟨row, among, here⟩ := always first (List.mem_singleton_self first)
      have live : ∀ row ∈ first, registry.Live repositoryId row := by
        intro row among
        exact Or.inr ⟨first, by rw [lists, List.getLast?_concat], among⟩
      refine ⟨row.worktreeId, ?_, row, live row among, rfl⟩
      intro rows only other within there
      obtain rfl := List.mem_singleton.mp only
      exact kept.live_same sound (live other within) (live row among) (there.trans here.symm)
    | cons second rest =>
      have later : registry.lists repositoryId = (front ++ [first]) ++ second :: rest := by
        rw [lists, List.append_assoc]
        rfl
      obtain ⟨worktreeId, one, live⟩ := ih later (List.cons_ne_nil _ _)
        fun rows among => always rows (List.mem_cons_of_mem _ among)
      refine ⟨worktreeId, ?_, live⟩
      intro rows among row within here
      obtain rfl | behind := List.mem_cons.mp among
      · obtain ⟨other, follows, there⟩ :=
          always second (List.mem_cons_of_mem _ List.mem_cons_self)
        rw [kept.steady repositoryId front rows second rest lists row within other follows
          (here.trans there.symm)]
        exact one second List.mem_cons_self other follows there
      · exact one rows behind row within here

theorem Kept.namesPaths (kept : registry.Kept) (sound : registry.Sound) : registry.NamesPaths := by
  constructor
  case onePath => exact kept.onePath
  case keepsId =>
    intro repositoryId front back lists some place always
    obtain ⟨worktreeId, one, row, live, rfl⟩ := kept.steady_id sound lists some always
    obtain ⟨worktree, held, repository, -⟩ := kept.held repositoryId row live
    refine ⟨row.worktreeId, one, worktree, held, ?_⟩
    unfold require
    dsimp only
    rw [held]
    exact if_pos repository
  case listed =>
    intro repositoryId idle worktreeId path
    have last : ∀ row, registry.Live repositoryId row ↔
        ∃ last, (registry.lists repositoryId).getLast? = some last ∧ row ∈ last := by
      intro row
      apply or_iff_right
      rintro ⟨reconcile, member, same, -⟩
      exact idle reconcile member same
    have listed : ∀ worktree, worktree ∈ registry.list repositoryId ↔
        registry.byId.get? worktree.worktreeId = some worktree ∧
          worktree.repositoryId = repositoryId := by
      intro worktree
      unfold list
      rw [List.mem_filter, InsertionMap.mem_values, decide_eq_true_eq]
    constructor
    · rintro ⟨worktree, member, rfl, rfl⟩
      obtain ⟨found, rfl⟩ := (listed worktree).mp member
      obtain ⟨row, live, same⟩ := kept.accounted _ worktree found
      obtain ⟨held, also, -, there⟩ := kept.held _ row live
      rw [same, found] at also
      obtain rfl := Option.some.inj also
      obtain ⟨rows, returned, among⟩ := (last row).mp live
      exact ⟨rows, returned, row, among, same, there.symm⟩
    · rintro ⟨rows, returned, row, among, rfl, rfl⟩
      obtain ⟨worktree, found, repository, there⟩ :=
        kept.held repositoryId row ((last row).mpr ⟨rows, returned, among⟩)
      have named : worktree.worktreeId = row.worktreeId := (InsertionMap.get?_eq_some.mp found).2
      exact ⟨worktree, (listed worktree).mpr ⟨named ▸ found, repository⟩, named, there⟩

end WorktreeRegistry

theorem worktree_ids_name_paths (steps : List WorktreeStep)
    (fits : reconciling.Meets WorktreeRegistry.Fits {} steps) :
    (reconciling.after {} steps).NamesPaths := by
  have held : (reconciling.after {} steps).Sound ∧ (reconciling.after {} steps).Kept :=
    reconciling.invariant_of_step (fun registry => registry.Sound ∧ registry.Kept)
      (fun registry input held fits => ⟨WorktreeRegistry.Sound.next registry input held.1,
        WorktreeRegistry.Kept.next registry input held fits⟩)
      ⟨WorktreeRegistry.sound_empty, WorktreeRegistry.kept_empty⟩ fits
  exact held.2.namesPaths held.1

def asIs : Leads := some

def detachedAt (path : Bytes) : GitWorktreeRecord where
  pathBytes := path
  headOid := none
  branchRef := none
  bare := false
  detached := true
  locked := false
  lockReasonBytes := none
  prunable := false

def approveWork : WorktreeStep :=
  .handles (.approveRoot "root_1" "/work" none (HandleRegistry.onlyPath work))

def reconcileWork (paths : List Bytes) : WorktreeStep :=
  .reconcile
    { repositoryId := "repo_1"
      allowedRootId := "root_1"
      records := paths.map detachedAt
      primaryPath := some "/work" }

def workPath : Bytes := Utf8.encode "/work".toList

def besidePath : Bytes := Utf8.encode "/work/b".toList

def twoRows : List Row :=
  [⟨"repo_1", workPath, "/work", "wt_1"⟩, ⟨"repo_1", besidePath, "/work/b", "wt_2"⟩]

/-- Two reconciles of one repository; the second is under way when the first ends. -/
def takingTurns : List WorktreeStep :=
  [approveWork, reconcileWork [workPath, besidePath], .advance 1 asIs,
    reconcileWork [workPath, besidePath], .advance 2 asIs, .advance 1 asIs, .advance 1 asIs,
    .advance 2 asIs, .advance 2 asIs]

theorem worktree_ids_name_paths_work :
    (reconciling.after {} takingTurns).lists "repo_1" = [twoRows, twoRows] ∧
      (reconciling.after {} takingTurns).NamesPaths :=
  ⟨by decide +kernel, worktree_ids_name_paths takingTurns (by decide +kernel)⟩

/-- A byte that is not text, and a path that is spelled as the byte is shown. -/
def alike : List WorktreeStep :=
  [approveWork, reconcileWork [workPath ++ [0x2f, 0xff], workPath ++ Utf8.encode "/\\xff".toList],
    .advance 1 asIs, .advance 1 asIs, .advance 1 asIs]

/-- A reconcile that has not seen a path ends while another one that has goes on. -/
def overlapping : List WorktreeStep :=
  [approveWork, reconcileWork [besidePath, workPath], reconcileWork [workPath],
    .advance 1 asIs, .advance 2 asIs, .advance 2 asIs, .advance 1 asIs, .advance 1 asIs]

theorem not_namesPaths_alike_overlapping : ¬ (reconciling.after {} alike).NamesPaths ∧
      ¬ (reconciling.after {} overlapping).NamesPaths := by
  constructor
  · intro names
    have first : ⟨"repo_1", workPath ++ [0x2f, 0xff], "/work/\\xff", "wt_1"⟩ ∈
        (reconciling.after {} alike).rows := by decide +kernel
    have second : ⟨"repo_1", workPath ++ Utf8.encode "/\\xff".toList, "/work/\\xff", "wt_1"⟩ ∈
        (reconciling.after {} alike).rows := by decide +kernel
    have same := names.onePath _ first _ second rfl
    exact absurd same (by decide +kernel)
  · intro names
    have returned : (reconciling.after {} overlapping).lists "repo_1" =
        [[⟨"repo_1", workPath, "/work", "wt_2"⟩]] ++ [[⟨"repo_1", besidePath, "/work/b", "wt_1"⟩,
          ⟨"repo_1", workPath, "/work", "wt_2"⟩]] := by
      decide +kernel
    have absent : (reconciling.after {} overlapping).get "wt_1" = none := by decide +kernel
    obtain ⟨worktreeId, one, worktree, held, -⟩ :=
      names.keepsId "repo_1" [_] [_] returned (List.cons_ne_nil _ _) besidePath (by
        intro rows only
        rw [List.mem_singleton.mp only]
        exact ⟨_, List.mem_cons_self, rfl⟩)
    have named := one _ (List.mem_singleton_self _) _ List.mem_cons_self rfl
    rw [← named, absent] at held
    cases held

end Refyard.HostWorktrees
