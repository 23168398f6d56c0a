import Refyard.Graph.Pages

/-! What holds of the lanes in every row, and from a commit down to its parents. -/
namespace Refyard

/-- Live tracks that occupy slots of their own, and the slots known to be occupied. -/
structure TracksApart (tracks : List LaneRef × Finset Nat) : Prop where
  distinct : (tracks.1.map LaneRef.position).Nodup
  occupied : ∀ lane ∈ tracks.1, lane.position ∈ tracks.2

variable (options : LayoutOptions) {inputLanes lanes : List LaneRef}
variable {tracks : List LaneRef × Finset Nat} {commit : GraphCommit} {lane : LaneRef}

theorem openParent_spec (apart : TracksApart tracks) (parentId : String) :
    TracksApart (openParent options tracks parentId) ∧
      tracks.2 ⊆ (openParent options tracks parentId).2 ∧
      (∃ opened, (openParent options tracks parentId).1 = tracks.1 ++ opened ∧
        ∀ lane ∈ opened, lane.position ∉ tracks.2) ∧
      ∃ lane ∈ (openParent options tracks parentId).1, lane.id = parentId := by
  unfold openParent freeSlot
  split
  · rename_i live
    obtain ⟨lane, member, same⟩ := List.any_eq_true.mp live
    exact ⟨apart, Finset.Subset.refl _, ⟨[], by simp, by simp⟩, lane, member, by simpa using same⟩
  · have unused := Slots.free_notMem tracks.2
    refine ⟨⟨?_, ?_⟩, Finset.subset_insert _ _, ⟨_, rfl, ?_⟩, ?_⟩
    · rw [List.map_append, List.nodup_append]
      refine ⟨apart.distinct, by simp, ?_⟩
      intro position held other opened same
      obtain ⟨lane, member, rfl⟩ := List.mem_map.mp held
      rw [List.map_singleton, List.mem_singleton] at opened
      refine unused ?_
      rw [← show lane.position = Slots.free tracks.2 from same.trans opened]
      exact apart.occupied lane member
    · intro lane member
      rcases List.mem_append.mp member with held | opened
      · exact Finset.mem_insert_of_mem (apart.occupied lane held)
      · rw [List.mem_singleton.mp opened]
        exact Finset.mem_insert_self _ _
    · intro lane opened
      rw [List.mem_singleton.mp opened]
      exact unused
    · simp

/-- Opening parents keeps every live track, takes free slots only, and leaves a track for
each parent. -/
theorem openParents_spec (apart : TracksApart tracks) (parentIds : List String) :
    TracksApart (parentIds.foldl (openParent options) tracks) ∧
      (∃ opened, (parentIds.foldl (openParent options) tracks).1 = tracks.1 ++ opened ∧
        ∀ lane ∈ opened, lane.position ∉ tracks.2) ∧ ∀ parentId ∈ parentIds,
        ∃ lane ∈ (parentIds.foldl (openParent options) tracks).1, lane.id = parentId := by
  induction parentIds generalizing tracks with
  | nil => exact ⟨apart, ⟨[], by simp, by simp⟩, by simp⟩
  | cons parentId rest ih =>
    obtain ⟨next, wider, ⟨opened, added, free⟩, lane, member, same⟩ :=
      openParent_spec options apart parentId
    obtain ⟨all, ⟨later, addedLater, freeLater⟩, each⟩ := ih next
    rw [List.foldl_cons]
    refine ⟨all, ⟨opened ++ later, ?_, ?_⟩, ?_⟩
    · rw [addedLater, added, List.append_assoc]
    · intro other inside
      rcases List.mem_append.mp inside with now | afterwards
      · exact free other now
      · exact fun held => freeLater other afterwards (wider held)
    · intro other inside
      rcases List.mem_cons.mp inside with rfl | inside
      · refine ⟨lane, ?_, same⟩
        rw [addedLater]
        exact List.mem_append_left _ member
      · exact each other inside

/-- What one row does to the lanes. A slot that is taken above and below the row keeps
its lane, unless the row's own commit was awaited there and its first parent follows. -/
structure RowSound (row : GraphRow) : Prop where
  inputsApart : (row.inputLanes.map LaneRef.position).Nodup
  outputsApart : (row.outputLanes.map LaneRef.position).Nodup
  passes : ∀ lane ∈ row.inputLanes, lane.id ≠ row.id → lane ∈ row.outputLanes
  keeps : ∀ above ∈ row.inputLanes, ∀ below ∈ row.outputLanes, above.position = below.position →
    below = above ∨ above.id = row.id ∧ row.parentIds.head? = some below.id ∧
        below.position = row.laneIndex ∧ below.color = row.laneColor
  parents : ∀ parentId ∈ row.parentIds, ∃ lane ∈ row.outputLanes, lane.id = parentId

/-- The row's own slot is awaited above, or free. -/
theorem commitSlot_spec (commit : GraphCommit) (apart : (inputLanes.map LaneRef.position).Nodup) :
    (commitSlot inputLanes commit).1 ∈ (commitSlot inputLanes commit).2 ∧
      (∀ lane ∈ inputLanes, lane.position ∈ (commitSlot inputLanes commit).2) ∧
      ∀ lane ∈ inputLanes, lane.position = (commitSlot inputLanes commit).1 →
        lane.id = commit.id := by
  have listed : ∀ lane ∈ inputLanes,
      lane.position ∈ (inputLanes.map LaneRef.position).toFinset := by
    intro lane inside
    rw [List.mem_toFinset]
    exact List.mem_map_of_mem inside
  unfold commitSlot
  cases found : inputLanes.find? fun lane => lane.id = commit.id with
  | some awaited =>
    have member := List.mem_of_find?_eq_some found
    have same : awaited.id = commit.id := by simpa using List.find?_some found
    refine ⟨listed awaited member, listed, ?_⟩
    intro lane inside aligned
    rw [List.inj_on_of_nodup_map apart inside member aligned]
    exact same
  | none =>
    refine ⟨Finset.mem_insert_self _ _, ?_, ?_⟩
    · intro lane inside
      exact Finset.mem_insert_of_mem (listed lane inside)
    · intro lane inside aligned
      refine absurd (listed lane inside) ?_
      rw [aligned]
      exact Slots.free_notMem _

theorem mem_survivingTracks {options : LayoutOptions}
    (h : lane ∈ (survivingTracks options inputLanes commit).1) :
    (lane ∈ inputLanes ∧ lane.id ≠ commit.id) ∨
      commit.parentIds.head? = some lane.id ∧ lane.position = (commitSlot inputLanes commit).1 ∧
        lane.color = commitColor options inputLanes commit (commitSlot inputLanes commit).1 := by
  rcases List.mem_append.mp h with survivor | first
  · exact .inl (by simpa using List.mem_filter.mp survivor)
  · right
    unfold firstParentLane at first
    split at first
    · simp at first
    · rename_i parentId rest parents
      rw [List.mem_singleton.mp first, parents]
      exact ⟨rfl, rfl, rfl⟩

theorem survivingTracks_apart (apart : (inputLanes.map LaneRef.position).Nodup)
    (commit : GraphCommit) : TracksApart (survivingTracks options inputLanes commit) := by
  obtain ⟨own, held, mine⟩ := commitSlot_spec commit apart
  constructor
  · unfold survivingTracks
    rw [List.map_append, List.nodup_append]
    refine ⟨(List.filter_sublist.map _).nodup apart, ?_, ?_⟩
    · unfold firstParentLane
      split <;> simp
    · intro position above other below same
      obtain ⟨lane, inside, rfl⟩ := List.mem_map.mp above
      obtain ⟨first, parent, rfl⟩ := List.mem_map.mp below
      obtain ⟨entered, differs⟩ : lane ∈ inputLanes ∧ lane.id ≠ commit.id := by
        simpa using List.mem_filter.mp inside
      refine differs (mine lane entered (same.trans ?_))
      unfold firstParentLane at parent
      split at parent
      · simp at parent
      · rw [List.mem_singleton.mp parent]
  · intro lane inside
    rcases mem_survivingTracks inside with ⟨entered, -⟩ | ⟨-, placed, -⟩
    · exact held lane entered
    · rw [placed]
      exact own

theorem layoutRow_sound (apart : (inputLanes.map LaneRef.position).Nodup) (commit : GraphCommit) :
    RowSound (layoutRow options inputLanes commit) := by
  obtain ⟨own, held, mine⟩ := commitSlot_spec commit apart
  obtain ⟨after, ⟨opened, added, free⟩, each⟩ := openParents_spec options
    (survivingTracks_apart options apart commit) (commit.parentIds.drop 1)
  have leaving : ∀ lane, lane ∈ (layoutRow options inputLanes commit).outputLanes ↔
      lane ∈ (survivingTracks options inputLanes commit).1 ∨ lane ∈ opened := by
    intro lane
    unfold layoutRow leavingLanes
    rw [List.mem_insertionSort, added, List.mem_append]
  constructor
  · exact apart
  · unfold layoutRow leavingLanes
    rw [((List.perm_insertionSort _ _).map _).nodup_iff]
    exact after.distinct
  · intro lane entered differs
    refine (leaving lane).mpr (.inl (List.mem_append_left _ ?_))
    exact List.mem_filter.mpr ⟨entered, decide_eq_true differs⟩
  · intro above entered below left aligned
    rcases (leaving below).mp left with survivor | new
    · rcases mem_survivingTracks survivor with ⟨alsoEntered, -⟩ | ⟨first, placed, colored⟩
      · exact .inl (List.inj_on_of_nodup_map apart alsoEntered entered aligned.symm)
      · exact .inr ⟨mine above entered (aligned.trans placed), first, placed, colored⟩
    · exact absurd (aligned ▸ held above entered) (free below new)
  · intro parentId listed
    cases parents : commit.parentIds with
    | nil => simp [layoutRow, parents] at listed
    | cons first rest =>
      simp only [layoutRow, parents, List.mem_cons] at listed
      rcases listed with rfl | further
      · let color := commitColor options inputLanes commit (commitSlot inputLanes commit).1
        refine ⟨⟨parentId, color, (commitSlot inputLanes commit).1⟩, ?_, rfl⟩
        refine (leaving _).mpr (.inl (List.mem_append_right _ ?_))
        simp [firstParentLane, parents, color]
      · obtain ⟨lane, member, same⟩ := each parentId (by simpa [parents] using further)
        refine ⟨lane, ?_, same⟩
        rw [added, List.mem_append] at member
        exact (leaving lane).mpr member

def ParentsLater (commits : List GraphCommit) : Prop :=
  (commits.Pairwise fun earlier later => earlier.id ∉ later.parentIds) ∧
    ∀ commit ∈ commits, commit.id ∉ commit.parentIds

instance (commits : List GraphCommit) : Decidable (ParentsLater commits) :=
  inferInstanceAs (Decidable (_ ∧ _))

/-- One lane runs on through the rows, to the first row of its commit or else out of the
last one. -/
def RunsDown (lane : LaneRef) (continuation : List LaneRef) : List GraphRow → Prop
  | [] => lane ∈ continuation
  | row :: rest =>
      lane ∈ row.inputLanes ∧
        (row.id = lane.id ∨ lane ∈ row.outputLanes ∧ RunsDown lane continuation rest)

theorem rowsFrom_sound (apart : (lanes.map LaneRef.position).Nodup) (commits : List GraphCommit) :
    ∀ row ∈ rowsFrom options lanes commits, RowSound row := by
  induction commits generalizing lanes with
  | nil => simp [rowsFrom]
  | cons commit rest ih =>
    have sound := layoutRow_sound options apart commit
    intro row inside
    rcases List.mem_cons.mp inside with rfl | later
    · exact sound
    · exact ih sound.outputsApart row later

theorem rowsFrom_linked (lanes : List LaneRef) (commits : List GraphCommit) :
    (rowsFrom options lanes commits).IsChain fun upper lower =>
      upper.outputLanes = lower.inputLanes := by
  induction commits generalizing lanes with
  | nil => simp [rowsFrom]
  | cons commit rest ih =>
    cases rest with
    | nil => simp [rowsFrom]
    | cons next rest =>
      have tail := ih (layoutRow options lanes commit).outputLanes
      exact List.isChain_cons_cons.mpr ⟨rfl, tail⟩

theorem runsDown (apart : (lanes.map LaneRef.position).Nodup) (live : lane ∈ lanes)
    (commits : List GraphCommit) :
    RunsDown lane (lanesAfter options lanes commits) (rowsFrom options lanes commits) := by
  induction commits generalizing lanes with
  | nil => exact live
  | cons commit rest ih =>
    have sound := layoutRow_sound options apart commit
    refine ⟨live, ?_⟩
    by_cases arrives : commit.id = lane.id
    · exact .inl arrives
    · have passed := sound.passes lane live (Ne.symm arrives)
      exact .inr ⟨passed, ih sound.outputsApart passed⟩

theorem rowsFrom_split (apart : (lanes.map LaneRef.position).Nodup) {commits : List GraphCommit}
    {above below : List GraphRow} {row : GraphRow}
    (parts : rowsFrom options lanes commits = above ++ row :: below) :
    ∃ entering before commit rest, (entering.map LaneRef.position).Nodup ∧
      commits = before ++ commit :: rest ∧ row = layoutRow options entering commit ∧
      below = rowsFrom options row.outputLanes rest ∧
      lanesAfter options lanes commits = lanesAfter options row.outputLanes rest := by
  induction commits generalizing lanes above with
  | nil => simp [rowsFrom] at parts
  | cons commit rest ih =>
    have sound := layoutRow_sound options apart commit
    unfold rowsFrom at parts
    cases above with
    | nil =>
      rw [List.nil_append, List.cons.injEq] at parts
      obtain ⟨rfl, rfl⟩ := parts
      exact ⟨lanes, [], commit, rest, apart, rfl, rfl, rfl, rfl⟩
    | cons first above =>
      rw [List.cons_append, List.cons.injEq] at parts
      obtain ⟨entering, before, found, later, distinct, split, laid, same, ends⟩ :=
        ih sound.outputsApart parts.2
      refine ⟨entering, commit :: before, found, later, distinct, ?_, laid, same, ends⟩
      rw [split, List.cons_append]

theorem rowsFrom_commits (lanes : List LaneRef) (commits : List GraphCommit) :
    (rowsFrom options lanes commits).map (fun row => (row.id, row.parentIds)) =
      commits.map fun commit => (commit.id, commit.parentIds) := by
  induction commits generalizing lanes with
  | nil => rfl
  | cons commit rest ih => simp only [rowsFrom, List.map_cons, ih, layoutRow]

theorem ParentsLater.below {before rest : List GraphCommit}
    (ordered : ParentsLater (before ++ commit :: rest)) {parentId : String}
    (parent : parentId ∈ commit.parentIds)
    (listed : parentId ∈ (before ++ commit :: rest).map GraphCommit.id) :
    parentId ∈ rest.map GraphCommit.id := by
  obtain ⟨pairs, each⟩ := ordered
  obtain ⟨-, -, across⟩ := List.pairwise_append.mp pairs
  rw [List.map_append, List.map_cons, List.mem_append, List.mem_cons] at listed
  rcases listed with earlier | rfl | later
  · obtain ⟨other, inside, rfl⟩ := List.mem_map.mp earlier
    exact absurd parent (across other inside commit List.mem_cons_self)
  · exact absurd parent (each commit (by simp))
  · exact later

theorem layout_ends (lanes : List LaneRef) (commits : List GraphCommit) :
    (∀ row, (rowsFrom options lanes commits).head? = some row → row.inputLanes = lanes) ∧
      ∀ row, (rowsFrom options lanes commits).getLast? = some row →
        row.outputLanes = lanesAfter options lanes commits := by
  constructor
  · intro row first
    cases commits with
    | nil => simp [rowsFrom] at first
    | cons commit rest =>
      rw [rowsFrom, List.head?_cons, Option.some_inj] at first
      rw [← first]
      rfl
  · intro row last
    induction commits generalizing lanes with
    | nil => simp [rowsFrom] at last
    | cons commit rest ih =>
      cases rest with
      | nil =>
        simp only [rowsFrom, List.getLast?_singleton, Option.some_inj] at last
        rw [← last]
        rfl
      | cons next rest =>
        rw [rowsFrom, rowsFrom, List.getLast?_cons_cons] at last
        rw [ih _ last]
        rfl

/-- Every row keeps its lanes apart and hands on those it does not end, the rows join,
and from each commit a lane runs down to each parent, listed below it or still to come. -/
theorem lane_invariants (options : LayoutOptions) (commits : List GraphCommit)
    (ordered : ParentsLater commits) :
    let result := layoutGraph commits { options with continuation := [] }
    result.rows.map (fun row => (row.id, row.parentIds)) =
        commits.map (fun commit => (commit.id, commit.parentIds)) ∧
      (∀ row ∈ result.rows, RowSound row) ∧
      (result.rows.IsChain fun upper lower => upper.outputLanes = lower.inputLanes) ∧
      (∀ row, result.rows.head? = some row → row.inputLanes = []) ∧
      (∀ row, result.rows.getLast? = some row → row.outputLanes = result.continuation) ∧
      ∀ above row below, result.rows = above ++ row :: below → ∀ parentId ∈ row.parentIds,
        (parentId ∈ commits.map GraphCommit.id → ∃ lower ∈ below, lower.id = parentId) ∧
          ∃ lane ∈ row.outputLanes, lane.id = parentId ∧
            RunsDown lane result.continuation below := by
  intro result
  have rows : result.rows = rowsFrom { options with continuation := [] } [] commits :=
    layoutGraph_rows commits _
  have continuation :
      result.continuation = lanesAfter { options with continuation := [] } [] commits :=
    layoutGraph_continuation commits _
  have apart : (([] : List LaneRef).map LaneRef.position).Nodup := List.nodup_nil
  have ends := layout_ends { options with continuation := [] } [] commits
  rw [rows, continuation]
  refine ⟨rowsFrom_commits _ _ _, rowsFrom_sound _ apart commits, rowsFrom_linked _ _ _,
    ends.1, ends.2, ?_⟩
  intro above row below parts parentId parent
  obtain ⟨entering, before, commit, rest, distinct, split, laid, lower, last⟩ :=
    rowsFrom_split _ apart parts
  have sound : RowSound row := laid ▸ layoutRow_sound _ distinct commit
  constructor
  · intro listed
    subst split
    have later := ordered.below (by rwa [laid] at parent) listed
    have named := congrArg (List.map Prod.fst)
      (rowsFrom_commits { options with continuation := [] } row.outputLanes rest)
    rw [← lower, List.map_map, List.map_map] at named
    have member : parentId ∈ below.map GraphRow.id := by
      rw [show below.map GraphRow.id = rest.map GraphCommit.id from named]
      exact later
    obtain ⟨found, inside, same⟩ := List.mem_map.mp member
    exact ⟨found, inside, same⟩
  · obtain ⟨lane, member, same⟩ := sound.parents parentId parent
    refine ⟨lane, member, same, ?_⟩
    rw [last, lower]
    exact runsDown _ sound.outputsApart member rest

theorem lane_invariants_two_branches :
    ∃ commits, ParentsLater commits ∧ ∀ row ∈ (layoutGraph commits { }).rows, RowSound row :=
  ⟨[⟨"m", ["l", "r"], []⟩, ⟨"l", ["b"], []⟩, ⟨"r", ["b"], []⟩, ⟨"b", ["a"], []⟩],
    by decide, (lane_invariants {} _ (by decide)).2.1⟩

end Refyard
