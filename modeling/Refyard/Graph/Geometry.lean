import Refyard.Graph.Pages
import Mathlib.Data.Nat.Cast.Defs

/-! What one row of the graph draws: a circle, and edges between it, the lanes that enter at the
row's top and those that leave at its bottom. The arithmetic of the coordinates is left open. -/
namespace Refyard

structure Metrics (K : Type) where
  rowHeight : K
  laneWidth : K
  lanePadding : K
  radius : K

inductive SegmentShape (K : Type) where
  | line (x0 y0 x1 y1 : K)
  | curve (x0 y0 x1 y1 : K)

namespace SegmentShape

variable {K : Type}

def start : SegmentShape K → K × K
  | .line x0 y0 _ _ => (x0, y0)
  | .curve x0 y0 _ _ => (x0, y0)

def finish : SegmentShape K → K × K
  | .line _ _ x1 y1 => (x1, y1)
  | .curve _ _ x1 y1 => (x1, y1)

end SegmentShape

section
variable {K : Type} [BEq K]

def edgeShape (x0 y0 x1 y1 : K) : SegmentShape K :=
  if x0 == x1 then .line x0 y0 x1 y1 else .curve x0 y0 x1 y1

theorem start_edgeShape (x0 y0 x1 y1 : K) : (edgeShape x0 y0 x1 y1).start = (x0, y0) := by
  unfold edgeShape
  split <;> rfl

theorem finish_edgeShape (x0 y0 x1 y1 : K) : (edgeShape x0 y0 x1 y1).finish = (x1, y1) := by
  unfold edgeShape
  split <;> rfl

end

inductive SegmentKind where
  | lane
  | merge
  | branch

structure Segment (K : Type) where
  shape : SegmentShape K
  color : LaneColor
  kind : SegmentKind

structure Circle (K : Type) where
  cx : K
  cy : K
  color : LaneColor

structure RowGeometry (K : Type) where
  circle : Circle K
  segments : List (Segment K)

/-- An edge of a row, by what it joins. A lane that passes goes to a slot below, or straight down
when there is none for it. -/
inductive Edge where
  | ends (lane : LaneRef)
  | passes (lane : LaneRef) (below : Option (LaneRef × Nat))
  | leaves (below : LaneRef × Nat)

namespace Edge

def entering : Edge → Option LaneRef
  | .ends lane => some lane
  | .passes lane _ => some lane
  | .leaves _ => none

def reaches : Edge → Option (LaneRef × Nat)
  | .ends _ => none
  | .passes _ below => below
  | .leaves below => some below

end Edge

def isStable (lane out : LaneRef) : Bool := out.id == lane.id && out.position == lane.position

/-- First a slot that is where the lane is, then any that waits for the same commit. -/
def outputSlotOf (row : GraphRow) (claimed : List Nat) (lane : LaneRef) : Option (LaneRef × Nat) :=
  (Slots.firstUnclaimed (isStable lane) row.outputLanes claimed).or
    (Slots.firstUnclaimed (fun out => out.id == lane.id) row.outputLanes claimed)

def enterLane (row : GraphRow) (drawn : List Nat × List Edge) (lane : LaneRef) :
    List Nat × List Edge :=
  if lane.id = row.id then (drawn.1, drawn.2 ++ [.ends lane])
  else
    match outputSlotOf row drawn.1 lane with
    | none => (drawn.1, drawn.2 ++ [.passes lane none])
    | some below => (drawn.1 ++ [below.2], drawn.2 ++ [.passes lane (some below)])

/-- A slot that is claimed is drawn already. An edge from the circle is still owed to a parent, when
no other slot waits for it that is not claimed. -/
def owed (row : GraphRow) (claimed : List Nat) (below : LaneRef × Nat) : Bool :=
  let isParent := row.parentIds.contains below.1.id
  let hasUnclaimedTwin := row.outputLanes.zipIdx.any fun other =>
    other.1.id == below.1.id && !claimed.contains other.2
  !(claimed.contains below.2 && (!isParent || hasUnclaimedTwin))

def inputEdges (row : GraphRow) : List Nat × List Edge :=
  row.inputLanes.foldl (enterLane row) ([], [])

def circleSlots (row : GraphRow) : List (LaneRef × Nat) :=
  row.outputLanes.zipIdx.filter (owed row (inputEdges row).1)

def rowEdges (row : GraphRow) : List Edge := (inputEdges row).2 ++ (circleSlots row).map .leaves

section
variable {K : Type} [Add K] [Mul K] [Div K] [NatCast K] [BEq K]

def laneX (index : Nat) (metrics : Metrics K) : K :=
  metrics.lanePadding + metrics.radius + (index : K) * metrics.laneWidth

def rowCenterY (index : Nat) (metrics : Metrics K) : K :=
  (index : K) * metrics.rowHeight + metrics.rowHeight / ((2 : Nat) : K)

def rowTop (index : Nat) (metrics : Metrics K) : K := (index : K) * metrics.rowHeight

def segment (row : GraphRow) (index : Nat) (metrics : Metrics K) (edge : Edge) : Segment K :=
  let cx := laneX row.laneIndex metrics
  let cy := rowCenterY index metrics
  let top := rowTop index metrics
  let bottom := top + metrics.rowHeight
  match edge with
  | .ends lane =>
      let x := laneX lane.position metrics
      { shape := edgeShape x top cx cy
        color := lane.color
        kind := if x == cx then .lane else .merge }
  | .passes lane none =>
      let x := laneX lane.position metrics
      { shape := edgeShape x top x bottom
        color := lane.color
        kind := .lane }
  | .passes lane (some below) =>
      let x := laneX lane.position metrics
      let xOut := laneX below.1.position metrics
      { shape := edgeShape x top xOut bottom
        color := lane.color
        kind := if xOut == x then .lane else .merge }
  | .leaves below =>
      let x := laneX below.1.position metrics
      { shape := edgeShape cx cy x bottom
        color := below.1.color
        kind := if x == cx then .lane else .branch }

def rowGeometry (row : GraphRow) (index : Nat) (metrics : Metrics K) : RowGeometry K where
  circle := { cx := laneX row.laneIndex metrics
              cy := rowCenterY index metrics
              color := row.laneColor }
  segments := (rowEdges row).map (segment row index metrics)

/-- The segments of a row draw its layout: those of `entering` start at the top, one for each lane
that enters, those of `leaving` go from the circle to `lanes` below, of which each parent has one,
and every lane below is reached. -/
structure DrawnAs (row : GraphRow) (index : Nat) (metrics : Metrics K)
    (entering leaving : List (Segment K)) (lanes : List LaneRef) : Prop where
  above : List.Forall₂ (fun (lane : LaneRef) segment => segment.shape.start =
    (laneX lane.position metrics, rowTop index metrics)) row.inputLanes entering
  circle : List.Forall₂ (fun (lane : LaneRef) segment => segment.shape.start =
      (laneX row.laneIndex metrics, rowCenterY index metrics) ∧ segment.shape.finish =
        (laneX lane.position metrics, rowTop index metrics + metrics.rowHeight)) lanes leaving
  below : ∀ lane ∈ lanes, lane ∈ row.outputLanes
  parents : (lanes.map LaneRef.id).Perm row.parentIds.dedup
  reached : ∀ lane ∈ row.outputLanes, ∃ segment ∈ entering ++ leaving,
    segment.shape.finish = (laneX lane.position metrics, rowTop index metrics + metrics.rowHeight)

def DrawsLayout (row : GraphRow) (index : Nat) (metrics : Metrics K) (segments : List (Segment K)) :
    Prop :=
  ∃ entering leaving lanes,
    segments = entering ++ leaving ∧ DrawnAs row index metrics entering leaving lanes

variable {row : GraphRow} {index : Nat} {metrics : Metrics K} {edge : Edge}

theorem start_segment {lane : LaneRef} (enters : edge.entering = some lane) :
    (segment row index metrics edge).shape.start =
      (laneX lane.position metrics, rowTop index metrics) := by
  cases edge with
  | ends => cases enters; exact start_edgeShape _ _ _ _
  | passes other below => cases enters; cases below <;> exact start_edgeShape _ _ _ _
  | leaves => cases enters

theorem finish_segment {below : LaneRef × Nat} (reaches : edge.reaches = some below) :
    (segment row index metrics edge).shape.finish =
      (laneX below.1.position metrics, rowTop index metrics + metrics.rowHeight) := by
  cases edge with
  | ends => cases reaches
  | passes => cases reaches; exact finish_edgeShape _ _ _ _
  | leaves => cases reaches; exact finish_edgeShape _ _ _ _

end

/-! How many lanes wait for a commit. -/

def waiting (lanes : List LaneRef) (id : String) : Nat := lanes.countP fun lane => lane.id = id

def surviving (row : GraphRow) : List LaneRef := row.inputLanes.filter fun lane => lane.id ≠ row.id

theorem waiting_append (front back : List LaneRef) (id : String) :
    waiting (front ++ back) id = waiting front id + waiting back id :=
  List.countP_append

variable {lanes : List LaneRef} {row : GraphRow} {drawn : List Nat × List Edge}
  {taken : List (LaneRef × Nat)}

theorem waiting_eq_zero {id : String} : waiting lanes id = 0 ↔ ∀ lane ∈ lanes, lane.id ≠ id := by
  unfold waiting
  simp

variable (options : LayoutOptions) {rest : List LaneRef}

theorem openParents_waiting (tracks : List LaneRef × Finset Nat) (parentIds : List String) :
    ∃ opened, (parentIds.foldl (openParent options) tracks).1 = tracks.1 ++ opened ∧
      ∀ id, waiting opened id = if id ∈ parentIds ∧ waiting tracks.1 id = 0 then 1 else 0 := by
  induction parentIds generalizing tracks with
  | nil => exact ⟨[], (List.append_nil _).symm, fun id => by simp [waiting]⟩
  | cons parentId rest ih =>
    obtain ⟨opened, added, counts⟩ := ih (openParent options tracks parentId)
    rw [List.foldl_cons, added]
    by_cases live : waiting tracks.1 parentId = 0
    · obtain ⟨lane, named, next⟩ : ∃ lane : LaneRef, lane.id = parentId ∧
          (openParent options tracks parentId).1 = tracks.1 ++ [lane] := by
        unfold openParent
        rw [if_neg (by simpa using waiting_eq_zero.mp live)]
        exact ⟨_, rfl, rfl⟩
      refine ⟨lane :: opened, by rw [next, List.append_assoc]; rfl, fun id => ?_⟩
      have first : waiting (lane :: opened) id = waiting [lane] id + waiting opened id :=
        waiting_append [lane] opened id
      rw [first, counts, next, waiting_append]
      by_cases same : id = parentId
      · subst same
        have one : waiting [lane] id = 1 := by simp [waiting, named]
        simp [one, live]
      · have other : lane.id ≠ id := by
          rw [named]
          exact Ne.symm same
        have none : waiting [lane] id = 0 := by simp [waiting, other]
        simp [none, same]
    · have same : openParent options tracks parentId = tracks := by
        obtain ⟨lane, member, named⟩ : ∃ lane ∈ tracks.1, lane.id = parentId := by
          by_contra none
          exact live (waiting_eq_zero.mpr fun lane member named => none ⟨lane, member, named⟩)
        exact if_pos (List.any_eq_true.mpr ⟨lane, member, decide_eq_true named⟩)
      rw [same] at counts ⊢
      refine ⟨opened, rfl, fun id => ?_⟩
      rw [counts]
      by_cases named : id = parentId
      · subst named
        simp [live]
      · simp [named]

/-- Below the row are the lanes that survive it and new ones: one for the first parent, and one for
each further parent that none of them waits for. -/
theorem outputLanes_waiting (lanes : List LaneRef) (commit : GraphCommit) :
    ∃ opened, (layoutRow options lanes commit).outputLanes.Perm
        (surviving (layoutRow options lanes commit) ++ opened) ∧ ∀ id, waiting opened id =
        if commit.parentIds.head? = some id ∨
          id ∈ commit.parentIds ∧ waiting (surviving (layoutRow options lanes commit)) id = 0 then 1
        else 0 := by
  obtain ⟨further, added, counts⟩ := openParents_waiting options
    (survivingTracks options lanes commit) (commit.parentIds.drop 1)
  have tracks : (survivingTracks options lanes commit).1 =
      surviving (layoutRow options lanes commit) ++ firstParentLane commit
        (commitColor options lanes commit (commitSlot lanes commit).1) (commitSlot lanes commit).1 :=
    rfl
  generalize surviving (layoutRow options lanes commit) = kept at *
  generalize commitColor options lanes commit (commitSlot lanes commit).1 = color at *
  generalize (commitSlot lanes commit).1 = position at *
  refine ⟨firstParentLane commit color position ++ further, ?_, fun id => ?_⟩
  · refine (List.perm_insertionSort _ _).trans (List.Perm.of_eq ?_)
    unfold leavingLanes
    rw [added, tracks, List.append_assoc]
  · rw [waiting_append, counts, tracks, waiting_append]
    unfold firstParentLane
    cases commit.parentIds with
    | nil => simp [waiting]
    | cons first rest =>
      by_cases same : first = id
      · subst same
        simp [waiting]
      · have other : id ≠ first := Ne.symm same
        simp [waiting, same, other]

/-! What is drawn of the lanes that enter. -/

/-- What has been drawn of the lanes that have entered, and the slots that they took. -/
structure Entered (row : GraphRow) (lanes : List LaneRef) (drawn : List Nat × List Edge)
    (taken : List (LaneRef × Nat)) : Prop where
  claimed : Slots.Claimed row.outputLanes drawn.1 taken
  kept : taken.map (fun below => (below.1.id, below.1.position)) =
    (lanes.filter fun lane => lane.id ≠ row.id).map fun lane => (lane.id, lane.position)
  entering : List.Forall₂ (fun lane edge => Edge.entering edge = some lane) lanes drawn.2
  reached : ∀ below ∈ taken, ∃ edge ∈ drawn.2, edge.reaches = some below

def LanesContinue (row : GraphRow) : Prop :=
  ∀ lane, (surviving row).countP (isStable lane) ≤ row.outputLanes.countP (isStable lane)

theorem Entered.start (row : GraphRow) : Entered row [] ([], []) [] :=
  ⟨.none _, rfl, .nil, nofun⟩

theorem Entered.countP_taken (entered : Entered row lanes drawn taken) (test : String × Nat → Bool) :
    taken.countP (fun below => test (below.1.id, below.1.position)) =
      (lanes.filter fun lane => lane.id ≠ row.id).countP fun lane => test (lane.id, lane.position) := by
  have counts := congrArg (List.countP test) entered.kept
  rwa [List.countP_map, List.countP_map] at counts

theorem Entered.step (continues : LanesContinue row) {lane : LaneRef}
    (inputs : row.inputLanes = lanes ++ lane :: rest) (entered : Entered row lanes drawn taken) :
    ∃ taken, Entered row (lanes ++ [lane]) (enterLane row drawn lane) taken := by
  obtain ⟨claimed, edges⟩ := drawn
  unfold enterLane
  by_cases own : lane.id = row.id
  · rw [if_pos own]
    refine ⟨taken, entered.claimed, ?_, ?_, fun below member => ?_⟩
    · simp [List.filter_append, own, entered.kept]
    · exact List.rel_append entered.entering (.cons rfl .nil)
    · obtain ⟨edge, inside, reaches⟩ := entered.reached below member
      exact ⟨edge, List.mem_append_left _ inside, reaches⟩
  · rw [if_neg own]
    have fewer : taken.countP (fun below => isStable lane below.1) <
        row.outputLanes.countP (isStable lane) := by
      have here : isStable lane lane = true := by simp [isStable]
      have kept : (lane :: rest).filter (fun lane => lane.id ≠ row.id) =
          lane :: rest.filter fun lane => lane.id ≠ row.id :=
        List.filter_cons_of_pos (by simpa using own)
      have before : taken.countP (fun below => isStable lane below.1) =
          (lanes.filter fun lane => lane.id ≠ row.id).countP (isStable lane) :=
        entered.countP_taken fun place => place.1 == lane.id && place.2 == lane.position
      have more := continues lane
      rw [surviving, inputs, List.filter_append, kept, List.countP_append,
        List.countP_cons_of_pos here] at more
      omega
    obtain ⟨below, found, passes⟩ := entered.claimed.exists_unclaimed fewer
    have slot : outputSlotOf row claimed lane = some below := by
      unfold outputSlotOf
      rw [found, Option.some_or]
    rw [slot]
    refine ⟨taken ++ [below], entered.claimed.claim found, ?_, ?_, fun other member => ?_⟩
    · rw [isStable, Bool.and_eq_true, beq_iff_eq, beq_iff_eq] at passes
      simp [List.filter_append, own, entered.kept, passes]
    · exact List.rel_append entered.entering (.cons rfl .nil)
    · obtain before | now := List.mem_append.mp member
      · obtain ⟨edge, inside, reaches⟩ := entered.reached other before
        exact ⟨edge, List.mem_append_left _ inside, reaches⟩
      · rw [List.mem_singleton.mp now]
        exact ⟨_, List.mem_append_right _ List.mem_cons_self, rfl⟩

theorem Entered.all (continues : LanesContinue row) (inputs : row.inputLanes = lanes ++ rest)
    (entered : Entered row lanes drawn taken) :
    ∃ taken, Entered row row.inputLanes (rest.foldl (enterLane row) drawn) taken := by
  induction rest generalizing lanes drawn taken with
  | nil =>
    rw [List.append_nil] at inputs
    exact ⟨taken, inputs ▸ entered⟩
  | cons lane rest ih =>
    obtain ⟨next, later⟩ := entered.step continues inputs
    exact ih (by rw [inputs, List.append_assoc]; rfl) later

/-! What is drawn from the circle. -/

/-- An edge is owed to a slot that waits for a parent exactly where it is not claimed, or no slot
that waits for that parent is unclaimed. -/
theorem owed_parent {claimed : List Nat} {below : LaneRef × Nat}
    (parent : below.1.id ∈ row.parentIds) : owed row claimed below = true ↔ below.2 ∉ claimed ∨
      ∀ other ∈ Slots.unclaimed row.outputLanes claimed, other.1.id ≠ below.1.id := by
  have twin : (row.outputLanes.zipIdx.any fun other =>
      other.1.id == below.1.id && !claimed.contains other.2) = true ↔
        ¬∀ other ∈ Slots.unclaimed row.outputLanes claimed, other.1.id ≠ below.1.id := by
    rw [List.any_eq_true]
    constructor
    · rintro ⟨other, member, same⟩ none
      rw [Bool.and_eq_true, beq_iff_eq] at same
      exact none other (List.mem_filter.mpr ⟨member, same.2⟩) same.1
    · intro some
      by_contra none
      refine some fun other member same => none ⟨other, ?_⟩
      obtain ⟨inside, free⟩ := List.mem_filter.mp member
      exact ⟨inside, by rw [Bool.and_eq_true, beq_iff_eq]; exact ⟨same, free⟩⟩
  have listed : row.parentIds.contains below.1.id = true := List.contains_iff_mem.mpr parent
  unfold owed
  dsimp only
  rw [listed, Bool.not_true, Bool.false_or, Bool.not_eq_true', Bool.and_eq_false_iff]
  refine or_congr ?_ ?_
  · rw [← Bool.not_eq_true, List.contains_iff_mem]
  · rw [← Bool.not_eq_true, twin, not_not]

theorem waiting_zipIdx (lanes : List LaneRef) (id : String) :
    waiting lanes id = lanes.zipIdx.countP fun below => below.1.id = id := by
  conv_lhs => rw [waiting, ← List.zipIdx_map_fst 0 lanes, List.countP_map]
  rfl

/-- Of the slots that wait for a parent, those that no lane from above took are drawn from the
circle; where there are none, all of them are. -/
theorem countP_owed {row : GraphRow} {claimed : List Nat} {id : String}
    (parent : id ∈ row.parentIds) :
    (row.outputLanes.zipIdx.filter (owed row claimed)).countP (fun below => below.1.id = id) =
      if (Slots.unclaimed row.outputLanes claimed).countP (fun below => below.1.id = id) = 0 then
        waiting row.outputLanes id
      else (Slots.unclaimed row.outputLanes claimed).countP fun below => below.1.id = id := by
  rw [List.countP_filter]
  split
  · next none =>
    rw [waiting_zipIdx]
    refine List.countP_congr fun below member => ?_
    rw [Bool.and_eq_true, decide_eq_true_iff]
    refine and_iff_left_of_imp fun same => ?_
    subst same
    refine (owed_parent parent).mpr (.inr fun other free => ?_)
    simpa using List.countP_eq_zero.mp none other free
  · next some =>
    unfold Slots.unclaimed
    rw [List.countP_filter]
    refine List.countP_congr fun below member => ?_
    rw [Bool.and_eq_true, Bool.and_eq_true, decide_eq_true_iff]
    refine and_congr_right fun same => ?_
    subst same
    rw [owed_parent parent, Bool.not_eq_true', ← Bool.not_eq_true, List.contains_iff_mem]
    refine or_iff_left fun none => some ?_
    simpa using none

/-! A row of a layout. -/
section
variable (options : LayoutOptions) (lanes : List LaneRef) (commit : GraphCommit)

theorem layoutRow_continues : LanesContinue (layoutRow options lanes commit) := by
  obtain ⟨opened, below, -⟩ := outputLanes_waiting options lanes commit
  intro lane
  rw [below.countP_eq, List.countP_append]
  exact Nat.le_add_right _ _

theorem layoutRow_entered : ∃ taken, Entered (layoutRow options lanes commit) lanes
    (inputEdges (layoutRow options lanes commit)) taken :=
  (Entered.start _).all (layoutRow_continues options lanes commit) (List.nil_append _).symm

variable {options lanes commit}

theorem unclaimed_waiting (entered : Entered (layoutRow options lanes commit) lanes drawn taken)
    (id : String) : (Slots.unclaimed (layoutRow options lanes commit).outputLanes drawn.1).countP
        (fun below => below.1.id = id) = if commit.parentIds.head? = some id ∨
        id ∈ commit.parentIds ∧ waiting (surviving (layoutRow options lanes commit)) id = 0 then 1
      else 0 := by
  obtain ⟨opened, below, counts⟩ := outputLanes_waiting options lanes commit
  have whole := entered.claimed.countP_eq fun lane => lane.id = id
  have above : taken.countP (fun below => below.1.id = id) =
      waiting (surviving (layoutRow options lanes commit)) id :=
    entered.countP_taken fun place => place.1 = id
  have split : (layoutRow options lanes commit).outputLanes.countP (fun lane => lane.id = id) =
      waiting (surviving (layoutRow options lanes commit)) id + waiting opened id := by
    rw [below.countP_eq]
    exact waiting_append _ _ id
  rw [← counts id]
  omega

theorem waiting_outputLanes (id : String) : waiting (layoutRow options lanes commit).outputLanes id =
    waiting (surviving (layoutRow options lanes commit)) id + if commit.parentIds.head? = some id ∨
        id ∈ commit.parentIds ∧ waiting (surviving (layoutRow options lanes commit)) id = 0 then 1
      else 0 := by
  obtain ⟨opened, below, counts⟩ := outputLanes_waiting options lanes commit
  rw [← counts id, ← waiting_append]
  exact below.countP_eq _

theorem waiting_circle {id : String} (parent : id ∈ commit.parentIds) :
    ((circleSlots (layoutRow options lanes commit)).map fun below => below.1.id).count id =
      if commit.parentIds.head? = some id then 1
      else max 1 (waiting (surviving (layoutRow options lanes commit)) id) := by
  obtain ⟨taken, entered⟩ := layoutRow_entered options lanes commit
  have circle := @countP_owed (layoutRow options lanes commit)
    (inputEdges (layoutRow options lanes commit)).1 id parent
  rw [unclaimed_waiting entered, waiting_outputLanes] at circle
  rw [List.count, List.countP_map]
  refine Eq.trans (List.countP_congr fun below _ => ?_) (circle.trans ?_)
  · simp
  · by_cases first : commit.parentIds.head? = some id
    · simp [first]
    · by_cases none : waiting (surviving (layoutRow options lanes commit)) id = 0
      · simp [first, parent, none]
      · simp [first, none]
        omega

theorem layoutRow_reached : ∀ below ∈ (layoutRow options lanes commit).outputLanes.zipIdx,
      ∃ edge ∈ rowEdges (layoutRow options lanes commit), edge.reaches = some below := by
  obtain ⟨taken, entered⟩ := layoutRow_entered options lanes commit
  intro below member
  obtain inside | free := List.mem_append.mp (entered.claimed.parts.mem_iff.mp member)
  · obtain ⟨edge, drawn, reaches⟩ := entered.reached below inside
    exact ⟨edge, List.mem_append_left _ drawn, reaches⟩
  · obtain ⟨-, free⟩ := Slots.mem_unclaimed.mp free
    have due : owed (layoutRow options lanes commit)
        (inputEdges (layoutRow options lanes commit)).1 below = true := by
      unfold owed
      rw [Bool.not_eq_true', ← Bool.not_eq_true, Bool.and_eq_true, List.contains_iff_mem]
      exact fun claimed => free claimed.1
    exact ⟨.leaves below, List.mem_append_right _ (List.mem_map_of_mem
      (List.mem_filter.mpr ⟨member, due⟩)), rfl⟩

theorem layoutRow_only {below : LaneRef × Nat}
    (drawn : below ∈ circleSlots (layoutRow options lanes commit)) :
    below.1.id ∈ commit.parentIds := by
  obtain ⟨taken, entered⟩ := layoutRow_entered options lanes commit
  obtain ⟨inside, due⟩ := List.mem_filter.mp drawn
  by_contra stranger
  have claimed : below.2 ∉ (inputEdges (layoutRow options lanes commit)).1 := by
    intro claimed
    have listed : (layoutRow options lanes commit).parentIds.contains below.1.id = false := by
      rw [← Bool.not_eq_true, List.contains_iff_mem]
      exact stranger
    unfold owed at due
    rw [listed, List.contains_iff_mem.mpr claimed] at due
    cases due
  have counts := unclaimed_waiting entered below.1.id
  have not_first : commit.parentIds.head? ≠ some below.1.id :=
    fun first => stranger (List.mem_of_head? first)
  rw [if_neg (not_or.mpr ⟨not_first, fun both => stranger both.1⟩), List.countP_eq_zero] at counts
  exact counts below (Slots.mem_unclaimed.mpr ⟨inside, claimed⟩) (decide_eq_true rfl)

/-- The circle has at least one edge for each parent, and none for another commit; so there is one
for each exactly where there are as many edges as parents. -/
theorem circle_perm_iff :
    ((circleSlots (layoutRow options lanes commit)).map fun below => below.1.id).Perm
        commit.parentIds.dedup ↔
      ∀ parentId ∈ commit.parentIds, commit.parentIds.head? = some parentId ∨
        waiting (surviving (layoutRow options lanes commit)) parentId ≤ 1 := by
  constructor
  · intro one parentId parent
    have count := one.count_eq parentId
    rw [waiting_circle parent, List.count_eq_one_of_mem (List.nodup_dedup _)
      (List.mem_dedup.mpr parent)] at count
    split at count
    · next first => exact .inl first
    · exact .inr (by omega)
  · intro single
    refine List.perm_iff_count.mpr fun id => ?_
    by_cases parent : id ∈ commit.parentIds
    · rw [waiting_circle parent, List.count_eq_one_of_mem (List.nodup_dedup _)
        (List.mem_dedup.mpr parent)]
      split
      · rfl
      · next further =>
        have := (single id parent).resolve_left further
        omega
    · rw [List.count_eq_zero_of_not_mem (mt List.mem_dedup.mp parent)]
      refine List.count_eq_zero_of_not_mem fun drawn => ?_
      obtain ⟨below, member, rfl⟩ := List.mem_map.mp drawn
      exact parent (layoutRow_only member)

variable {K : Type} [Add K] [Mul K] [Div K] [NatCast K] [BEq K] {index : Nat} {metrics : Metrics K}

theorem drawsLayout_layoutRow : DrawsLayout (layoutRow options lanes commit) index metrics
      (rowGeometry (layoutRow options lanes commit) index metrics).segments ↔
    ∀ parentId ∈ commit.parentIds, commit.parentIds.head? = some parentId ∨
      waiting (surviving (layoutRow options lanes commit)) parentId ≤ 1 := by
  obtain ⟨taken, entered⟩ := layoutRow_entered options lanes commit
  have split : (rowGeometry (layoutRow options lanes commit) index metrics).segments = _ :=
    List.map_append
  rw [← circle_perm_iff]
  constructor
  · rintro ⟨entering, leaving, drawn, parts, draws⟩
    have circle : (circleSlots (layoutRow options lanes commit)).length = drawn.length := by
      have whole := congrArg List.length (split.symm.trans parts)
      rw [List.length_append, List.length_append, List.length_map, List.length_map, List.length_map,
        ← entered.entering.length_eq, ← draws.above.length_eq, ← draws.circle.length_eq] at whole
      exact Nat.add_left_cancel whole
    refine ((List.subperm_of_subset (List.nodup_dedup _) fun id listed => ?_).perm_of_length_le ?_).symm
    · refine List.count_pos_iff.mp ?_
      rw [waiting_circle (List.mem_dedup.mp listed)]
      split
      · exact Nat.one_pos
      · exact Nat.lt_of_lt_of_le Nat.one_pos (Nat.le_max_left _ _)
    · have parents := draws.parents.length_eq
      rw [List.length_map] at parents ⊢
      exact (circle.trans parents).le
  · intro one
    refine ⟨_, _, (circleSlots (layoutRow options lanes commit)).map Prod.fst, split, ?_, ?_, ?_, ?_,
      ?_⟩
    · exact List.forall₂_map_right_iff.mpr (entered.entering.imp fun _ _ => start_segment)
    · rw [List.forall₂_map_left_iff, List.forall₂_map_right_iff, List.forall₂_map_right_iff]
      exact List.forall₂_same.mpr fun below _ =>
        ⟨start_edgeShape _ _ _ _, finish_edgeShape _ _ _ _⟩
    · intro lane member
      obtain ⟨below, drawn, rfl⟩ := List.mem_map.mp member
      exact List.fst_mem_of_mem_zipIdx (List.mem_filter.mp drawn).1
    · rw [List.map_map]
      exact one
    · intro lane member
      rw [← List.zipIdx_map_fst 0 (layoutRow options lanes commit).outputLanes] at member
      obtain ⟨below, inside, rfl⟩ := List.mem_map.mp member
      obtain ⟨edge, drawn, reaches⟩ := layoutRow_reached below inside
      rw [← split]
      exact ⟨_, List.mem_map_of_mem drawn, finish_segment reaches⟩

end

theorem mem_rowsFrom {options : LayoutOptions} {commits : List GraphCommit}
    (member : row ∈ rowsFrom options lanes commits) :
    ∃ above commit, row = layoutRow options above commit := by
  induction commits generalizing lanes with
  | nil => cases member
  | cons commit rest ih =>
    obtain rfl | later := List.mem_cons.mp member
    · exact ⟨lanes, commit, rfl⟩
    · exact ih later

/-- What is drawn of a row draws its layout exactly where no further parent is awaited by two lanes
that go on through the row. -/
theorem drawsLayout_iff {K : Type} [Add K] [Mul K] [Div K] [NatCast K] [BEq K]
    (commits : List GraphCommit) (options : LayoutOptions) {row : GraphRow}
    (laid : row ∈ (layoutGraph commits options).rows) (index : Nat) (metrics : Metrics K) :
    DrawsLayout row index metrics (rowGeometry row index metrics).segments ↔
      ∀ parentId ∈ row.parentIds,
        row.parentIds.head? = some parentId ∨ waiting (surviving row) parentId ≤ 1 := by
  rw [layoutGraph_rows] at laid
  obtain ⟨lanes, commit, rfl⟩ := mem_rowsFrom laid
  exact drawsLayout_layoutRow

def compactMetrics : Metrics Rat where
  rowHeight := 28
  laneWidth := 14
  lanePadding := 10
  radius := 9 / 2

def oneTrack : List GraphCommit :=
  [⟨"tip", ["merge"], []⟩, ⟨"other", ["base"], []⟩, ⟨"merge", ["first", "base"], []⟩]

def throughRow : GraphRow :=
  layoutRow {} [⟨"merge", "lane-1", 0⟩, ⟨"base", "lane-2", 1⟩] ⟨"merge", ["first", "base"], []⟩

def twoTracks : List GraphCommit := [⟨"a", ["base"], []⟩, ⟨"b", ["base"], []⟩, ⟨"m", ["x", "base"], []⟩]

def mergeRow : GraphRow :=
  layoutRow {} [⟨"base", "lane-1", 0⟩, ⟨"base", "lane-2", 1⟩] ⟨"m", ["x", "base"], []⟩

theorem rows_laid : (layoutGraph oneTrack {}).rows[2]? = some throughRow ∧
    (layoutGraph twoTracks {}).rows[2]? = some mergeRow := by
  decide +kernel

theorem drawsLayout_oneTrack : DrawsLayout throughRow 2 compactMetrics
    (rowGeometry throughRow 2 compactMetrics).segments :=
  (drawsLayout_iff oneTrack {} (List.mem_of_getElem? rows_laid.1) 2 compactMetrics).mpr (by decide)

theorem not_drawsLayout_twoTracks : (layoutGraph twoTracks {}).rows[2]? = some mergeRow ∧
    ¬DrawsLayout mergeRow 2 compactMetrics (rowGeometry mergeRow 2 compactMetrics).segments := by
  refine ⟨rows_laid.2, fun draws => ?_⟩
  have single := drawsLayout_layoutRow.mp draws "base" (List.mem_cons_of_mem _ List.mem_cons_self)
  revert single
  decide

end Refyard
