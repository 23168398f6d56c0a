import Refyard.Graph.RefColors

/-! The layout in the reference package. The port gives the same rows, lanes and counts. -/
namespace Refyard.GitGraph

structure GraphCommit where
  id : String
  parentIds : List String
  refNames : Option (List String) := none

structure LaneRef where
  id : String
  color : LaneColor
  position : Option Nat := none

structure LayoutOptions where
  palette : Option (List LaneColor) := none
  colorForRef : Option (GraphCommit → Option LaneColor) := none
  defaultColor : Option LaneColor := none
  continuation : Option (List LaneRef) := none

def defaultPalette : List LaneColor :=
  ["lane-1", "lane-2", "lane-3", "lane-4", "lane-5", "lane-6", "lane-7", "lane-8"]

def positioned (lanes : List LaneRef) : List Refyard.LaneRef :=
  lanes.mapIdx fun index lane =>
    { id := lane.id, color := lane.color, position := lane.position.getD index }

def openParents (palette : List LaneColor) (defaultColor : LaneColor) :
    List String → List Refyard.LaneRef → Finset Nat → List Refyard.LaneRef
  | [], outputLanes, _ => outputLanes
  | parentId :: rest, outputLanes, occupied =>
      if outputLanes.any fun lane => lane.id = parentId then
        openParents palette defaultColor rest outputLanes occupied
      else
        let (position, occupied) := freeSlot occupied
        let color := palette[position % palette.length]?.getD defaultColor
        openParents palette defaultColor rest (outputLanes ++ [{ id := parentId, color, position }])
          occupied

def isBranch (name : String) : Bool :=
  name.startsWith "refs/heads/" || name.startsWith "refs/remotes/"

/-- `Math.max` of counts. -/
def mathMax (counts : List Nat) : Nat := counts.foldl max 0

def layoutCommit (palette : List LaneColor) (defaultColor : LaneColor) (options : LayoutOptions)
    (state : LayoutResult) (commit : GraphCommit) : LayoutResult :=
  let inputLanes := state.continuation
  let awaited := inputLanes.find? fun lane => lane.id = commit.id
  let occupied := (inputLanes.map Refyard.LaneRef.position).toFinset
  let slot :=
    match awaited with
    | some lane => (lane.position, occupied)
    | none => freeSlot occupied
  let laneIndex := slot.1
  let ownColor := options.colorForRef.bind fun colorForRef => colorForRef commit
  let tipColor :=
    if commit.refNames.any fun names => names.any isBranch then ownColor else none
  let laneColor :=
    (((tipColor.or (awaited.map Refyard.LaneRef.color)).or ownColor).or
      palette[laneIndex % palette.length]?).getD defaultColor
  let surviving := inputLanes.filter fun lane => lane.id ≠ commit.id
  let kept :=
    match commit.parentIds.head? with
    | none => surviving
    | some firstParent =>
        surviving ++ [{ id := firstParent, color := laneColor, position := laneIndex }]
  let outputLanes :=
    (openParents palette defaultColor (commit.parentIds.drop 1) kept slot.2).insertionSort
      fun left right => (left.position : Int) - right.position ≤ 0
  { rows := state.rows ++ [
      { id := commit.id
        parentIds := commit.parentIds
        refNames := commit.refNames.getD []
        laneIndex
        laneColor
        inputLanes
        outputLanes
        isMerge := 1 < commit.parentIds.length
        isRoot := commit.parentIds.length = 0 }]
    continuation := outputLanes
    laneCount :=
      mathMax (state.laneCount :: (laneIndex + 1) ::
        outputLanes.map fun lane => lane.position + 1) }

def layoutGraph (commits : List GraphCommit) (options : LayoutOptions) : LayoutResult :=
  let palette := options.palette.getD defaultPalette
  let defaultColor := options.defaultColor.getD (palette[0]?.getD "lane-1")
  let previousOut := positioned (options.continuation.getD [])
  commits.foldl (layoutCommit palette defaultColor options)
    { rows := []
      continuation := previousOut
      laneCount := previousOut.foldl (fun count lane => max count (lane.position + 1)) 0 }

def handedOn (lanes : List Refyard.LaneRef) : List LaneRef :=
  lanes.map fun lane => { id := lane.id, color := lane.color, position := some lane.position }

def layoutPage (options : LayoutOptions)
    (pages : List GraphRow × List LaneRef × Nat) (page : List GraphCommit) :
    List GraphRow × List LaneRef × Nat :=
  let layout := layoutGraph page { options with continuation := some pages.2.1 }
  (pages.1 ++ layout.rows, handedOn layout.continuation, max pages.2.2 layout.laneCount)

def layoutPages (pages : List (List GraphCommit)) (options : LayoutOptions) : PagesLayoutResult :=
  let folded := pages.foldl (layoutPage options) ([], options.continuation.getD [], 0)
  { rows := folded.1, laneCount := folded.2.2 }

/-! The options and the commits as the port has them. -/

def ported (commit : GraphCommit) : Refyard.GraphCommit where
  id := commit.id
  parentIds := commit.parentIds
  refNames := commit.refNames.getD []

/-- The port's options are the reference's: the same colours, and a position on every lane. -/
structure Mirrors (reference : LayoutOptions) (options : Refyard.LayoutOptions) : Prop where
  palette : reference.palette = options.palette.map Subtype.val
  colorForRef : ∀ commit, (reference.colorForRef.bind fun colorForRef => colorForRef commit) =
    options.colorForRef.bind fun colorForRef => colorForRef (ported commit)
  defaultColor : reference.defaultColor = options.defaultColor
  continuation : reference.continuation.getD [] = handedOn options.continuation

theorem positioned_handedOn (lanes : List Refyard.LaneRef) : positioned (handedOn lanes) = lanes := by
  refine List.ext_getElem (by simp [positioned, handedOn]) fun index _ _ => ?_
  simp [positioned, handedOn]

theorem defaultPalette_eq : defaultPalette = Refyard.defaultPalette.1 := by
  decide

section Mirrored

variable {reference : LayoutOptions} {options : Refyard.LayoutOptions}

theorem palette_eq (mirrors : Mirrors reference options) :
    reference.palette.getD defaultPalette = options.colors := by
  rw [mirrors.palette, defaultPalette_eq, Refyard.LayoutOptions.colors]
  cases options.palette <;> rfl

theorem defaultColor_eq (mirrors : Mirrors reference options) :
    reference.defaultColor.getD ((reference.palette.getD defaultPalette)[0]?.getD "lane-1") =
      options.defaultColor.getD (options.colors.head?.getD "lane-1") := by
  rw [palette_eq mirrors, mirrors.defaultColor, List.head?_eq_getElem?]

theorem openParents_eq (parents : List String) (outputLanes : List Refyard.LaneRef)
    (occupied : Finset Nat) :
    openParents options.colors (options.defaultColor.getD (options.colors.head?.getD "lane-1"))
        parents outputLanes occupied =
      (parents.foldl (openParent options) (outputLanes, occupied)).1 := by
  induction parents generalizing outputLanes occupied with
  | nil => rfl
  | cons parentId rest ih =>
    rw [openParents, List.foldl_cons, openParent]
    by_cases live : (outputLanes.any fun lane => lane.id = parentId) = true
    · rw [if_pos live, if_pos live, ih]
    · rw [if_neg live, if_neg live]
      exact ih _ _

theorem tipColor_eq (mirrors : Mirrors reference options) (commit : GraphCommit) :
    (if commit.refNames.any fun names => names.any isBranch then
        reference.colorForRef.bind fun colorForRef => colorForRef commit
      else none) = options.tipColor (ported commit) := by
  rw [mirrors.colorForRef, Refyard.LayoutOptions.tipColor, ported]
  cases commit.refNames <;> rfl

theorem mathMax_eq (count first : Nat) (lanes : List Refyard.LaneRef) :
    mathMax (count :: first :: lanes.map fun lane => lane.position + 1) =
      lanes.foldl (fun width lane => max width (lane.position + 1)) (max count first) := by
  rw [mathMax, List.foldl_cons, List.foldl_cons, List.foldl_map, Nat.zero_max]

theorem sort_eq (lanes : List Refyard.LaneRef) :
    lanes.insertionSort (fun left right => (left.position : Int) - right.position ≤ 0) =
      lanes.insertionSort fun left right => left.position ≤ right.position := by
  have same (left right : Refyard.LaneRef) :
      (left.position : Int) - right.position ≤ 0 ↔ left.position ≤ right.position := by
    omega
  simp only [same]

theorem layoutCommit_eq (mirrors : Mirrors reference options) (state : LayoutResult)
    (commit : GraphCommit) :
    layoutCommit options.colors (options.defaultColor.getD (options.colors.head?.getD "lane-1"))
        reference state commit = Refyard.layoutCommit options state (ported commit) := by
  have tip := tipColor_eq mirrors commit
  have own := mirrors.colorForRef commit
  have slot : (match state.continuation.find? fun lane => lane.id = commit.id with
      | some lane => (lane.position, (state.continuation.map Refyard.LaneRef.position).toFinset)
      | none => freeSlot (state.continuation.map Refyard.LaneRef.position).toFinset) =
      commitSlot state.continuation (ported commit) := rfl
  have color (position : Nat) : ((((options.tipColor (ported commit)).or
      ((state.continuation.find? fun lane => lane.id = commit.id).map Refyard.LaneRef.color)).or
        (options.colorForRef.bind fun colorForRef => colorForRef (ported commit))).or
      options.colors[position % options.colors.length]?).getD
        (options.defaultColor.getD (options.colors.head?.getD "lane-1")) =
      commitColor options state.continuation (ported commit) position := by
    rw [commitColor, Option.getD_or, Option.or_assoc]
    rfl
  have root : decide (commit.parentIds.length = 0) = commit.parentIds.isEmpty := by
    cases commit.parentIds <;> rfl
  unfold layoutCommit Refyard.layoutCommit layoutRow leavingLanes survivingTracks
  dsimp only
  rw [tip, own, slot, color, root, openParents_eq, sort_eq, mathMax_eq]
  unfold firstParentLane
  cases parents : commit.parentIds with
  | nil => simp [ported, parents]
  | cons parentId rest => simp [ported, parents]

theorem foldl_layoutCommit_eq (mirrors : Mirrors reference options) (state : LayoutResult)
    (commits : List GraphCommit) : commits.foldl (layoutCommit options.colors
        (options.defaultColor.getD (options.colors.head?.getD "lane-1")) reference) state =
      (commits.map ported).foldl (Refyard.layoutCommit options) state := by
  induction commits generalizing state with
  | nil => rfl
  | cons commit rest ih =>
    rw [List.foldl_cons, layoutCommit_eq mirrors, ih, List.map_cons, List.foldl_cons]

theorem layoutGraph_eq (mirrors : Mirrors reference options) (commits : List GraphCommit) :
    layoutGraph commits reference = Refyard.layoutGraph (commits.map ported) options := by
  unfold layoutGraph
  dsimp only
  rw [mirrors.continuation, positioned_handedOn, defaultColor_eq mirrors, palette_eq mirrors,
    foldl_layoutCommit_eq mirrors]
  rfl

theorem mirrors_handedOn (mirrors : Mirrors reference options) (lanes : List Refyard.LaneRef) :
    Mirrors { reference with continuation := some (handedOn lanes) }
      { options with continuation := lanes } where
  palette := mirrors.palette
  colorForRef := mirrors.colorForRef
  defaultColor := mirrors.defaultColor
  continuation := rfl

theorem foldl_layoutPage_eq (mirrors : Mirrors reference options) (pages : LayoutResult)
    (rest : List (List GraphCommit)) :
    rest.foldl (layoutPage reference) (pages.rows, handedOn pages.continuation, pages.laneCount) =
      let folded := (rest.map (List.map ported)).foldl (Refyard.layoutPage options) pages
      (folded.rows, handedOn folded.continuation, folded.laneCount) := by
  induction rest generalizing pages with
  | nil => rfl
  | cons page rest ih =>
    have laid := layoutGraph_eq (mirrors_handedOn mirrors pages.continuation) page
    rw [List.foldl_cons, List.map_cons, List.foldl_cons, ← ih]
    unfold layoutPage
    rw [laid]
    rfl

theorem layoutPages_eq (mirrors : Mirrors reference options) (pages : List (List GraphCommit)) :
    layoutPages pages reference = Refyard.layoutPages (pages.map (List.map ported)) options := by
  have folded := foldl_layoutPage_eq mirrors ⟨[], options.continuation, 0⟩ pages
  unfold layoutPages
  rw [mirrors.continuation]
  rw [folded]
  rfl

end Mirrored

/-- The reference and the port lay out the same graph, in one page or in many, and colour refs
alike. -/
theorem reference_layouts_agree {reference : LayoutOptions} {options : Refyard.LayoutOptions}
    (mirrors : Mirrors reference options) : (∀ commits : List GraphCommit,
      layoutGraph commits reference = Refyard.layoutGraph (commits.map ported) options) ∧
    (∀ pages : List (List GraphCommit),
      layoutPages pages reference = Refyard.layoutPages (pages.map (List.map ported)) options) ∧
    ∀ (refNames : List String) (palette : List LaneColor),
      refColorFor refNames palette = Refyard.refColorFor refNames palette :=
  ⟨layoutGraph_eq mirrors, layoutPages_eq mirrors, refColorFor_eq⟩

/-- Two colours, refs coloured by their names, and one lane that comes in at the third slot. -/
def continuedReference : LayoutOptions where
  palette := some ["red", "blue"]
  colorForRef := some fun commit => refColorFor (commit.refNames.getD []) ["red", "blue"]
  defaultColor := some "grey"
  continuation := some [⟨"b", "red", some 2⟩]

def continuedOptions : Refyard.LayoutOptions where
  palette := some ⟨["red", "blue"], by simp⟩
  colorForRef := some fun commit => refColorFor commit.refNames ["red", "blue"]
  defaultColor := some "grey"
  continuation := [⟨"b", "red", 2⟩]

theorem reference_layouts_agree_continued :
    layoutPages [[⟨"m", ["l", "b"], some ["refs/heads/main"]⟩], [⟨"l", ["b"], none⟩]]
        continuedReference =
      Refyard.layoutPages [[⟨"m", ["l", "b"], ["refs/heads/main"]⟩], [⟨"l", ["b"], []⟩]]
        continuedOptions := by
  have mirrors : Mirrors continuedReference continuedOptions := ⟨rfl, fun _ => rfl, rfl, rfl⟩
  exact (reference_layouts_agree mirrors).2.1
    [[⟨"m", ["l", "b"], some ["refs/heads/main"]⟩], [⟨"l", ["b"], none⟩]]

end Refyard.GitGraph
