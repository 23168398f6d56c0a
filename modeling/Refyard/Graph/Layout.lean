import Mathlib.Data.List.Sort
import Refyard.Foundation.Slots

/-! Lane layout of a commit graph. A live track keeps its slot until it converges, and
the lanes that leave one page enter the next. -/
namespace Refyard

abbrev LaneColor := String

structure GraphCommit where
  id : String
  parentIds : List String := []
  refNames : List String := []

structure LaneRef where
  id : String
  color : LaneColor
  position : Nat
  deriving DecidableEq

structure GraphRow where
  id : String
  parentIds : List String
  refNames : List String
  laneIndex : Nat
  laneColor : LaneColor
  inputLanes : List LaneRef
  outputLanes : List LaneRef
  isMerge : Bool
  isRoot : Bool
  deriving DecidableEq

structure LayoutResult where
  rows : List GraphRow
  continuation : List LaneRef
  laneCount : Nat

structure PagesLayoutResult where
  rows : List GraphRow
  laneCount : Nat

abbrev Palette := { colors : List LaneColor // colors ≠ [] }

def defaultPalette : Palette :=
  ⟨(List.range 8).map fun n => "lane-" ++ toString (n + 1), by simp⟩

structure LayoutOptions where
  palette : Option Palette := none
  colorForRef : Option (GraphCommit → Option LaneColor) := none
  defaultColor : Option LaneColor := none
  continuation : List LaneRef := []

namespace LayoutOptions

def colors (options : LayoutOptions) : List LaneColor := (options.palette.getD defaultPalette).1

def paletteColor (options : LayoutOptions) (position : Nat) : LaneColor :=
  options.colors[position % options.colors.length]?.getD
    (options.defaultColor.getD (options.colors.head?.getD "lane-1"))

def tipColor (options : LayoutOptions) (commit : GraphCommit) : Option LaneColor :=
  if commit.refNames.any fun name =>
      name.startsWith "refs/heads/" || name.startsWith "refs/remotes/" then
    options.colorForRef.bind fun colorForRef => colorForRef commit
  else none

end LayoutOptions

def freeSlot (occupied : Finset Nat) : Nat × Finset Nat :=
  (Slots.free occupied, insert (Slots.free occupied) occupied)

def openParent (options : LayoutOptions) (tracks : List LaneRef × Finset Nat)
    (parentId : String) : List LaneRef × Finset Nat :=
  if tracks.1.any fun lane => lane.id = parentId then tracks
  else
    let (position, occupied) := freeSlot tracks.2
    (tracks.1 ++ [{ id := parentId, color := options.paletteColor position, position }], occupied)

/-- The slot of the commit's circle: the first lane that waits for it, or a free one. -/
def commitSlot (inputLanes : List LaneRef) (commit : GraphCommit) : Nat × Finset Nat :=
  let occupied := (inputLanes.map LaneRef.position).toFinset
  match inputLanes.find? fun lane => lane.id = commit.id with
  | some awaited => (awaited.position, occupied)
  | none => freeSlot occupied

def commitColor (options : LayoutOptions) (inputLanes : List LaneRef) (commit : GraphCommit)
    (laneIndex : Nat) : LaneColor :=
  let awaited := inputLanes.find? fun lane => lane.id = commit.id
  ((options.tipColor commit).or ((awaited.map LaneRef.color).or
    (options.colorForRef.bind fun colorForRef => colorForRef commit))).getD
    (options.paletteColor laneIndex)

def firstParentLane (commit : GraphCommit) (color : LaneColor) (position : Nat) : List LaneRef :=
  match commit.parentIds with
  | [] => []
  | parentId :: _ => [{ id := parentId, color, position }]

/-- What goes on below the commit before its further parents open lanes. Removing
converging tracks does not compact the surviving slots. -/
def survivingTracks (options : LayoutOptions) (inputLanes : List LaneRef) (commit : GraphCommit) :
    List LaneRef × Finset Nat :=
  let slot := commitSlot inputLanes commit
  let surviving := inputLanes.filter fun lane => lane.id ≠ commit.id
  (surviving ++ firstParentLane commit (commitColor options inputLanes commit slot.1) slot.1,
    slot.2)

def leavingLanes (options : LayoutOptions) (inputLanes : List LaneRef) (commit : GraphCommit) :
    List LaneRef :=
  ((commit.parentIds.drop 1).foldl (openParent options)
    (survivingTracks options inputLanes commit)).1

def layoutRow (options : LayoutOptions) (inputLanes : List LaneRef) (commit : GraphCommit) :
    GraphRow :=
  let laneIndex := (commitSlot inputLanes commit).1
  { id := commit.id
    parentIds := commit.parentIds
    refNames := commit.refNames
    laneIndex
    laneColor := commitColor options inputLanes commit laneIndex
    inputLanes
    outputLanes :=
      (leavingLanes options inputLanes commit).insertionSort fun left right =>
        left.position ≤ right.position
    isMerge := 1 < commit.parentIds.length
    isRoot := commit.parentIds.isEmpty }

def lanesWidth (lanes : List LaneRef) : Nat :=
  lanes.foldl (fun width lane => max width (lane.position + 1)) 0

def layoutCommit (options : LayoutOptions) (result : LayoutResult) (commit : GraphCommit) :
    LayoutResult :=
  let row := layoutRow options result.continuation commit
  { rows := result.rows ++ [row]
    continuation := row.outputLanes
    laneCount := row.outputLanes.foldl (fun width lane => max width (lane.position + 1))
      (max result.laneCount (row.laneIndex + 1)) }

def layoutGraph (commits : List GraphCommit) (options : LayoutOptions) : LayoutResult :=
  commits.foldl (layoutCommit options)
    { rows := [], continuation := options.continuation,
      laneCount := lanesWidth options.continuation }

/-- The loop of `layout_pages`: each page starts with the lanes the one before left. -/
def layoutPage (options : LayoutOptions) (pages : LayoutResult) (page : List GraphCommit) :
    LayoutResult :=
  let layout := layoutGraph page { options with continuation := pages.continuation }
  { rows := pages.rows ++ layout.rows
    continuation := layout.continuation
    laneCount := max pages.laneCount layout.laneCount }

def foldPages (pages : List (List GraphCommit)) (options : LayoutOptions) : LayoutResult :=
  pages.foldl (layoutPage options)
    { rows := [], continuation := options.continuation, laneCount := 0 }

def layoutPages (pages : List (List GraphCommit)) (options : LayoutOptions) : PagesLayoutResult :=
  { rows := (foldPages pages options).rows, laneCount := (foldPages pages options).laneCount }

example :
    ((layoutGraph [⟨"m", ["l", "r"], []⟩, ⟨"l", ["b"], []⟩, ⟨"r", ["b"], []⟩, ⟨"b", [], []⟩]
      {}).rows.map GraphRow.laneIndex) = [0, 0, 1, 0] := by
  decide

end Refyard
