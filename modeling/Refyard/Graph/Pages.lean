import Refyard.Graph.Layout

/-! A page boundary is invisible: the lanes a page leaves are all that the next one
needs. -/
namespace Refyard

def rowsFrom (options : LayoutOptions) (lanes : List LaneRef) : List GraphCommit → List GraphRow
  | [] => []
  | commit :: rest =>
      layoutRow options lanes commit ::
        rowsFrom options (layoutRow options lanes commit).outputLanes rest

def lanesAfter (options : LayoutOptions) (lanes : List LaneRef) : List GraphCommit → List LaneRef
  | [] => lanes
  | commit :: rest => lanesAfter options (layoutRow options lanes commit).outputLanes rest

variable (options : LayoutOptions)
variable (lanes : List LaneRef) (result : LayoutResult) (commits : List GraphCommit)

theorem rowsFrom_append (first second : List GraphCommit) :
    rowsFrom options lanes (first ++ second) =
      rowsFrom options lanes first ++ rowsFrom options (lanesAfter options lanes first) second := by
  induction first generalizing lanes with
  | nil => rfl
  | cons commit rest ih => simp only [List.cons_append, rowsFrom, lanesAfter, ih]

theorem lanesAfter_append (first second : List GraphCommit) :
    lanesAfter options lanes (first ++ second) =
      lanesAfter options (lanesAfter options lanes first) second := by
  induction first generalizing lanes with
  | nil => rfl
  | cons commit rest ih => simp only [List.cons_append, lanesAfter, ih]

theorem foldl_layoutCommit (commits : List GraphCommit) :
    (commits.foldl (layoutCommit options) result).rows =
        result.rows ++ rowsFrom options result.continuation commits ∧
      (commits.foldl (layoutCommit options) result).continuation =
        lanesAfter options result.continuation commits := by
  induction commits generalizing result with
  | nil => simp [rowsFrom, lanesAfter]
  | cons commit rest ih =>
    obtain ⟨rows, continuation⟩ := ih (layoutCommit options result commit)
    rw [List.foldl_cons, rows, continuation]
    simp [layoutCommit, rowsFrom, lanesAfter]

theorem layoutGraph_rows (options : LayoutOptions) :
    (layoutGraph commits options).rows = rowsFrom options options.continuation commits := by
  unfold layoutGraph
  rw [(foldl_layoutCommit options _ commits).1, List.nil_append]

theorem layoutGraph_continuation (options : LayoutOptions) :
    (layoutGraph commits options).continuation = lanesAfter options options.continuation commits :=
  (foldl_layoutCommit options _ commits).2

theorem layoutRow_continuation (continuation lanes : List LaneRef) (commit : GraphCommit) :
    layoutRow { options with continuation } lanes commit = layoutRow options lanes commit := rfl

theorem rowsFrom_continuation (continuation lanes : List LaneRef) (commits : List GraphCommit) :
    rowsFrom { options with continuation } lanes commits = rowsFrom options lanes commits ∧
      lanesAfter { options with continuation } lanes commits =
        lanesAfter options lanes commits := by
  induction commits generalizing lanes with
  | nil => exact ⟨rfl, rfl⟩
  | cons commit rest ih =>
    simp only [rowsFrom, lanesAfter, layoutRow_continuation]
    exact ⟨by rw [(ih _).1], (ih _).2⟩

theorem layoutPage_eq (pages : LayoutResult) (page : List GraphCommit) :
    (layoutPage options pages page).rows = pages.rows ++ rowsFrom options pages.continuation page ∧
      (layoutPage options pages page).continuation =
        lanesAfter options pages.continuation page := by
  unfold layoutPage
  simp only [layoutGraph_rows, layoutGraph_continuation]
  have same := rowsFrom_continuation options pages.continuation pages.continuation page
  exact ⟨by rw [same.1], same.2⟩

theorem foldl_layoutPage (pages : List (List GraphCommit)) :
    (pages.foldl (layoutPage options) result).rows =
        result.rows ++ rowsFrom options result.continuation pages.flatten ∧
      (pages.foldl (layoutPage options) result).continuation =
        lanesAfter options result.continuation pages.flatten := by
  induction pages generalizing result with
  | nil => simp [rowsFrom, lanesAfter]
  | cons page rest ih =>
    obtain ⟨rows, continuation⟩ := ih (layoutPage options result page)
    obtain ⟨pageRows, pageLanes⟩ := layoutPage_eq options result page
    rw [List.foldl_cons, List.flatten_cons, rowsFrom_append, lanesAfter_append, rows,
      continuation, pageRows, pageLanes, List.append_assoc]
    exact ⟨rfl, rfl⟩

/-- However the commits are cut into pages, empty ones among them. -/
theorem pages_do_not_change_graph (pages : List (List GraphCommit)) (options : LayoutOptions) :
    (layoutPages pages options).rows = (layoutGraph pages.flatten options).rows ∧
      (foldPages pages options).continuation = (layoutGraph pages.flatten options).continuation := by
  have folded := foldl_layoutPage options
    { rows := [], continuation := options.continuation, laneCount := 0 } pages
  rw [layoutGraph_rows, layoutGraph_continuation]
  exact ⟨folded.1, folded.2⟩

end Refyard
