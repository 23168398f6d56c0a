import Refyard.Foundation.FileTree
import Refyard.HostNode.Approvals

/-! Paths behind a real path, as `node:path` joins them. -/
namespace Refyard.Approvals

/-- `join` behind an absolute path. A separator at the end is kept. -/
def join (parent relative : String) : String :=
  let whole := parent ++ "/" ++ relative
  let names := segments whole
  let ended := whole.toList.getLast? = some '/' ∧ names ≠ []
  String.ofList ('/' :: ['/'].intercalate names ++ if ended then ['/'] else [])

/-- What `realpath` answers: absolute, and each name in it one of a directory's own. -/
def IsRealPath (path : String) : Prop :=
  ∃ names : List (List Char), path.toList = '/' :: ['/'].intercalate names ∧
    ∀ name ∈ names, ProperName name ∧ '/' ∉ name

/-- A path that `realpath` answered. -/
abbrev RealPath : Type := { path : String // IsRealPath path }

section
variable {path rest : String}

theorem separator_notMem {text : List Char} : ∀ name ∈ text.splitOn '/', '/' ∉ name := by
  cases parts : text.splitOn '/' with
  | nil => exact absurd parts (List.splitOn_ne_nil _ _)
  | cons first rest =>
    obtain ⟨-, free, others⟩ := Delimited.splitOn_eq_cons.mp parts
    exact List.forall_mem_cons.mpr ⟨free, others⟩

variable {names : List (List Char)}

theorem walk_proper {walked : List (List Char)} (proper : ∀ name ∈ names, ProperName name) :
    (names.filter fun name => name ≠ [] ∧ name ≠ ['.']).foldl
        (fun walked name => if name = ['.', '.'] then walked.dropLast else walked ++ [name])
        walked = walked ++ names := by
  induction names generalizing walked with
  | nil => exact (List.append_nil walked).symm
  | cons name names ih =>
    obtain ⟨⟨some_char, other, another⟩, rest⟩ := List.forall_mem_cons.mp proper
    rw [List.filter_cons_of_pos (by simp [some_char, other]), List.foldl_cons, if_neg another,
      ih rest, List.append_assoc, List.singleton_append]

theorem filter_splitOn_intercalate (proper : ∀ name ∈ names, ProperName name ∧ '/' ∉ name) :
    ((['/'].intercalate names).splitOn '/').filter (fun name => name ≠ [] ∧ name ≠ ['.']) =
      names.filter fun name => name ≠ [] ∧ name ≠ ['.'] := by
  by_cases none : names = []
  · rw [none]
    rfl
  · rw [List.splitOn_intercalate '/' (fun name member => (proper name member).2) none]

theorem splitOn_rooted (text : List Char) : ('/' :: text).splitOn '/' = [] :: text.splitOn '/' :=
  List.splitOn_append_cons_self (a := '/') [] text

theorem segments_real (spelled : path.toList = '/' :: ['/'].intercalate names)
    (proper : ∀ name ∈ names, ProperName name ∧ '/' ∉ name) : segments path = names := by
  unfold segments
  rw [spelled, splitOn_rooted, List.filter_cons_of_neg (by simp), filter_splitOn_intercalate proper]
  exact walk_proper fun name member => (proper name member).1

theorem segments_behind (spelled : path.toList = '/' :: ['/'].intercalate names)
    (proper : ∀ name ∈ names, ProperName name ∧ '/' ∉ name)
    (behind : ∀ name ∈ rest.toList.splitOn '/', ProperName name) :
    segments (path ++ "/" ++ rest) = names ++ rest.toList.splitOn '/' := by
  have whole : (path ++ "/" ++ rest).toList.splitOn '/' =
      [] :: ((['/'].intercalate names).splitOn '/' ++ rest.toList.splitOn '/') := by
    rw [String.toList_append, String.toList_append, spelled, List.append_assoc,
      show "/".toList ++ rest.toList = '/' :: rest.toList from rfl,
      List.splitOn_append_cons_self, splitOn_rooted, List.cons_append]
  have all : ∀ name ∈ names ++ rest.toList.splitOn '/', ProperName name := by
    intro name member
    rcases List.mem_append.mp member with front | back
    · exact (proper name front).1
    · exact behind name back
  unfold segments
  rw [whole, List.filter_cons_of_neg (by simp), List.filter_append,
    filter_splitOn_intercalate proper, ← List.filter_append]
  exact walk_proper all

theorem proper_behind (proper : ∀ name ∈ names, ProperName name ∧ '/' ∉ name)
    (behind : ∀ name ∈ rest.toList.splitOn '/', ProperName name) :
    ∀ name ∈ names ++ rest.toList.splitOn '/', ProperName name ∧ '/' ∉ name := by
  intro name member
  rcases List.mem_append.mp member with front | back
  · exact proper name front
  · exact ⟨behind name back, separator_notMem name back⟩

theorem getLast?_ne_separator (behind : ∀ name ∈ rest.toList.splitOn '/', ProperName name)
    (front : List Char) : (front ++ rest.toList).getLast? ≠ some '/' := by
  intro ends
  cases chars : rest.toList using List.reverseRecOn with
  | nil =>
    rw [chars] at behind
    exact (behind [] (by simp)).1 rfl
  | append_singleton text last =>
    rw [chars, ← List.append_assoc, List.getLast?_concat, Option.some_inj] at ends
    subst ends
    rw [chars, List.splitOn_append_cons_self] at behind
    exact (behind [] (List.mem_append_right _ (by simp))).1 rfl

theorem toList_join (spelled : path.toList = '/' :: ['/'].intercalate names)
    (proper : ∀ name ∈ names, ProperName name ∧ '/' ∉ name)
    (behind : ∀ name ∈ rest.toList.splitOn '/', ProperName name) :
    (join path rest).toList = '/' :: ['/'].intercalate (names ++ rest.toList.splitOn '/') := by
  have open_ended : (path ++ "/" ++ rest).toList.getLast? ≠ some '/' := by
    rw [String.toList_append]
    exact getLast?_ne_separator behind _
  unfold join
  rw [String.toList_ofList, segments_behind spelled proper behind,
    if_neg fun ended => open_ended ended.1, List.append_nil]

theorem isRealPath_join (real : IsRealPath path)
    (behind : ∀ name ∈ rest.toList.splitOn '/', ProperName name) : IsRealPath (join path rest) := by
  obtain ⟨names, spelled, proper⟩ := real
  exact ⟨_, toList_join spelled proper behind, proper_behind proper behind⟩

theorem relativeNames_append (names behind : List (List Char)) :
    relativeNames names (names ++ behind) = behind := by
  induction names with
  | nil => cases behind <;> rfl
  | cons name names ih =>
    rw [List.cons_append, relativeNames, if_pos rfl, ih]

theorem isInsideOrEqual_self (path : String) : isInsideOrEqual path path = true := by
  simp [isInsideOrEqual]

theorem isInsideOrEqual_join (real : IsRealPath path)
    (behind : ∀ name ∈ rest.toList.splitOn '/', ProperName name) :
    isInsideOrEqual path (join path rest) = true := by
  obtain ⟨names, spelled, proper⟩ := real
  have inner := segments_real (toList_join spelled proper behind) (proper_behind proper behind)
  unfold isInsideOrEqual
  rw [inner, segments_real spelled proper, relativeNames_append]
  cases parts : rest.toList.splitOn '/' with
  | nil => exact absurd parts (List.splitOn_ne_nil _ _)
  | cons first others =>
    rw [parts] at behind
    simp [(behind first List.mem_cons_self).2.2]

theorem join_inj {other : String} (real : IsRealPath path) (alsoReal : IsRealPath other)
    (behind : ∀ name ∈ rest.toList.splitOn '/', ProperName name)
    (same : join path rest = join other rest) : path = other := by
  obtain ⟨names, spelled, proper⟩ := real
  obtain ⟨others, spelledOther, properOther⟩ := alsoReal
  have inner := segments_real (toList_join spelled proper behind) (proper_behind proper behind)
  rw [same, segments_real (toList_join spelledOther properOther behind)
    (proper_behind properOther behind)] at inner
  rw [← String.toList_inj, spelled, spelledOther, List.append_cancel_right inner]

theorem proper_of_isSafe (safe : isSafeRelativePath rest = true) :
    ∀ name ∈ rest.toList.splitOn '/', ProperName name := by
  intro name member
  unfold isSafeRelativePath at safe
  rw [Bool.and_eq_true, List.all_eq_true] at safe
  have fine := of_decide_eq_true (safe.2 name member)
  exact ⟨fine.1, fine.2.1, fine.2.2⟩

end

end Refyard.Approvals
