import Mathlib.Data.List.TakeWhile

/-! Cutting a list at the first or at the last place where a separator stands. -/
namespace Refyard

theorem drop_past {α : Type} (front : List α) (separator : α) (rest : List α) :
    (front ++ separator :: rest).drop (front.length + 1) = rest := by
  rw [← List.drop_drop, List.drop_left, List.drop_one, List.tail_cons]

variable {α : Type} [DecidableEq α]

def splitOnce (separator : α) (values : List α) : Option (List α × List α) :=
  match values.dropWhile fun value => value ≠ separator with
  | [] => none
  | _ :: rest => some (values.takeWhile fun value => value ≠ separator, rest)

def rsplitOnce (separator : α) (values : List α) : Option (List α × List α) :=
  (splitOnce separator values.reverse).map fun (back, front) => (front.reverse, back.reverse)

/-- What stands behind the front, when the list begins with it. -/
def stripPrefix : List α → List α → Option (List α)
  | [], values => some values
  | first :: front, value :: values => if first = value then stripPrefix front values else none
  | _ :: _, [] => none

@[simp] theorem stripPrefix_append (front values : List α) :
    stripPrefix front (front ++ values) = some values := by
  induction front with
  | nil => rfl
  | cons first front ih => rw [List.cons_append, stripPrefix, if_pos rfl, ih]

variable {front values : List α} {separator : α}

theorem stripPrefix_eq_some {rest : List α} :
    stripPrefix front values = some rest ↔ values = front ++ rest := by
  induction front generalizing values with
  | nil => simp [stripPrefix]
  | cons first front ih =>
    cases values with
    | nil => simp [stripPrefix]
    | cons value values =>
      unfold stripPrefix
      by_cases same : first = value
      · rw [if_pos same, ih, same, List.cons_append, List.cons.injEq, and_iff_right rfl]
      · rw [if_neg same, List.cons_append, List.cons.injEq]
        simp [Ne.symm same]

theorem stripPrefix_eq_none : stripPrefix front values = none ↔ ¬ front <+: values := by
  induction front generalizing values with
  | nil => simp [stripPrefix]
  | cons first front ih =>
    cases values with
    | nil => simp [stripPrefix]
    | cons value values =>
      unfold stripPrefix
      by_cases same : first = value
      · rw [if_pos same, ih, List.cons_prefix_cons]
        simp [same]
      · rw [if_neg same, List.cons_prefix_cons]
        simp [same]

theorem splitOnce_append (absent : separator ∉ front) (rest : List α) :
    splitOnce separator (front ++ separator :: rest) = some (front, rest) := by
  have inside : ∀ value ∈ front, decide (value ≠ separator) = true := by
    intro value member
    rw [decide_eq_true_iff]
    exact fun same => absent (same ▸ member)
  unfold splitOnce
  rw [List.dropWhile_append_of_pos inside, List.takeWhile_append_of_pos inside,
    List.dropWhile_cons_of_neg (by simp), List.takeWhile_cons_of_neg (by simp), List.append_nil]

theorem splitOnce_of_notMem (absent : separator ∉ values) : splitOnce separator values = none := by
  have all : values.dropWhile (fun value => decide (value ≠ separator)) = [] := by
    rw [List.dropWhile_eq_nil_iff]
    intro value member
    rw [decide_eq_true_iff]
    exact fun same => absent (same ▸ member)
  unfold splitOnce
  rw [all]

theorem splitOnce_eq_some {rest : List α} : splitOnce separator values = some (front, rest) ↔
      separator ∉ front ∧ values = front ++ separator :: rest := by
  constructor
  · intro found
    by_cases member : separator ∈ values
    · obtain ⟨before, behind, rfl, absent⟩ := List.eq_append_cons_of_mem member
      rw [splitOnce_append absent, Option.some_inj] at found
      cases found
      exact ⟨absent, rfl⟩
    · rw [splitOnce_of_notMem member] at found
      cases found
  · rintro ⟨absent, rfl⟩
    exact splitOnce_append absent rest

theorem rsplitOnce_append {back : List α} (absent : separator ∉ back) (front : List α) :
    rsplitOnce separator (front ++ separator :: back) = some (front, back) := by
  have reversed : separator ∉ back.reverse := by
    rwa [List.mem_reverse]
  unfold rsplitOnce
  rw [List.reverse_append, List.reverse_cons, List.append_assoc, List.singleton_append,
    splitOnce_append reversed]
  simp

end Refyard
