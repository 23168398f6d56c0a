import Mathlib.Data.List.Count
import Mathlib.Data.List.Perm.Basic
import Mathlib.Data.List.Nodup

/-! How many elements of a list have a key. What moves between lists that are tallied under one
key is conserved by adding up. -/
namespace Refyard

def tally {α β : Type} [DecidableEq β] (key : α → β) (list : List α) (name : β) : Nat :=
  list.countP fun element => key element = name

variable {α β : Type} [DecidableEq β] {key : α → β}

@[simp] theorem tally_nil (name : β) : tally key [] name = 0 := rfl

theorem tally_cons (element : α) (list : List α) (name : β) :
    tally key (element :: list) name = tally key list name + if key element = name then 1 else 0 := by
  unfold tally
  rw [List.countP_cons]
  simp

theorem tally_append (front back : List α) (name : β) :
    tally key (front ++ back) name = tally key front name + tally key back name :=
  List.countP_append

theorem tally_concat (list : List α) (element : α) (name : β) : tally key (list ++ [element]) name =
      tally key list name + if key element = name then 1 else 0 := by
  rw [tally_append, tally_cons, tally_nil, Nat.zero_add]

theorem tally_perm (key : α → β) {first second : List α} (same : first.Perm second) (name : β) :
    tally key first name = tally key second name :=
  same.countP_eq _

theorem tally_map (key : α → β) {γ : Type} (image : γ → α) (list : List γ) (name : β) :
    tally key (list.map image) name = tally (fun element => key (image element)) list name := by
  unfold tally
  rw [List.countP_map]
  rfl

variable {list : List α} {element : α} {place : Nat}

theorem tally_pos {name : β} : 0 < tally key list name ↔ ∃ element ∈ list, key element = name := by
  unfold tally
  simp

theorem tally_pos_of_mem (key : α → β) (member : element ∈ list) :
    0 < tally key list (key element) :=
  tally_pos.mpr ⟨element, member, rfl⟩

/-- The element at a place is counted, the others are the rest. -/
theorem tally_eraseIdx (key : α → β) (found : list[place]? = some element) (name : β) :
    tally key list name =
      tally key (list.eraseIdx place) name + if key element = name then 1 else 0 := by
  obtain ⟨within, here⟩ := List.getElem?_eq_some_iff.mp found
  have same := List.getElem_cons_eraseIdx_perm within
  rw [← tally_perm key same, here, tally_cons]

/-- Replacing an element trades one key for another. -/
theorem tally_set (key : α → β) (found : list[place]? = some element) (replacement : α) (name : β) :
    tally key (list.set place replacement) name + (if key element = name then 1 else 0) =
      tally key list name + if key replacement = name then 1 else 0 := by
  obtain ⟨within, here⟩ := List.getElem?_eq_some_iff.mp found
  have erased : (list.set place replacement).eraseIdx place = list.eraseIdx place :=
    List.eraseIdx_set_eq
  have put : (list.set place replacement)[place]? = some replacement := by
    rw [List.getElem?_set_self within]
  rw [tally_eraseIdx key put, tally_eraseIdx key found, erased]
  omega

theorem map_set_of_eq {γ : Type} {image : α → γ} {replacement : α}
    (found : list[place]? = some element) (same : image replacement = image element) :
    (list.set place replacement).map image = list.map image := by
  obtain ⟨within, -⟩ := List.getElem?_eq_some_iff.mp found
  apply List.ext_getElem?
  intro other
  rw [List.getElem?_map, List.getElem?_map]
  by_cases here : place = other
  · rw [← here, List.getElem?_set_self within, found, Option.map_some, Option.map_some, same]
  · rw [List.getElem?_set_ne here]

/-- No key is counted twice exactly where the keys do not repeat. -/
theorem tally_le_one : (∀ name, tally key list name ≤ 1) ↔ (list.map key).Nodup := by
  rw [List.nodup_iff_count_le_one]
  refine forall_congr' fun name => ?_
  rw [List.count_eq_countP, List.countP_map]
  rfl

/-- Of a key that is counted once there is one element. -/
theorem eq_of_tally {name : β} (once : tally key list name ≤ 1) {first second : α}
    (member : first ∈ list) (also : second ∈ list) (named : key first = name)
    (same : key second = name) : first = second := by
  unfold tally at once
  rw [List.countP_eq_length_filter] at once
  have inside : ∀ element ∈ list, key element = name →
      element ∈ list.filter fun element => key element = name :=
    fun element member named => List.mem_filter.mpr ⟨member, by simpa using named⟩
  cases counted : list.filter fun element => key element = name with
  | nil =>
    have here := inside first member named
    rw [counted] at here
    cases here
  | cons only rest =>
    rw [counted, List.length_cons] at once
    have alone : rest = [] := List.length_eq_zero_iff.mp (by omega)
    have here := inside first member named
    have there := inside second also same
    rw [counted, alone, List.mem_singleton] at here there
    rw [here, there]

end Refyard
