import Mathlib.Data.List.Basic

/-! Lists that grow at their end and are cut at their front. -/
namespace Refyard

variable {α : Type}

theorem getElem?_concat_eq_some {list : List α} {last element : α} {place : Nat} :
    (list ++ [last])[place]? = some element ↔
      list[place]? = some element ∨ place = list.length ∧ last = element := by
  rw [List.getElem?_append]
  split
  · rename_i before
    exact (or_iff_left fun h => Nat.ne_of_lt before h.1).symm
  · rename_i behind
    rw [List.getElem?_eq_none (Nat.le_of_not_lt behind), List.getElem?_singleton]
    have : place - list.length = 0 ↔ place = list.length := by omega
    simp [this]

theorem getElem?_of_prefix {before after : List α} (grown : before <+: after) {place : Nat}
    {element : α} (found : before[place]? = some element) : after[place]? = some element := by
  obtain ⟨inside, same⟩ := List.getElem?_eq_some_iff.mp found
  rw [← same]
  exact List.prefix_iff_getElem?.mp grown place inside

/-- What passes a test that every later element passes too is the end of the list. -/
theorem filter_eq_drop {test : α → Bool} {list : List α}
    (closed : list.Pairwise fun earlier later => test earlier = true → test later = true) :
    ∃ count ≤ list.length, list.filter test = list.drop count ∧
      ∀ place element, list[place]? = some element → (place < count ↔ test element = false) := by
  induction list with
  | nil => exact ⟨0, Nat.le_refl _, rfl, by simp⟩
  | cons first rest ih =>
    rw [List.pairwise_cons] at closed
    cases passes : test first with
    | true =>
      have all : ∀ element ∈ first :: rest, test element = true := by
        intro element member
        rw [List.mem_cons] at member
        cases member with
        | inl same => rw [same, passes]
        | inr later => exact closed.1 element later passes
      refine ⟨0, Nat.zero_le _, List.filter_eq_self.mpr all, ?_⟩
      intro place element found
      simp [all element (List.mem_of_getElem? found)]
    | false =>
      obtain ⟨count, within, kept, tested⟩ := ih closed.2
      refine ⟨count + 1, Nat.succ_le_succ within, ?_, ?_⟩
      · rw [List.filter_cons_of_neg (by simp [passes]), kept, List.drop_succ_cons]
      · intro place element found
        cases place with
        | zero =>
          rw [List.getElem?_cons_zero, Option.some_inj] at found
          simp [← found, passes]
        | succ place =>
          rw [List.getElem?_cons_succ] at found
          rw [Nat.add_lt_add_iff_right]
          exact tested place element found

end Refyard
