import Mathlib.Data.List.Basic

/-! Texts behind one another with a mark between them: where the mark does not occur in
what stands on one side of it, the parts are determined by the whole. -/
namespace Refyard.Delimited

variable {α : Type} {mark : α}
variable {front other back rest : List α}

/-- The first mark. -/
theorem first_inj (free : mark ∉ front) (alsoFree : mark ∉ other)
    (same : front ++ mark :: back = other ++ mark :: rest) : front = other ∧ back = rest := by
  induction front generalizing other with
  | nil =>
    cases other with
    | nil => exact ⟨rfl, (List.cons.inj same).2⟩
    | cons head tail =>
      rw [List.nil_append, List.cons_append] at same
      exact absurd (List.mem_cons.mpr (.inl (List.cons.inj same).1)) alsoFree
  | cons head tail ih =>
    cases other with
    | nil =>
      rw [List.nil_append, List.cons_append] at same
      exact absurd (List.mem_cons.mpr (.inl (List.cons.inj same).1.symm)) free
    | cons otherHead otherTail =>
      rw [List.cons_append, List.cons_append] at same
      obtain ⟨heads, tails⟩ := List.cons.inj same
      rw [List.mem_cons, not_or] at free alsoFree
      obtain ⟨fronts, backs⟩ := ih free.2 alsoFree.2 tails
      exact ⟨by rw [heads, fronts], backs⟩

/-- The last mark. -/
theorem last_inj (free : mark ∉ back) (alsoFree : mark ∉ rest)
    (same : front ++ mark :: back = other ++ mark :: rest) : front = other ∧ back = rest := by
  have turned := congrArg List.reverse same
  simp only [List.reverse_append, List.reverse_cons, List.append_assoc, List.singleton_append]
    at turned
  obtain ⟨backs, fronts⟩ := first_inj (by rwa [List.mem_reverse]) (by rwa [List.mem_reverse]) turned
  exact ⟨List.reverse_inj.mp fronts, List.reverse_inj.mp backs⟩

/-- Nothing, or a mark: what ends a text that does not hold the mark. -/
def Ends (mark : α) (rest : List α) : Prop := ∀ token ∈ rest.head?, token = mark

theorem ends_inj (free : mark ∉ front) (alsoFree : mark ∉ other) (ends : Ends mark back)
    (alsoEnds : Ends mark rest) (same : front ++ back = other ++ rest) :
    front = other ∧ back = rest := by
  cases back with
  | nil =>
    cases rest with
    | nil => simpa using same
    | cons token tail =>
      obtain rfl := alsoEnds token rfl
      have member : token ∈ front := by
        rw [← List.append_nil front, same]
        simp
      exact absurd member free
  | cons token tail =>
    obtain rfl := ends token rfl
    cases rest with
    | nil =>
      have member : token ∈ other := by
        rw [← List.append_nil other, ← same]
        simp
      exact absurd member alsoFree
    | cons otherToken otherTail =>
      obtain rfl := alsoEnds otherToken rfl
      obtain ⟨fronts, backs⟩ := first_inj free alsoFree same
      exact ⟨fronts, by rw [backs]⟩

def marked (mark : α) (texts : List (List α)) : List α := texts.flatMap (mark :: ·)

theorem ends_marked (mark : α) (texts : List (List α)) : Ends mark (marked mark texts) := by
  cases texts with
  | nil => simp [marked, Ends]
  | cons text rest =>
    intro token first
    simpa [marked, eq_comm] using first

/-- The parts between the marks. -/
theorem splitOn_eq_cons [DecidableEq α] {values first : List α} {rest : List (List α)} :
    values.splitOn mark = first :: rest ↔
      values = first ++ marked mark rest ∧ mark ∉ first ∧ ∀ part ∈ rest, mark ∉ part := by
  constructor
  · intro parts
    induction values generalizing first rest with
    | nil =>
      obtain ⟨rfl, rfl⟩ := List.cons.inj parts
      exact ⟨rfl, List.not_mem_nil, fun _ none => absurd none List.not_mem_nil⟩
    | cons value values ih =>
      rw [List.splitOn_cons_eq_if_modifyHead] at parts
      split at parts
      · rename_i same
        obtain ⟨rfl, rfl⟩ := List.cons.inj parts
        obtain rfl := beq_iff_eq.mp same
        cases others : values.splitOn value with
        | nil => exact absurd others (List.splitOn_ne_nil _ _)
        | cons second more =>
          obtain ⟨spelled, free, frees⟩ := ih others
          refine ⟨by rw [spelled]; simp [marked], List.not_mem_nil, ?_⟩
          exact List.forall_mem_cons.mpr ⟨free, frees⟩
      · rename_i differs
        cases others : values.splitOn mark with
        | nil => exact absurd others (List.splitOn_ne_nil _ _)
        | cons second more =>
          rw [others, List.modifyHead_cons] at parts
          obtain ⟨rfl, rfl⟩ := List.cons.inj parts
          obtain ⟨spelled, free, frees⟩ := ih others
          refine ⟨by rw [spelled, List.cons_append], ?_, frees⟩
          rw [List.mem_cons, not_or]
          exact ⟨fun same => differs (beq_iff_eq.mpr same.symm), free⟩
  · rintro ⟨rfl, free, frees⟩
    induction rest generalizing first with
    | nil =>
      rw [marked, List.flatMap_nil, List.append_nil]
      exact List.splitOn_eq_singleton free
    | cons second more ih =>
      rw [List.forall_mem_cons] at frees
      rw [marked, List.flatMap_cons, List.cons_append,
        List.splitOn_append_cons_self_of_not_mem free]
      exact congrArg _ (ih frees.1 frees.2)

/-- Lines with the mark behind each, and a last one without. -/
theorem splitOn_lines [DecidableEq α] {lines : List (List α)} {last : List α}
    (free : ∀ line ∈ lines, mark ∉ line) (lastFree : mark ∉ last) :
    ((lines.flatMap fun line => line ++ [mark]) ++ last).splitOn mark = lines ++ [last] := by
  induction lines with
  | nil => exact List.splitOn_eq_singleton lastFree
  | cons line lines ih =>
    rw [List.forall_mem_cons] at free
    rw [List.flatMap_cons, List.append_assoc, List.append_assoc, List.singleton_append,
      List.splitOn_append_cons_self_of_not_mem free.1, ih free.2, List.cons_append]

/-- Lines with the mark behind each. -/
theorem splitOn_terminated [DecidableEq α] {lines : List (List α)}
    (free : ∀ line ∈ lines, mark ∉ line) :
    (lines.flatMap fun line => line ++ [mark]).splitOn mark = lines ++ [[]] := by
  have ended := splitOn_lines free (List.not_mem_nil (a := mark))
  rwa [List.append_nil] at ended

/-- In values written one behind another, a mark that one value alone is written with stands
where that value does. -/
theorem flatMap_eq_append {β : Type} {code : β → List α} {value : β} (own : code value = [mark])
    (apart : ∀ other, other ≠ value → mark ∉ code other) {values : List β} :
    values.flatMap code = front ++ mark :: back ↔
      ∃ before behind, values = before ++ value :: behind ∧ before.flatMap code = front ∧
        behind.flatMap code = back := by
  constructor
  · intro cut
    induction values generalizing front with
    | nil =>
      rw [List.flatMap_nil, eq_comm, List.append_eq_nil_iff] at cut
      exact absurd cut.2 (List.cons_ne_nil _ _)
    | cons first rest ih =>
      rw [List.flatMap_cons, List.append_eq_append_iff] at cut
      obtain ⟨tail, rfl, later⟩ | ⟨tail, written, later⟩ := cut
      · obtain ⟨before, behind, rfl, rfl, ended⟩ := ih later
        exact ⟨first :: before, behind, rfl, List.flatMap_cons, ended⟩
      · cases tail with
        | nil =>
          have others : rest.flatMap code = [] ++ mark :: back := later.symm
          obtain ⟨before, behind, rfl, started, ended⟩ := ih others
          refine ⟨first :: before, behind, rfl, ?_, ended⟩
          rw [List.flatMap_cons, started, written, List.append_nil, List.append_nil]
        | cons token tail =>
          obtain ⟨rfl, rfl⟩ := List.cons.inj later
          have holds : mark ∈ code first := by rw [written]; simp
          by_cases same : first = value
          · subst same
            rw [own] at written
            cases front with
            | nil => exact ⟨[], rest, rfl, rfl, by rw [(List.cons.inj written).2.symm]; rfl⟩
            | cons token front => simp at written
          · exact absurd holds (apart first same)
  · rintro ⟨before, behind, rfl, rfl, rfl⟩
    rw [List.flatMap_append, List.flatMap_cons, own]
    rfl

end Refyard.Delimited
