import Mathlib.Data.Finset.Card

/-! The least number that a finite set leaves free, found by counting up; and places of a list that
are claimed one after the other. -/
namespace Refyard.Slots

/-- `fuel` bounds the occupied numbers that the search can meet. -/
def freeFrom (occupied : Finset Nat) (position : Nat) : Nat → Nat
  | 0 => position
  | fuel + 1 =>
      if position ∈ occupied then freeFrom occupied (position + 1) fuel else position

def free (occupied : Finset Nat) : Nat := freeFrom occupied 0 occupied.card

theorem freeFrom_notMem {occupied : Finset Nat} {position fuel : Nat}
    (below : Finset.range position ⊆ occupied) (enough : occupied.card ≤ position + fuel) :
    freeFrom occupied position fuel ∉ occupied := by
  induction fuel generalizing position with
  | zero =>
    intro taken
    have grown : Finset.range (position + 1) ⊆ occupied := by
      rw [Finset.range_add_one]
      exact Finset.insert_subset taken below
    have counts := Finset.card_le_card grown
    rw [Finset.card_range] at counts
    omega
  | succ fuel ih =>
    unfold freeFrom
    split
    · rename_i taken
      apply ih
      · rw [Finset.range_add_one]
        exact Finset.insert_subset taken below
      · omega
    · assumption

theorem free_notMem (occupied : Finset Nat) : free occupied ∉ occupied := by
  apply freeFrom_notMem
  · simp
  · omega

section
variable {σ : Type}

/-- The places of a list that nobody has claimed, each with its number. -/
def unclaimed (places : List σ) (claimed : List Nat) : List (σ × Nat) :=
  places.zipIdx.filter fun place => !claimed.contains place.2

def firstUnclaimed (test : σ → Bool) (places : List σ) (claimed : List Nat) : Option (σ × Nat) :=
  places.zipIdx.find? fun place => test place.1 && !claimed.contains place.2

/-- The places that have been claimed, in that order, are places of the list, each once. -/
structure Claimed (places : List σ) (claimed : List Nat) (taken : List (σ × Nat)) : Prop where
  numbers : taken.map Prod.snd = claimed
  parts : places.zipIdx.Perm (taken ++ unclaimed places claimed)

theorem nodup_zipIdx (places : List σ) : (places.zipIdx.map Prod.snd).Nodup := by
  rw [List.zipIdx_map_snd]
  exact List.nodup_range'

theorem mem_unclaimed {places : List σ} {claimed : List Nat} {place : σ × Nat} :
    place ∈ unclaimed places claimed ↔ place ∈ places.zipIdx ∧ place.2 ∉ claimed := by
  simp [unclaimed]

/-- A claim takes one place out of those that are left. -/
theorem unclaimed_perm {places : List σ} {claimed : List Nat} {place : σ × Nat}
    (free : place ∈ unclaimed places claimed) :
    (unclaimed places claimed).Perm (place :: unclaimed places (claimed ++ [place.2])) := by
  have distinct := nodup_zipIdx places
  have apart (some : List Nat) : (unclaimed places some).Nodup :=
    (List.Nodup.of_map _ distinct).filter _
  refine (List.perm_ext_iff_of_nodup (apart claimed) ?_).mpr fun other => ?_
  · exact List.nodup_cons.mpr ⟨fun later => (mem_unclaimed.mp later).2 (by simp), apart _⟩
  · rw [List.mem_cons, mem_unclaimed, mem_unclaimed, List.mem_append, List.mem_singleton, not_or]
    constructor
    · intro inside
      by_cases same : other.2 = place.2
      · exact .inl (List.inj_on_of_nodup_map distinct inside.1 (mem_unclaimed.mp free).1 same)
      · exact .inr ⟨inside.1, inside.2, same⟩
    · rintro (rfl | ⟨inside, before, -⟩)
      · exact mem_unclaimed.mp free
      · exact ⟨inside, before⟩

namespace Claimed

variable {places : List σ} {claimed : List Nat} {taken : List (σ × Nat)} {test : σ → Bool}

theorem none (places : List σ) : Claimed places [] [] := by
  refine ⟨rfl, ?_⟩
  simp [unclaimed]

theorem claim (so_far : Claimed places claimed taken) {place : σ × Nat}
    (found : firstUnclaimed test places claimed = some place) :
    Claimed places (claimed ++ [place.2]) (taken ++ [place]) := by
  have member := List.mem_of_find?_eq_some found
  have passes := List.find?_some found
  have free : place ∈ unclaimed places claimed := by
    rw [Bool.and_eq_true] at passes
    exact List.mem_filter.mpr ⟨member, passes.2⟩
  refine ⟨?_, ?_⟩
  · rw [List.map_append, so_far.numbers]
    rfl
  · rw [List.append_assoc]
    exact so_far.parts.trans ((unclaimed_perm free).append_left taken)

/-- Of the places of one kind there are those that are taken and those that are not. -/
theorem countP_eq (so_far : Claimed places claimed taken) (test : σ → Bool) :
    places.countP test = taken.countP (fun place => test place.1) +
      (unclaimed places claimed).countP fun place => test place.1 := by
  have whole := so_far.parts.countP_eq fun place => test place.1
  rw [List.countP_append] at whole
  rw [← whole]
  conv_lhs => rw [← List.zipIdx_map_fst 0 places, List.countP_map]
  rfl

/-- Where fewer have been taken than there are, there is one to claim. -/
theorem exists_unclaimed (so_far : Claimed places claimed taken)
    (fewer : taken.countP (fun place => test place.1) < places.countP test) :
    ∃ place, firstUnclaimed test places claimed = some place ∧ test place.1 = true := by
  rw [so_far.countP_eq test] at fewer
  obtain ⟨place, member, passes⟩ := List.countP_pos_iff.mp (by omega :
    0 < (unclaimed places claimed).countP fun place => test place.1)
  obtain ⟨inside, free⟩ := List.mem_filter.mp member
  have there : (firstUnclaimed test places claimed).isSome :=
    List.find?_isSome.mpr ⟨place, inside, by rw [passes, free]; rfl⟩
  obtain ⟨first, found⟩ := Option.isSome_iff_exists.mp there
  have both := List.find?_some found
  rw [Bool.and_eq_true] at both
  exact ⟨first, found, both.1⟩

end Claimed

end

end Refyard.Slots
