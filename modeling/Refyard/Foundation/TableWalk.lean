import Refyard.Foundation.Table

/-! Tables that are walked in an order of their own: what a hash map does when it is
iterated, filtered, or changed in place. -/
namespace Refyard.Table

section
variable {α β : Type} [Ord α] [Std.TransOrd α] {key : β → α}

structure Walk (key : β → α) where
  entries : Table key → List β
  perm : ∀ table, (entries table).Perm table.values

def Walk.byKey : Walk key where
  entries := values
  perm := fun table => .refl table.values

theorem Walk.length_entries (walk : Walk key) (table : Table key) :
    (walk.entries table).length = table.size :=
  (walk.perm table).length_eq.trans (length_values table)

end

section
variable {α β : Type} [Ord α] [Std.TransOrd α] [Std.LawfulEqOrd α] {key : β → α}

def retain (table : Table key) (test : β → Bool) : Table key where
  map := table.map.filter fun _ value => test value
  keyed := by
    intro name value h
    rw [Std.ExtTreeMap.getElem?_filter'] at h
    exact table.keyed name value (Option.filter_eq_some_iff.mp h).1

variable (table : Table key)

theorem get?_retain (test : β → Bool) (name : α) :
    (table.retain test).get? name = (table.get? name).filter test := by
  unfold get? retain
  rw [Std.ExtTreeMap.getElem?_filter']

theorem values_retain_perm (test : β → Bool) :
    (table.retain test).values.Perm (table.values.filter test) := by
  rw [List.perm_ext_iff_of_nodup (values_nodup _) ((values_nodup table).filter test)]
  intro value
  rw [mem_values, get?_retain, Option.filter_eq_some_iff, List.mem_filter, mem_values]

theorem size_retain (test : β → Bool) :
    (table.retain test).size = (table.values.filter test).length := by
  rw [← length_values, (table.values_retain_perm test).length_eq]

theorem size_retain_le (test : β → Bool) : (table.retain test).size ≤ table.size := by
  rw [size_retain, ← length_values]
  exact List.length_filter_le _ _

theorem retain_eq_self {table : Table key} {test : β → Bool}
    (all : ∀ name value, table.get? name = some value → test value = true) :
    table.retain test = table := by
  apply Table.ext
  intro name
  rw [get?_retain]
  cases held : table.get? name with
  | none => rfl
  | some value => rw [Option.filter_some, if_pos (all name value held)]

/-- Only a test that fails makes a table smaller. -/
theorem passes_of_size {table : Table key} {test : β → Bool}
    (many : table.size ≤ (table.retain test).size) {name : α} {value : β}
    (held : table.get? name = some value) : test value = true := by
  rw [size_retain, ← length_values] at many
  have whole := List.length_filter_eq_length_iff.mp
    (Nat.le_antisymm (List.length_filter_le test table.values) many)
  exact whole value (mem_values_of_get? held)

theorem size_le_of_held {before after : Table key}
    (held : ∀ name value, after.get? name = some value → ∃ old, before.get? name = some old) :
    after.size ≤ before.size := by
  have names : after.values.map key ⊆ before.values.map key := by
    intro name member
    obtain ⟨value, listed, rfl⟩ := List.mem_map.mp member
    obtain ⟨old, found⟩ := held (key value) value (mem_values.mp listed)
    exact List.mem_map.mpr ⟨old, mem_values_of_get? found, key_of_get? found⟩
  have fewer := (List.subperm_of_subset after.keys_nodup names).length_le
  rwa [List.length_map, List.length_map, length_values, length_values] at fewer

def update (table : Table key) (change : β → β) (keeps : ∀ value, key (change value) = key value) :
    Table key where
  map := table.map.map fun _ value => change value
  keyed := by
    intro name value h
    rw [Std.ExtTreeMap.getElem?_map, Option.map_eq_some_iff] at h
    obtain ⟨before, held, rfl⟩ := h
    rw [keeps]
    exact table.keyed name before held

theorem get?_update {change : β → β} (keeps : ∀ value, key (change value) = key value) (name : α) :
    (table.update change keeps).get? name = (table.get? name).map change := by
  unfold get? update
  rw [Std.ExtTreeMap.getElem?_map]

theorem Walk.mem_entries (walk : Walk key) {table : Table key} {value : β} :
    value ∈ walk.entries table ↔ table.get? (key value) = some value :=
  (walk.perm table).mem_iff.trans mem_values

/-- Looking for the entry of a name on the way finds the entry the name leads to. -/
theorem Walk.find?_entries [DecidableEq α] (walk : Walk key) (table : Table key) (name : α) :
    (walk.entries table).find? (fun value => key value = name) = table.get? name := by
  cases found : (walk.entries table).find? (fun value => key value = name) with
  | none =>
    cases held : table.get? name with
    | none => rfl
    | some value =>
      rw [List.find?_eq_none] at found
      have member : value ∈ walk.entries table := by
        rw [walk.mem_entries, key_of_get? held]
        exact held
      exact absurd (key_of_get? held) (by simpa using found value member)
  | some value =>
    have member := walk.mem_entries.mp (List.mem_of_find?_eq_some found)
    have named := List.find?_some found
    rw [decide_eq_true_iff] at named
    rw [← named]
    exact member.symm

end

def first {β : Type} (age : β → Int) : List β → Option β
  | [] => none
  | value :: rest =>
      match first age rest with
      | none => some value
      | some other => if age other < age value then some other else some value

variable {β : Type}

theorem mem_of_first {age : β → Int} {list : List β} {value : β} (h : first age list = some value) :
    value ∈ list := by
  induction list with
  | nil => cases h
  | cons head rest ih =>
    unfold first at h
    split at h
    · exact Option.some.inj h ▸ List.mem_cons_self
    · rename_i other found
      split at h
      · cases Option.some.inj h
        exact List.mem_cons_of_mem _ (ih found)
      · exact Option.some.inj h ▸ List.mem_cons_self

theorem first_eq_none {age : β → Int} {list : List β} : first age list = none ↔ list = [] := by
  cases list with
  | nil => simp [first]
  | cons head rest =>
    unfold first
    split
    · simp
    · split <;> simp

theorem first_le {age : β → Int} {list : List β} {value other : β} (h : first age list = some value)
    (member : other ∈ list) : age value ≤ age other := by
  induction list generalizing value with
  | nil => cases member
  | cons head rest ih =>
    unfold first at h
    split at h
    · rename_i empty
      cases Option.some.inj h
      rw [first_eq_none] at empty
      rw [empty, List.mem_singleton] at member
      exact Int.le_of_eq (congrArg age member).symm
    · rename_i least found
      have behind := @ih least found
      split at h
      · rename_i smaller
        cases Option.some.inj h
        obtain rfl | later := List.mem_cons.mp member
        · omega
        · exact behind later
      · rename_i smaller
        cases Option.some.inj h
        obtain rfl | later := List.mem_cons.mp member
        · omega
        · have bound := behind later
          omega

/-- What the walk meets before is older than none, what it meets behind is no older. -/
theorem first_eq_some {age : β → Int} {list : List β} {value : β} :
    first age list = some value ↔ ∃ front back, list = front ++ value :: back ∧
      (∀ other ∈ front, age value < age other) ∧ ∀ other ∈ back, age value ≤ age other := by
  constructor
  · intro found
    induction list with
    | nil => cases found
    | cons head rest ih =>
      have least : ∀ other ∈ head :: rest, age value ≤ age other := fun other member =>
        first_le found member
      unfold first at found
      split at found
      · cases Option.some.inj found
        exact ⟨[], rest, rfl, nofun, fun other member => least other (List.mem_cons_of_mem _ member)⟩
      · rename_i other behind
        split at found
        · rename_i smaller
          cases Option.some.inj found
          obtain ⟨front, back, rfl, before, after⟩ := ih behind
          exact ⟨head :: front, back, rfl, List.forall_mem_cons.mpr ⟨smaller, before⟩, after⟩
        · cases Option.some.inj found
          exact ⟨[], rest, rfl, nofun,
            fun other member => least other (List.mem_cons_of_mem _ member)⟩
  · rintro ⟨front, back, rfl, before, after⟩
    induction front with
    | nil =>
      rw [List.nil_append, first]
      split
      · rfl
      · rename_i other found
        rw [if_neg (Int.not_lt.mpr (after other (mem_of_first found)))]
    | cons head rest ih =>
      rw [List.forall_mem_cons] at before
      rw [List.cons_append, first, ih before.2]
      exact if_pos before.1

/-- A stable sort puts the first of the least in front. -/
theorem head?_mergeSort {age : β → Int} {list : List β} (distinct : list.Nodup) :
    (list.mergeSort fun left right => age left ≤ age right).head? = first age list := by
  have trans (a b c : β) : decide (age a ≤ age b) = true → decide (age b ≤ age c) = true →
      decide (age a ≤ age c) = true := by
    simp only [decide_eq_true_iff]
    exact Int.le_trans
  have total (a b : β) : (decide (age a ≤ age b) || decide (age b ≤ age a)) = true := by
    simp only [Bool.or_eq_true, decide_eq_true_iff]
    exact Int.le_total _ _
  have perm := List.mergeSort_perm list fun left right => decide (age left ≤ age right)
  have ordered := List.pairwise_mergeSort trans total list
  cases found : first age list with
  | none => simp [first_eq_none.mp found]
  | some value =>
    obtain ⟨front, back, rfl, before, after⟩ := first_eq_some.mp found
    cases sorted : (front ++ value :: back).mergeSort fun left right => age left ≤ age right with
    | nil =>
      have listed : value ∈ (front ++ value :: back).mergeSort fun left right =>
          age left ≤ age right := List.mem_mergeSort.mpr (by simp)
      rw [sorted] at listed
      cases listed
    | cons head rest =>
      rw [sorted] at perm ordered
      have unique := perm.nodup_iff.mpr distinct
      have within : value ∈ head :: rest := perm.mem_iff.mpr (by simp)
      refine congrArg some ?_
      by_contra differs
      have later : value ∈ rest := (List.mem_cons.mp within).resolve_left (Ne.symm differs)
      have smaller := of_decide_eq_true ((List.pairwise_cons.mp ordered).1 value later)
      obtain ahead | same | behind : head ∈ front ∨ head = value ∨ head ∈ back := by
        have member : head ∈ front ++ value :: back := perm.mem_iff.mp List.mem_cons_self
        rw [List.mem_append, List.mem_cons] at member
        exact member
      · exact absurd smaller (Int.not_le.mpr (before head ahead))
      · exact differs same
      · have pair : [value, head].Sublist (front ++ value :: back) :=
          (List.Sublist.cons_cons value (List.singleton_sublist.mpr behind)).trans
            (List.sublist_append_right front _)
        have kept := List.pair_sublist_mergeSort trans total
          (decide_eq_true (after head behind)) pair
        rw [sorted] at kept
        cases kept with
        | cons _ again =>
          have inside := again.subset (List.mem_cons_of_mem _ (List.mem_singleton_self head))
          exact (List.nodup_cons.mp unique).1 inside
        | cons_cons _ _ => exact differs rfl

section
variable {α β : Type} [Ord α] [Std.TransOrd α] [Std.LawfulEqOrd α] [DecidableEq α] {key : β → α}
variable {table : Table key} {name : α} {walk : Walk key} {age : β → Int} {limit fuel : Nat}

theorem erase_of_absent (absent : table.get? name = none) : table.erase name = table := by
  apply Table.ext
  intro other
  rw [get?_erase]
  split
  · rename_i same
    rw [same, absent]
  · rfl

theorem size_erase_le (table : Table key) (name : α) : (table.erase name).size ≤ table.size := by
  cases held : table.get? name with
  | none =>
    have same := congrArg Table.size (erase_of_absent held)
    exact Nat.le_of_eq same
  | some value =>
    have fewer := size_erase held
    omega

/-- A value takes the place of the one that was filed under its key, if there was one. -/
theorem size_insert_beside (table : Table key) (value : β) : (table.insert value).size =
      (table.values.filter fun other => key other ≠ key value).length + 1 := by
  have replaced : table.insert value =
      (table.retain fun other => key other ≠ key value).insert value := by
    ext name
    rw [get?_insert, get?_insert, get?_retain]
    split
    · rfl
    · rename_i differs
      cases held : table.get? name with
      | none => rfl
      | some other =>
        have named := key_of_get? held
        rw [Option.filter_some, if_pos]
        simpa [named] using differs
  have free : (table.retain fun other => key other ≠ key value).get? (key value) = none := by
    rw [get?_retain, Option.filter_eq_none_iff]
    intro other held
    simp [key_of_get? held]
  rw [replaced, size_insert free, size_retain]

theorem size_insert_retain (table : Table key) (test : β → Bool) (value : β) :
    ((table.retain test).insert value).size =
      (table.values.filter fun other => test other && key other ≠ key value).length + 1 := by
  have kept := (table.values_retain_perm test).filter fun other => key other ≠ key value
  rw [size_insert_beside, kept.length_eq, List.filter_filter]
  simp only [Bool.and_comm]

def trim (walk : Walk key) (age : β → Int) (limit : Nat) : Nat → Table key → Table key
  | 0, table => table
  | fuel + 1, table =>
      if limit < table.size then
        match first age (walk.entries table) with
        | none => table
        | some oldest => trim walk age limit fuel (table.erase (key oldest))
      else table

/-- Dropping only takes entries away. -/
theorem get?_of_trim {value : β} (h : (trim walk age limit fuel table).get? name = some value) :
    table.get? name = some value := by
  induction fuel generalizing table with
  | zero => exact h
  | succ fuel ih =>
    unfold trim at h
    split at h
    · split at h
      · exact h
      · have kept := ih h
        rw [get?_erase] at kept
        split at kept
        · cases kept
        · exact kept
    · exact h

/-- What is dropped is no younger than what is kept. -/
theorem age_le_of_trim {other : α} {dropped kept : β} (held : table.get? name = some dropped)
    (gone : (trim walk age limit fuel table).get? name = none)
    (stays : (trim walk age limit fuel table).get? other = some kept) :
    limit < table.size ∧ age dropped ≤ age kept := by
  induction fuel generalizing table with
  | zero =>
    rw [trim, held] at gone
    cases gone
  | succ fuel ih =>
    unfold trim at gone stays
    split at gone
    · rename_i many
      refine ⟨many, ?_⟩
      rw [if_pos many] at stays
      split at gone
      · rw [held] at gone
        cases gone
      · rename_i oldest found
        rw [found] at stays
        by_cases same : name = key oldest
        · have first := walk.mem_entries.mp (mem_of_first found)
          rw [← same, held] at first
          cases first
          have before := get?_of_trim stays
          rw [get?_erase] at before
          split at before
          · cases before
          · refine first_le found (walk.mem_entries.mpr ?_)
            rw [key_of_get? before, before]
        · refine (ih ?_ gone stays).2
          rw [get?_erase, if_neg same, held]
    · rw [held] at gone
      cases gone

omit [Std.LawfulEqOrd α] [DecidableEq α] in
theorem trim_of_le (few : table.size ≤ limit) : trim walk age limit fuel table = table := by
  cases fuel with
  | zero => rfl
  | succ fuel => rw [trim, if_neg (Nat.not_lt.mpr few)]

end
end Refyard.Table
