import Mathlib.Data.List.Perm.Basic
import Mathlib.Data.List.Nodup
import Std.Data.ExtTreeMap

/-! Ordered maps whose entries are filed under a key read from the value itself.
The invariant is a field, so an entry under a foreign key cannot be built. -/
namespace Refyard

structure Table {α β : Type} [Ord α] [Std.TransOrd α] (key : β → α) where
  map : Std.ExtTreeMap α β compare
  keyed : ∀ (name : α) (value : β), map[name]? = some value → key value = name

namespace Table

section
variable {α β : Type} [Ord α] [Std.TransOrd α] {key : β → α}

def empty : Table key where
  map := ∅
  keyed := by simp

instance : Inhabited (Table key) := ⟨empty⟩

def get? (table : Table key) (name : α) : Option β := table.map[name]?

def contains (table : Table key) (name : α) : Bool := (table.get? name).isSome

def values (table : Table key) : List β := table.map.toList.map Prod.snd

def size (table : Table key) : Nat := table.map.size

theorem key_of_get? {table : Table key} {name : α} {value : β}
    (h : table.get? name = some value) : key value = name :=
  table.keyed name value h

@[simp] theorem get?_empty (name : α) : (empty : Table key).get? name = none := by
  simp [get?, empty]

theorem contains_eq_false {table : Table key} {name : α} :
    table.contains name = false ↔ table.get? name = none := by
  unfold contains
  rw [Option.isSome_eq_false_iff, Option.isNone_iff_eq_none]

@[simp] theorem length_values (table : Table key) : table.values.length = table.size := by
  simp [values, size]

end

section
variable {α β : Type} [Ord α] [Std.TransOrd α] [Std.LawfulEqOrd α] {key : β → α}

def insert (table : Table key) (value : β) : Table key where
  map := table.map.insert (key value) value
  keyed := by
    intro name other h
    rw [Std.ExtTreeMap.getElem?_insert] at h
    split at h
    · rename_i same
      cases Option.some.inj h
      exact Std.LawfulEqOrd.eq_of_compare same
    · exact table.keyed name other h

def erase (table : Table key) (name : α) : Table key where
  map := table.map.erase name
  keyed := by
    intro other value h
    rw [Std.ExtTreeMap.getElem?_erase] at h
    split at h
    · contradiction
    · exact table.keyed other value h

variable (table : Table key)

theorem size_le_insert (value : β) : table.size ≤ (table.insert value).size :=
  Std.ExtTreeMap.size_le_size_insert

@[ext] theorem ext {left right : Table key} (h : ∀ name, left.get? name = right.get? name) :
    left = right := by
  cases left with
  | mk left =>
    cases right with
    | mk right =>
      congr 1
      exact Std.ExtTreeMap.ext_getElem? h

theorem mem_values {table : Table key} {value : β} :
    value ∈ table.values ↔ table.get? (key value) = some value := by
  unfold values get?
  rw [List.mem_map]
  constructor
  · rintro ⟨⟨name, other⟩, member, rfl⟩
    have found := Std.ExtTreeMap.mem_toList_iff_getElem?_eq_some.mp member
    rw [table.keyed name other found]
    exact found
  · intro h
    exact ⟨(key value, value), Std.ExtTreeMap.mem_toList_iff_getElem?_eq_some.mpr h, rfl⟩

theorem mem_values_of_get? {table : Table key} {name : α} {value : β}
    (h : table.get? name = some value) : value ∈ table.values := by
  rw [mem_values, key_of_get? h]
  exact h

@[simp] theorem values_empty : (empty : Table key).values = [] := by
  rw [List.eq_nil_iff_forall_not_mem]
  intro value member
  simp [mem_values] at member

theorem keys_nodup : (table.values.map key).Nodup := by
  have distinct := table.map.distinct_keys_toList
  unfold values
  rw [List.map_map, List.Nodup, List.pairwise_map]
  refine List.Pairwise.imp_of_mem ?_ distinct
  rintro ⟨name, value⟩ ⟨other, second⟩ member memberOther differ
  have found := Std.ExtTreeMap.mem_toList_iff_getElem?_eq_some.mp member
  have foundOther := Std.ExtTreeMap.mem_toList_iff_getElem?_eq_some.mp memberOther
  simp only [Function.comp_apply, table.keyed _ _ found, table.keyed _ _ foundOther]
  intro same
  exact differ (Std.compare_eq_iff_eq.mpr same)

theorem values_nodup : table.values.Nodup :=
  List.Nodup.of_map key table.keys_nodup

end

section
variable {α β : Type} [Ord α] [Std.TransOrd α] [Std.LawfulEqOrd α] [DecidableEq α] {key : β → α}

theorem get?_insert (table : Table key) (value : β) (name : α) :
    (table.insert value).get? name = if name = key value then some value else table.get? name := by
  unfold get? insert
  rw [Std.ExtTreeMap.getElem?_insert]
  by_cases h : name = key value
  · rw [if_pos h, if_pos (Std.compare_eq_iff_eq.mpr h.symm)]
  · rw [if_neg h, if_neg fun same => h (Std.LawfulEqOrd.eq_of_compare same).symm]

@[simp] theorem get?_insert_self (table : Table key) (value : β) :
    (table.insert value).get? (key value) = some value := by
  rw [get?_insert, if_pos rfl]

variable {table : Table key} {value : β} {name : α}

theorem get?_insert_of_ne (h : name ≠ key value) :
    (table.insert value).get? name = table.get? name := by
  rw [get?_insert, if_neg h]

theorem get?_erase (table : Table key) (name other : α) :
    (table.erase name).get? other = if other = name then none else table.get? other := by
  unfold get? erase
  rw [Std.ExtTreeMap.getElem?_erase]
  by_cases h : other = name
  · rw [if_pos h, if_pos (Std.compare_eq_iff_eq.mpr h.symm)]
  · rw [if_neg h, if_neg fun same => h (Std.LawfulEqOrd.eq_of_compare same).symm]

@[simp] theorem get?_erase_self (table : Table key) (name : α) :
    (table.erase name).get? name = none := by
  rw [get?_erase, if_pos rfl]

/-- Filing under a free key adds one entry. -/
theorem values_insert_perm (free : table.get? (key value) = none) :
    (table.insert value).values.Perm (value :: table.values) := by
  have absent : value ∉ table.values := by
    rw [mem_values, free]
    simp
  rw [List.perm_ext_iff_of_nodup (values_nodup _) (List.nodup_cons.mpr ⟨absent, values_nodup _⟩)]
  intro other
  rw [mem_values, get?_insert, List.mem_cons, mem_values]
  split
  · rename_i same
    rw [same, free]
    simp [eq_comm]
  · rename_i differ
    simp only [iff_or_self]
    rintro rfl
    exact absurd rfl differ

/-- Clearing a held key removes its one entry. -/
theorem values_erase_perm (held : table.get? name = some value) :
    table.values.Perm (value :: (table.erase name).values) := by
  have hkey := key_of_get? held
  have absent : value ∉ (table.erase name).values := by
    rw [mem_values, hkey, get?_erase_self]
    simp
  rw [List.perm_ext_iff_of_nodup (values_nodup _) (List.nodup_cons.mpr ⟨absent, values_nodup _⟩)]
  intro other
  rw [mem_values, List.mem_cons, mem_values, get?_erase]
  split
  · rename_i same
    rw [same, held]
    simp [eq_comm]
  · rename_i differ
    simp only [iff_or_self]
    rintro rfl
    exact absurd hkey differ

theorem size_insert (free : table.get? (key value) = none) :
    (table.insert value).size = table.size + 1 := by
  rw [← length_values, (values_insert_perm free).length_eq, List.length_cons, length_values]

theorem size_erase (held : table.get? name = some value) :
    (table.erase name).size + 1 = table.size := by
  rw [← length_values table, (values_erase_perm held).length_eq, List.length_cons, length_values]

end

end Table
end Refyard
