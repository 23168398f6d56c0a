import Mathlib.Data.List.Nodup
import Mathlib.Data.List.Induction

/-! Maps that remember the order in which their keys were first set, and read the key from
the value itself. Setting a key again replaces the value where it stands. -/
namespace Refyard

def lastOf {α β : Type} [DecidableEq α] (key : β → α) (values : List β) (name : α) : Option β :=
  values.reverse.find? fun value => key value = name

structure InsertionMap {α β : Type} (key : β → α) where
  values : List β
  distinct : (values.map key).Nodup

namespace InsertionMap

variable {α β : Type} [DecidableEq α] {key : β → α}

def empty : InsertionMap key where
  values := []
  distinct := List.nodup_nil

def setIn (key : β → α) (value : β) : List β → List β
  | [] => [value]
  | first :: rest => if key first = key value then value :: rest else first :: setIn key value rest

theorem map_key_setIn (value : β) (values : List β) : (setIn key value values).map key =
      if key value ∈ values.map key then values.map key else values.map key ++ [key value] := by
  induction values with
  | nil => simp [setIn]
  | cons first rest ih =>
    unfold setIn
    split
    · rename_i same
      simp [same]
    · rename_i differ
      have other : key value ≠ key first := Ne.symm differ
      rw [List.map_cons, ih]
      split
      · rename_i member
        rw [List.map_cons, if_pos (List.mem_cons_of_mem _ member)]
      · rename_i absent
        rw [List.map_cons, if_neg (by simp [other, absent]), List.cons_append]

theorem nodup_setIn (value : β) {values : List β} (distinct : (values.map key).Nodup) :
    ((setIn key value values).map key).Nodup := by
  rw [map_key_setIn]
  split
  · exact distinct
  · rename_i absent
    rw [List.nodup_append]
    refine ⟨distinct, List.nodup_singleton _, ?_⟩
    intro first member second single same
    rw [List.mem_singleton] at single
    exact absent (single ▸ same ▸ member)

def set (map : InsertionMap key) (value : β) : InsertionMap key where
  values := setIn key value map.values
  distinct := nodup_setIn value map.distinct

def erase (map : InsertionMap key) (name : α) : InsertionMap key where
  values := map.values.filter fun value => key value ≠ name
  distinct := map.distinct.sublist (List.filter_sublist.map key)

def get? (map : InsertionMap key) (name : α) : Option β :=
  map.values.find? fun value => key value = name

def ofList (values : List β) : InsertionMap key := values.foldl set empty

theorem find?_setIn (value : β) (values : List β) (name : α) :
    (setIn key value values).find? (fun other => key other = name) =
      if key value = name then some value else values.find? fun other => key other = name := by
  induction values with
  | nil =>
    unfold setIn
    rw [List.find?_cons]
    split <;> simp_all
  | cons first rest ih =>
    unfold setIn
    split
    · rename_i same
      rw [List.find?_cons, List.find?_cons, same]
      split <;> simp_all
    · rename_i differ
      rw [List.find?_cons, List.find?_cons, ih]
      by_cases here : key first = name
      · have other : key value ≠ name := fun same => differ (here.trans same.symm)
        simp [here, other]
      · simp [here]

theorem get?_set (map : InsertionMap key) (value : β) (name : α) :
    (map.set value).get? name = if key value = name then some value else map.get? name :=
  find?_setIn value map.values name

@[simp] theorem get?_empty (name : α) : (empty : InsertionMap key).get? name = none := rfl

variable {value : β} {map : InsertionMap key}

theorem get?_eq_some {name : α} :
    map.get? name = some value ↔ value ∈ map.values ∧ key value = name := by
  unfold get?
  constructor
  · intro found
    exact ⟨List.mem_of_find?_eq_some found, by simpa using List.find?_some found⟩
  · rintro ⟨member, rfl⟩
    cases found : map.values.find? fun other => key other = key value with
    | none =>
      rw [List.find?_eq_none] at found
      exact absurd (by simp) (found value member)
    | some other =>
      have same : key other = key value := by simpa using List.find?_some found
      rw [List.inj_on_of_nodup_map map.distinct (List.mem_of_find?_eq_some found) member same]

theorem get?_erase (map : InsertionMap key) (name other : α) :
    (map.erase name).get? other = if other = name then none else map.get? other := by
  ext value
  split
  · rename_i same
    simp only [get?_eq_some, erase, List.mem_filter, decide_eq_true_eq, reduceCtorEq, iff_false]
    rintro ⟨⟨-, differ⟩, found⟩
    exact differ (found.trans same)
  · rename_i differ
    simp only [get?_eq_some, erase, List.mem_filter, decide_eq_true_eq]
    constructor
    · rintro ⟨⟨member, -⟩, found⟩
      exact ⟨member, found⟩
    · rintro ⟨member, found⟩
      exact ⟨⟨member, fun same => differ (found.symm.trans same)⟩, found⟩

theorem get?_foldl_erase (names : List α) (map : InsertionMap key) (name : α) :
    (names.foldl erase map).get? name = if name ∈ names then none else map.get? name := by
  induction names generalizing map with
  | nil => simp
  | cons first rest ih =>
    rw [List.foldl_cons, ih, get?_erase]
    by_cases later : name ∈ rest
    · simp [later]
    · by_cases same : name = first
      · simp [same]
      · simp [later, same]

theorem mem_values : value ∈ map.values ↔ map.get? (key value) = some value := by
  rw [get?_eq_some]
  exact (and_iff_left rfl).symm

theorem mem_values_set {other : β} :
    other ∈ (map.set value).values ↔ other = value ∨ other ∈ map.values ∧ key other ≠ key value := by
  rw [mem_values, get?_set, mem_values]
  split
  · rename_i same
    rw [Option.some_inj]
    constructor
    · exact fun is => .inl is.symm
    · rintro (is | ⟨-, differ⟩)
      · exact is.symm
      · exact absurd same.symm differ
  · rename_i differ
    constructor
    · exact fun found => .inr ⟨found, Ne.symm differ⟩
    · rintro (rfl | ⟨found, -⟩)
      · exact absurd rfl differ
      · exact found

theorem mem_values_erase {name : α} :
    value ∈ (map.erase name).values ↔ value ∈ map.values ∧ key value ≠ name := by
  rw [erase, List.mem_filter, decide_eq_true_iff]

omit [DecidableEq α] in
theorem values_inj {first second : InsertionMap key} (same : first.values = second.values) :
    first = second := by
  cases first
  cases second
  simp only at same
  subst same
  rfl

theorem setIn_of_fresh {values : List β} (fresh : key value ∉ values.map key) :
    setIn key value values = values ++ [value] := by
  induction values with
  | nil => rfl
  | cons first rest ih =>
    rw [List.map_cons, List.mem_cons, not_or] at fresh
    rw [setIn, if_neg (Ne.symm fresh.1), ih fresh.2, List.cons_append]

/-- A key that was never set goes to the end. -/
theorem values_set_of_fresh (fresh : map.get? (key value) = none) :
    (map.set value).values = map.values ++ [value] := by
  apply setIn_of_fresh
  intro member
  obtain ⟨other, contained, same⟩ := List.mem_map.mp member
  rw [get?_eq_some.mpr ⟨contained, same⟩] at fresh
  cases fresh

theorem erase_set_of_fresh (fresh : map.get? (key value) = none) :
    (map.set value).erase (key value) = map := by
  apply values_inj
  dsimp only [erase]
  rw [values_set_of_fresh fresh, List.filter_append, List.filter_eq_self.mpr, List.filter_singleton]
  · simp
  · intro other member
    rw [decide_eq_true_iff]
    intro same
    rw [get?_eq_some.mpr ⟨member, same⟩] at fresh
    cases fresh

theorem setIn_setIn {first second : β} (same : key first = key second) (values : List β) :
    setIn key second (setIn key first values) = setIn key second values := by
  induction values with
  | nil => simp [setIn, same]
  | cons head rest ih =>
    by_cases here : key head = key second
    · simp [setIn, same, here]
    · simp [setIn, same, here, ih]

theorem set_set {first second : β} (same : key first = key second) :
    (map.set first).set second = map.set second :=
  values_inj (setIn_setIn same map.values)

/-- Setting what stands there changes nothing. -/
theorem set_of_get? (found : map.get? (key value) = some value) : map.set value = map := by
  apply values_inj
  obtain ⟨member, -⟩ := get?_eq_some.mp found
  have distinct := map.distinct
  dsimp only [set]
  generalize map.values = values at member distinct
  induction values with
  | nil => cases member
  | cons head rest ih =>
    rw [List.map_cons, List.nodup_cons] at distinct
    obtain rfl | later := List.mem_cons.mp member
    · rw [setIn, if_pos rfl]
    · have differs : key head ≠ key value := fun same =>
        distinct.1 (same ▸ List.mem_map_of_mem later)
      rw [setIn, if_neg differs, ih later distinct.2]

end InsertionMap

section
variable {α β : Type} [DecidableEq α] {key : β → α}

@[simp] theorem lastOf_nil (name : α) : lastOf key [] name = none := rfl

theorem lastOf_append (front back : List β) (name : α) :
    lastOf key (front ++ back) name = (lastOf key back name).or (lastOf key front name) := by
  unfold lastOf
  rw [List.reverse_append, List.find?_append]

variable (values : List β) {value : β}

theorem lastOf_concat (value : β) (name : α) : lastOf key (values ++ [value]) name =
      if key value = name then some value else lastOf key values name := by
  rw [lastOf_append]
  unfold lastOf
  rw [List.reverse_singleton, List.find?_singleton]
  split <;> simp_all

theorem lastOf_eq_some {values : List β} {name : α} (found : lastOf key values name = some value) :
    value ∈ values ∧ key value = name := by
  refine ⟨?_, by simpa using List.find?_some found⟩
  rw [← List.mem_reverse]
  exact List.mem_of_find?_eq_some found

theorem lastOf_eq_none {values : List β} {name : α} :
    lastOf key values name = none ↔ ∀ value ∈ values, key value ≠ name := by
  unfold lastOf
  simp [List.find?_eq_none]

/-- Where no key repeats, a value is the last of its key. -/
theorem lastOf_of_nodup {values : List β} (distinct : (values.map key).Nodup)
    (member : value ∈ values) : lastOf key values (key value) = some value := by
  cases found : lastOf key values (key value) with
  | none => exact absurd rfl (lastOf_eq_none.mp found value member)
  | some other =>
    obtain ⟨also, same⟩ := lastOf_eq_some found
    rw [List.inj_on_of_nodup_map distinct also member same]

theorem InsertionMap.ofList_concat (value : β) :
    (ofList (values ++ [value]) : InsertionMap key) = (ofList values).set value := by
  unfold ofList
  rw [List.foldl_append]
  rfl

/-- Of each key the value set last. -/
theorem InsertionMap.get?_foldl_set (map : InsertionMap key) (name : α) :
    (values.foldl InsertionMap.set map).get? name = (lastOf key values name).or (map.get? name) := by
  induction values using List.reverseRecOn with
  | nil => rfl
  | append_singleton front value ih =>
    rw [List.foldl_append, List.foldl_cons, List.foldl_nil, get?_set, ih, lastOf_concat]
    split <;> rfl

theorem InsertionMap.get?_ofList (name : α) :
    (ofList values : InsertionMap key).get? name = lastOf key values name := by
  unfold ofList
  rw [get?_foldl_set, get?_empty, Option.or_none]

theorem lastOf_filter (test : α → Bool) (name : α) :
    lastOf key (values.filter fun value => test (key value)) name =
      if test name then lastOf key values name else none := by
  induction values using List.reverseRecOn with
  | nil => simp
  | append_singleton front value ih =>
    rw [List.filter_append, lastOf_append, ih, lastOf_concat]
    by_cases same : key value = name
    · cases passes : test name with
      | true => simp [same, passes, lastOf]
      | false => simp [same, passes, lastOf]
    · cases passes : test (key value) with
      | true => simp [same, passes, lastOf]
      | false => simp [same, passes]

/-- A value may move past values of other keys. -/
theorem lastOf_move {front middle back : List β} (others : ∀ other ∈ middle, key other ≠ key value)
    (name : α) : lastOf key (front ++ value :: (middle ++ back)) name =
      lastOf key (front ++ (middle ++ value :: back)) name := by
  have first : lastOf key [value] name = if key value = name then some value else none :=
    lastOf_concat [] value name
  have parts : value :: (middle ++ back) = [value] ++ (middle ++ back) := rfl
  have alsoParts : middle ++ value :: back = middle ++ ([value] ++ back) := rfl
  rw [parts, alsoParts]
  simp only [lastOf_append, first]
  by_cases same : key value = name
  · have absent : lastOf key middle name = none := lastOf_eq_none.mpr (same ▸ others)
    rw [absent]
    simp
  · simp [same]

/-- What is the last of its key in one list is so in the other. -/
def Covers (key : β → α) (values others : List β) : Prop :=
  ∀ name value, lastOf key values name = some value → lastOf key others name = some value

theorem Covers.refl : Covers key values values := fun _ _ same => same

theorem Covers.trans {first second third : List β} (left : Covers key first second)
    (right : Covers key second third) : Covers key first third :=
  fun name value found => right name value (left name value found)

theorem Covers.concat {values others : List β} (covers : Covers key values others) (value : β) :
    Covers key (values ++ [value]) (others ++ [value]) := by
  intro name other found
  rw [lastOf_concat] at found ⊢
  split
  · rename_i same
    rwa [if_pos same] at found
  · rename_i differs
    rw [if_neg differs] at found
    exact covers name other found

theorem covers_filter (test : α → Bool) :
    Covers key (values.filter fun value => test (key value)) values := by
  intro name value found
  rw [lastOf_filter] at found
  split at found
  · exact found
  · cases found

end

end Refyard
