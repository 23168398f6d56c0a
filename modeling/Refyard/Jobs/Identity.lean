import Mathlib.Data.List.Fold
import Mathlib.Data.List.MinMax
import Mathlib.Data.Nat.Digits.Defs

/-! The ids this host mints: `op_` and a counter in base 36. -/
namespace Refyard

def base36Digit (digit : Nat) : Char :=
  if digit < 10 then Char.ofNat ('0'.toNat + digit) else Char.ofNat ('a'.toNat + (digit - 10))

def base36 (value : Nat) : String :=
  if value = 0 then "0" else String.ofList ((Nat.digits 36 value).reverse.map base36Digit)

/-- `char::to_digit(36)`. -/
def toDigit36 (c : Char) : Option Nat :=
  if '0' ≤ c ∧ c ≤ '9' then some (c.toNat - '0'.toNat)
  else if 'a' ≤ c ∧ c ≤ 'z' then some (c.toNat - 'a'.toNat + 10)
  else if 'A' ≤ c ∧ c ≤ 'Z' then some (c.toNat - 'A'.toNat + 10)
  else none

theorem toDigit36_base36Digit : ∀ digit < 36, toDigit36 (base36Digit digit) = some digit := by
  decide

theorem base36_digits (value : Nat) :
    ∃ digits : List Nat, (∀ digit ∈ digits, digit < 36) ∧ Nat.ofDigits 36 digits = value ∧
      (base36 value).toList = digits.reverse.map base36Digit := by
  unfold base36
  split
  · rename_i zero
    exact ⟨[0], by simp, by simp [zero], by decide⟩
  · exact ⟨Nat.digits 36 value, fun digit member => Nat.digits_lt_base (by decide) member,
      Nat.ofDigits_digits 36 value, String.toList_ofList⟩

theorem base36_injective {left right : Nat} (same : base36 left = base36 right) : left = right := by
  obtain ⟨digits, small, valued, spelled⟩ := base36_digits left
  obtain ⟨others, smallOthers, valuedOthers, spelledOthers⟩ := base36_digits right
  rw [same, spelledOthers] at spelled
  have read : ∀ {list : List Nat}, (∀ digit ∈ list, digit < 36) →
      (list.reverse.map base36Digit).map toDigit36 = list.reverse.map some := by
    intro list bounded
    rw [List.map_map, List.map_inj_left]
    intro digit member
    exact toDigit36_base36Digit digit (bounded digit (List.mem_reverse.mp member))
  have decoded := congrArg (List.map toDigit36) spelled
  rw [read smallOthers, read small] at decoded
  have digitsSame := List.reverse_inj.mp ((List.map_inj_right fun _ _ => Option.some.inj).mp decoded)
  rw [← valued, ← valuedOthers, digitsSame]

/-- `u64::from_str_radix` at 36: an optional plus sign, at least one digit, no overflow. -/
def fromStrRadix36 (text : List Char) : Option Nat :=
  let digits := match text with
    | '+' :: rest => rest
    | _ => text
  if digits.isEmpty then none
  else digits.foldlM (fun value c => do
    let digit ← toDigit36 c
    let value := value * 36 + digit
    if value < 2 ^ 64 then some value else none) 0

theorem notPlus_base36Digit : ∀ digit < 36, base36Digit digit ≠ '+' := by
  decide

theorem foldlM_base36Digit {digits : List Nat} (small : ∀ digit ∈ digits, digit < 36)
    (fits : Nat.ofDigits 36 digits < 2 ^ 64) :
    (digits.reverse.map base36Digit).foldlM (fun value c => do
      let digit ← toDigit36 c
      let value := value * 36 + digit
      if value < 2 ^ 64 then some value else none) 0 = some (Nat.ofDigits 36 digits) := by
  induction digits with
  | nil => rfl
  | cons digit rest ih =>
    rw [List.forall_mem_cons] at small
    rw [Nat.ofDigits_cons] at fits ⊢
    rw [List.reverse_cons, List.map_append, List.foldlM_append, ih small.2 (by omega)]
    have value : Nat.ofDigits 36 rest * 36 + digit = digit + 36 * Nat.ofDigits 36 rest := by omega
    simp [toDigit36_base36Digit digit small.1, value]
    omega

theorem fromStrRadix36_base36 {value : Nat} (fits : value < 2 ^ 64) :
    fromStrRadix36 (base36 value).toList = some value := by
  obtain ⟨digits, small, rfl, spelled⟩ := base36_digits value
  have filled : digits.reverse ≠ [] := by
    intro none
    rw [List.reverse_eq_nil_iff.mp none] at spelled
    revert spelled
    decide
  rw [spelled, ← foldlM_base36Digit small fits]
  obtain ⟨first, rest, reversed⟩ := List.exists_cons_of_ne_nil filled
  have below : first < 36 :=
    small first (List.mem_reverse.mp (reversed ▸ List.mem_cons_self))
  rw [reversed]
  unfold fromStrRadix36
  split
  · rename_i same
    exact absurd (List.cons.inj same).1 (notPlus_base36Digit first below)
  · rfl

def stripOperationPrefix (value : String) : Option (List Char) :=
  match value.toList with
  | 'o' :: 'p' :: '_' :: rest => some rest
  | _ => none

/-- Whether a string is an operation id this host mints, checked before it names a file. -/
def isOperationId (value : String) : Bool :=
  match stripOperationPrefix value with
  | none => false
  | some rest =>
      !rest.isEmpty && rest.length ≤ 96 && rest.all fun c => c.isAlphanum || c = '_' || c = '-'

/-- The value the operation counter starts from: the largest suffix a record already
uses. An id in another shape is skipped. -/
def nextOperationSeed (operationIds : List String) : Nat :=
  ((operationIds.filterMap stripOperationPrefix).filterMap fromStrRadix36).foldl max 0

theorem stripOperationPrefix_mint (value : Nat) :
    stripOperationPrefix ("op_" ++ base36 value) = some (base36 value).toList := by
  rw [stripOperationPrefix, String.toList_append]
  rfl

theorem le_nextOperationSeed {operationIds : List String} {value : Nat} (fits : value < 2 ^ 64)
    (member : "op_" ++ base36 value ∈ operationIds) : value ≤ nextOperationSeed operationIds := by
  have read : value ∈ (operationIds.filterMap stripOperationPrefix).filterMap fromStrRadix36 :=
    List.mem_filterMap.mpr ⟨_, List.mem_filterMap.mpr ⟨_, member, stripOperationPrefix_mint value⟩,
      fromStrRadix36_base36 fits⟩
  rw [nextOperationSeed, List.foldl_eq_foldr]
  exact List.le_max_of_le' 0 read (Nat.le_refl value)

example : nextOperationSeed ["op_1", "op_1a", "operation-9"] = 46 := by decide

end Refyard
