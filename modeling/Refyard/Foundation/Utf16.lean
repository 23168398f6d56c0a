import Refyard.Foundation.Delimited
import Refyard.Foundation.Json

/-! Text as sixteen-bit units, which is how a host in JavaScript counts, compares and
matches it. -/
namespace Refyard.Utf16

abbrev units (char : Char) : List Nat := Json.utf16 char

def encode (chars : List Char) : List Nat := chars.flatMap units

@[simp] theorem encode_nil : encode [] = [] := rfl

variable (char : Char) {chars : List Char}

@[simp] theorem encode_cons (chars : List Char) :
    encode (char :: chars) = units char ++ encode chars := rfl

@[simp] theorem encode_append (front back : List Char) :
    encode (front ++ back) = encode front ++ encode back := by
  simp [encode]

/-- A character below the surrogates is its own unit, any other is two surrogates. -/
theorem units_cases : (char.toNat < 0x10000 ∧ units char = [char.toNat]) ∨
      0x10000 ≤ char.toNat ∧ ∃ high low, units char = [high, low] ∧ 0xd800 ≤ high ∧ 0xd800 ≤ low := by
  unfold units Json.utf16
  by_cases plain : char.toNat < 0x10000
  · rw [if_pos plain]
    exact .inl ⟨plain, rfl⟩
  · rw [if_neg plain]
    exact .inr ⟨Nat.le_of_not_lt plain, _, _, rfl, Nat.le_add_right _ _,
      Nat.le_trans (by decide) (Nat.le_add_right _ _)⟩

theorem units_ascii {char : Char} (ascii : char.toNat < 0x80) : units char = [char.toNat] := by
  cases units_cases char with
  | inl plain => exact plain.2
  | inr pair => omega

theorem units_ne : units char ≠ [] := by
  obtain ⟨-, single⟩ | ⟨-, high, low, double, -, -⟩ := units_cases char
  · rw [single]
    exact List.cons_ne_nil _ _
  · rw [double]
    exact List.cons_ne_nil _ _

theorem encode_eq_nil : encode chars = [] ↔ chars = [] := by
  cases chars with
  | nil => simp
  | cons char rest => simp [units_ne char]

/-- A test that says the same of a character and of its units holds of all or of none. -/
theorem all_encode {test : Nat → Bool} (agrees : ∀ unit, 0xd800 ≤ unit → test unit = test 0xd800)
    (chars : List Char) : (encode chars).all test = chars.all fun char => test char.toNat := by
  induction chars with
  | nil => rfl
  | cons char rest ih =>
    rw [encode_cons, List.all_append, ih, List.all_cons]
    obtain ⟨-, single⟩ | ⟨large, high, low, double, first, second⟩ := units_cases char
    · rw [single]
      simp
    · rw [double, agrees char.toNat (by omega)]
      simp [agrees high first, agrees low second]

/-- An ASCII unit is a character of its own. -/
theorem encode_eq_append {front rest : List Nat} {char : Char} (ascii : char.toNat < 0x80) :
    encode chars = front ++ char.toNat :: rest ↔
      ∃ before behind, chars = before ++ char :: behind ∧ encode before = front ∧
        encode behind = rest := by
  refine Delimited.flatMap_eq_append (units_ascii ascii) fun other differs member => ?_
  obtain ⟨-, single⟩ | ⟨-, high, low, double, first, second⟩ := units_cases other
  · rw [single, List.mem_singleton] at member
    exact differs (Char.toNat_inj.mp member.symm)
  · rw [double, List.mem_cons, List.mem_singleton] at member
    omega

theorem encode_eq_cons {unit : Nat} {rest : List Nat} (ascii : unit < 0x80) :
    encode chars = unit :: rest ↔
      ∃ char behind, chars = char :: behind ∧ char.toNat = unit ∧ encode behind = rest := by
  have number : (Char.ofNat unit).toNat = unit :=
    toNat_charOfNat (.inl (Nat.lt_trans ascii (by decide)))
  have cut : encode chars = [] ++ (Char.ofNat unit).toNat :: rest ↔ _ :=
    encode_eq_append (number.symm ▸ ascii)
  rw [number, List.nil_append] at cut
  rw [cut]
  constructor
  · rintro ⟨before, behind, rfl, started, ended⟩
    obtain rfl := encode_eq_nil.mp started
    exact ⟨Char.ofNat unit, behind, rfl, number, ended⟩
  · rintro ⟨char, behind, rfl, rfl, ended⟩
    exact ⟨[], behind, by rw [Char.ofNat_toNat]; rfl, rfl, ended⟩

end Refyard.Utf16
