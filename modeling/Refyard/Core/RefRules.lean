import Refyard.Reads.RefNames

/-! The names that are accepted, beside the names Git takes for a branch. Git looks at every
component of a name; one of the checks looks at the end of the whole. -/
namespace Refyard

theorem Utf8.any_encode {test : UInt8 → Bool} (high : ∀ byte, 0x80 ≤ byte.toNat → test byte = false)
    (chars : List Char) : (Utf8.encode chars).any test =
      chars.any fun char => char.toNat < 0x80 && test (charByte char) := by
  induction chars with
  | nil => rfl
  | cons char rest ih =>
    rw [Utf8.encode_cons, List.any_append, List.any_cons, ih]
    congr 1
    obtain ⟨ascii, own⟩ | ⟨above, bytes⟩ := Utf8.encodeChar_cases char
    · simp [own, ascii]
    · have none : (String.utf8EncodeChar char).any test = false := by
        rw [List.any_eq_false]
        intro byte member
        rw [high byte (bytes byte member)]
        exact Bool.false_ne_true
      rw [none, decide_eq_false (Nat.not_lt.mpr above), Bool.false_and]

/-- What no name may hold: controls, spaces, and what Git gives a meaning of its own. -/
def isForbiddenInRef (char : Char) : Bool :=
  char.toNat ≤ 0x20 || char.toNat = 0x7f || char ∈ "~^:?*[\\".toList

def lockSuffix : List Char := ".lock".toList

structure RefRules (name : List Char) : Prop where
  components : ∀ component ∈ name.splitOn '/', component ≠ [] ∧ component.head? ≠ some '.'
  dots : ¬"..".toList <:+: name
  brace : ¬['@', '\x7b'] <:+: name
  allowed : ∀ char ∈ name, isForbiddenInRef char = false
  trailing : name.getLast? ≠ some '.'
  single : name ≠ ['@']

def NoLock (components : List (List Char)) : Prop :=
  ∀ component ∈ components, ¬lockSuffix <:+ component

/-- What `git check-ref-format` says of the name behind `refs/heads/`. -/
def CheckRefFormat (name : List Char) : Prop := RefRules name ∧ NoLock (name.splitOn '/')

def FitsCommand (name : String) : Prop :=
  name.toList.head? ≠ some '-' ∧ (textBytes name).length ≤ refNameMaxLength

def endsInLock (text : List Char) : Prop := lockSuffix <:+ text.map Char.toLower

/-- Every accepted name is one Git takes and no option; and Git's names that fit and have no
component like a lock file's in any letter case are accepted. -/
def SoundForGit (name : String) : Prop :=
  (validatedRefName name = .ok () → CheckRefFormat name.toList ∧ name.toList.head? ≠ some '-') ∧
  (CheckRefFormat name.toList → FitsCommand name →
    (∀ component ∈ name.toList.splitOn '/', ¬endsInLock component) → validatedRefName name = .ok ())

variable {name : String}

theorem refNameRefusal_iff {condition : Prop} [Decidable condition] {why : String}
    {rest : Except CoreError Unit} :
    (if condition then refNameRefusal name why else rest) = .ok () ↔ ¬condition ∧ rest = .ok () := by
  constructor
  · exact refNameRefusal_passed
  · rintro ⟨passed, rest⟩
    rw [if_neg passed, rest]

theorem components_ok (components : List (List Char)) : components.foldlM (fun _ component =>
      if component.isEmpty then refNameRefusal name "cannot contain an empty path component"
      else if component.head? = some '.' then
        refNameRefusal name "cannot have a path component starting with \".\""
      else .ok ()) () = .ok () ↔
      ∀ component ∈ components, component ≠ [] ∧ component.head? ≠ some '.' := by
  induction components with
  | nil => simp [pure, Except.pure]
  | cons component rest ih =>
    rw [List.foldlM_cons, bind_eq_ok, List.forall_mem_cons, ← ih]
    constructor
    · rintro ⟨⟨⟩, first, later⟩
      simp only [refNameRefusal_iff, List.isEmpty_iff, and_true] at first
      exact ⟨first, later⟩
    · rintro ⟨first, later⟩
      refine ⟨(), ?_, later⟩
      simpa only [refNameRefusal_iff, List.isEmpty_iff, and_true] using first

theorem slashes_of_components {name : List Char} (full : [] ∉ name.splitOn '/') :
    name ≠ [] ∧ name.head? ≠ some '/' ∧ name.getLast? ≠ some '/' ∧ ¬"//".toList <:+: name := by
  refine ⟨?_, ?_, ?_, ?_⟩
  · rintro rfl
    exact full (List.mem_singleton_self [])
  · intro first
    obtain ⟨rest, rfl⟩ := List.head?_eq_some_iff.mp first
    apply full
    rw [← List.nil_append ('/' :: rest), List.splitOn_append_cons_self]
    exact List.mem_append_left _ (List.mem_singleton_self [])
  · intro last
    obtain ⟨front, rfl⟩ := List.getLast?_eq_some_iff.mp last
    apply full
    rw [List.splitOn_append_cons_self]
    exact List.mem_append_right _ (List.mem_singleton_self [])
  · rintro ⟨front, back, rfl⟩
    apply full
    have cut : front ++ "//".toList ++ back = front ++ '/' :: ([] ++ '/' :: back) := by simp
    rw [cut, List.splitOn_append_cons_self, List.splitOn_append_cons_self]
    exact List.mem_append_right _ (List.mem_append_left _ (List.mem_singleton_self []))

theorem gitMeaning_ascii : ∀ char ∈ "~^:?*[\\".toList, char.toNat < 0x80 := by simp

theorem forbidden_bytes (name : String) :
    (¬(textBytes name).any (fun byte => byte ≤ 0x20 || byte == 0x7f) = true ∧
      ¬(textBytes name).any (fun byte =>
        "~^:?*[\\".toList.any fun char => charByte char == byte) = true) ↔
      ∀ char ∈ name.toList, isForbiddenInRef char = false := by
  have control : ∀ byte : UInt8, 0x80 ≤ byte.toNat →
      (byte ≤ 0x20 || byte == 0x7f : Bool) = false := by
    intro byte high
    have large : ¬byte ≤ 0x20 := fun small =>
      absurd (UInt8.le_iff_toNat_le.mp small) (by simp; omega)
    have other : byte ≠ 0x7f := by
      rintro rfl
      exact absurd high (by decide)
    simp [large, other]
  have meaning : ∀ byte : UInt8, 0x80 ≤ byte.toNat →
      ("~^:?*[\\".toList.any fun char => charByte char == byte) = false := by
    intro byte high
    rw [List.any_eq_false]
    intro char member same
    have ascii := gitMeaning_ascii char member
    rw [← beq_iff_eq.mp same, toNat_charByte ascii] at high
    omega
  rw [textBytes, Utf8.any_encode control, Utf8.any_encode meaning, Bool.not_eq_true,
    Bool.not_eq_true, List.any_eq_false, List.any_eq_false, ← forall₂_and]
  refine forall₂_congr fun char _ => ?_
  by_cases ascii : char.toNat < 0x80
  · have own : ("~^:?*[\\".toList.any fun other => charByte other == charByte char) = true ↔
        char ∈ "~^:?*[\\".toList := by
      rw [List.any_eq_true]
      constructor
      · rintro ⟨other, member, same⟩
        rwa [← (charByte_inj (gitMeaning_ascii other member) ascii).mp (beq_iff_eq.mp same)]
      · intro member
        exact ⟨char, member, beq_self_eq_true _⟩
    have space : charByte char ≤ 0x20 ↔ char.toNat ≤ 0x20 := by
      rw [UInt8.le_iff_toNat_le, toNat_charByte ascii]
      exact Iff.rfl
    have delete : charByte char = 0x7f ↔ char.toNat = 0x7f := by
      rw [← UInt8.toNat_inj, toNat_charByte ascii]
      exact Iff.rfl
    simp only [isForbiddenInRef, ascii, own, space, delete, decide_true, Bool.true_and,
      Bool.or_eq_true, Bool.or_eq_false_iff, decide_eq_true_eq, decide_eq_false_iff_not, beq_iff_eq,
      not_or]
  · have other : char ∉ "~^:?*[\\".toList := fun member => ascii (gitMeaning_ascii char member)
    simp only [isForbiddenInRef, ascii, other, decide_false, Bool.false_and, Bool.or_eq_false_iff,
      decide_eq_false_iff_not]
    simp
    omega

theorem accepted_iff : validatedRefName name = .ok () ↔
      RefRules name.toList ∧ FitsCommand name ∧ ¬endsInLock name.toList := by
  unfold validatedRefName
  simp only [refNameRefusal_iff, components_ok]
  constructor
  · rintro ⟨-, short, single, dash, slashes, trailing, lock, dots, brace, -, low, special, components⟩
    refine ⟨⟨components, dots, brace, (forbidden_bytes name).mp ⟨low, special⟩, trailing, ?_⟩,
      ⟨dash, Nat.not_lt.mp short⟩, lock⟩
    intro same
    exact single (String.toList_inj.mp same)
  · rintro ⟨rules, ⟨dash, short⟩, lock⟩
    obtain ⟨low, special⟩ := (forbidden_bytes name).mpr rules.allowed
    obtain ⟨full, first, last, double⟩ := slashes_of_components fun member =>
      (rules.components [] member).1 rfl
    refine ⟨?_, Nat.not_lt.mpr short, ?_, dash, ?_, rules.trailing, lock, rules.dots, rules.brace,
      double, low, special, rules.components⟩
    · intro empty
      apply full
      rw [String.isEmpty_iff.mp empty]
      rfl
    · rintro rfl
      exact rules.single rfl
    · simp [first, last]

section
variable {α : Type} {mark : α} {text front last : List α}

theorem suffix_behind (free : mark ∉ text) : text <:+ front ++ mark :: last ↔ text <:+ last := by
  constructor
  · rintro ⟨before, same⟩
    obtain ⟨between, rfl, rest⟩ | ⟨between, rfl, rest⟩ := List.append_eq_append_iff.mp same
    · exact absurd (rest ▸ List.mem_append_right between (List.mem_cons_self ..)) free
    · cases between with
      | nil =>
        rw [List.nil_append] at rest
        exact absurd (rest ▸ List.mem_cons_self ..) free
      | cons char between =>
        injection rest with _ rest
        exact ⟨between, rest.symm⟩
  · rintro ⟨before, rfl⟩
    exact ⟨front ++ mark :: before, by simp⟩

end

theorem exists_last (name : List Char) :
    ∃ before last, name.splitOn '/' = before ++ [last] ∧ '/' ∉ last ∧
      (name = last ∨ ∃ front, name = front ++ '/' :: last) := by
  by_cases present : '/' ∈ name
  · obtain ⟨back, caller, reversed, absent⟩ :=
      List.eq_append_cons_of_mem (List.mem_reverse.mpr present)
    have whole : name = caller.reverse ++ '/' :: back.reverse := by
      rw [← List.reverse_reverse name, reversed]
      simp
    have free : '/' ∉ back.reverse := by rwa [List.mem_reverse]
    refine ⟨caller.reverse.splitOn '/', back.reverse, ?_, free, .inr ⟨_, whole⟩⟩
    rw [whole, List.splitOn_append_cons_self, List.splitOn_eq_singleton free]
  · exact ⟨[], name, List.splitOn_eq_singleton present, present, .inl rfl⟩

theorem lockSuffix_slash : '/' ∉ lockSuffix := by decide

theorem lockSuffix_lower : lockSuffix.map Char.toLower = lockSuffix := by decide

theorem endsInLock_of_suffix {text : List Char} (lock : lockSuffix <:+ text) : endsInLock text := by
  obtain ⟨front, rfl⟩ := lock
  refine ⟨front.map Char.toLower, ?_⟩
  rw [List.map_append, lockSuffix_lower]

theorem endsInLock_last {name last : List Char}
    (shape : name = last ∨ ∃ front, name = front ++ '/' :: last) :
    endsInLock name ↔ endsInLock last := by
  obtain rfl | ⟨front, rfl⟩ := shape
  · exact Iff.rfl
  · rw [endsInLock, List.map_append, List.map_cons]
    exact suffix_behind lockSuffix_slash

/-- What is accepted is sound for Git exactly when no component before the last is a lock file's,
or another rule is broken anyway. -/
theorem sound_iff (name : String) : SoundForGit name ↔ NoLock (name.toList.splitOn '/').dropLast ∨
        ¬(RefRules name.toList ∧ FitsCommand name ∧ ¬endsInLock name.toList) := by
  obtain ⟨before, last, split, -, shape⟩ := exists_last name.toList
  have ends := endsInLock_last shape
  have covers : CheckRefFormat name.toList → FitsCommand name →
      (∀ component ∈ name.toList.splitOn '/', ¬endsInLock component) →
      validatedRefName name = .ok () := by
    intro good fits unlocked
    refine accepted_iff.mpr ⟨good.1, fits, fun lock => ?_⟩
    exact unlocked last (by simp [split]) (ends.mp lock)
  rw [split, List.dropLast_concat]
  constructor
  · intro sound
    by_cases passes : RefRules name.toList ∧ FitsCommand name ∧ ¬endsInLock name.toList
    · left
      intro component member
      refine (sound.1 (accepted_iff.mpr passes)).1.2 component ?_
      exact split ▸ List.mem_append_left _ member
    · exact .inr passes
  · intro condition
    refine ⟨fun accepted => ?_, covers⟩
    have passes := accepted_iff.mp accepted
    obtain unlocked | broken := condition
    · refine ⟨⟨passes.1, ?_⟩, passes.2.1.1⟩
      rw [split, NoLock, List.forall_mem_append]
      refine ⟨unlocked, ?_⟩
      intro component member lock
      rw [List.mem_singleton.mp member] at lock
      exact passes.2.2 (ends.mpr (endsInLock_of_suffix lock))
    · exact absurd passes broken

/-- A directory named like a lock file is accepted, and Git refuses it. -/
theorem not_sound_locked_directory : ¬SoundForGit "a.lock/b" := by
  intro sound
  have locked := (sound.1 (by decide +kernel)).1.2
  exact locked "a.lock".toList (by decide +kernel) ⟨['a'], by decide⟩

end Refyard
