import Refyard.Core.Patch

/-! The text of a line. The decoder goes by first bytes, each of which says how many bytes are to
continue it. -/
namespace Refyard.Patch

def needed (lead : UInt8) : Nat :=
  if lead.toNat / 0x20 = 6 then 1
  else if lead.toNat / 0x10 = 14 then 2
  else if lead.toNat / 8 = 30 then 3
  else 0

def codePoint (lead : UInt8) (behind : Bytes) : Nat :=
  behind.foldl extend
    (lead.toNat % if needed lead = 1 then 0x20 else if needed lead = 2 then 0x10 else 8)

def leastOf (count : Nat) : Nat := if count = 1 then 0x80 else if count = 2 then 0x800 else 0x10000

structure IsForm (lead : UInt8) (behind : Bytes) : Prop where
  announced : behind.length = needed lead
  some_behind : 0 < needed lead
  continued : ∀ byte ∈ behind, isContinuation byte = true

variable {lead byte : UInt8} {rest : Bytes}

theorem needed_ascii (ascii : lead.toNat < 0x80) : needed lead = 0 := by
  unfold needed
  rw [if_neg (by omega), if_neg (by omega), if_neg (by omega)]

theorem needed_le (lead : UInt8) : needed lead ≤ 3 := by
  unfold needed
  split_ifs <;> omega

theorem needed_continuation (continued : isContinuation byte = true) :
    needed byte = 0 ∧ 0x80 ≤ byte.toNat := by
  unfold isContinuation at continued
  rw [decide_eq_true_eq] at continued
  unfold needed
  rw [if_neg (by omega), if_neg (by omega), if_neg (by omega)]
  exact ⟨rfl, by omega⟩

namespace IsForm

variable {lead : UInt8} {behind : Bytes}

theorem above (form : IsForm lead behind) : 0x80 ≤ lead.toNat := by
  have some_behind := form.some_behind
  by_contra below
  rw [needed_ascii (by omega)] at some_behind
  exact Nat.lt_irrefl 0 some_behind

theorem kinds (form : IsForm lead behind) :
    (∃ second, behind = [second] ∧ needed lead = 1 ∧ lead.toNat / 0x20 = 6 ∧
      isContinuation second = true) ∨
    (∃ second third, behind = [second, third] ∧ needed lead = 2 ∧ lead.toNat / 0x10 = 14 ∧
      isContinuation second = true ∧ isContinuation third = true) ∨
    ∃ second third fourth, behind = [second, third, fourth] ∧ needed lead = 3 ∧
      lead.toNat / 8 = 30 ∧ isContinuation second = true ∧ isContinuation third = true ∧
      isContinuation fourth = true := by
  obtain ⟨announced, some_behind, continued⟩ := form
  unfold needed at announced some_behind
  split_ifs at announced some_behind with two three four
  · obtain ⟨second, rfl⟩ := List.length_eq_one_iff.mp announced
    exact .inl ⟨second, rfl, if_pos two, two, continued second (by simp)⟩
  · obtain ⟨second, third, rfl⟩ := List.length_eq_two.mp announced
    have count : needed lead = 2 := by rw [needed, if_neg two, if_pos three]
    exact .inr (.inl ⟨second, third, rfl, count, three, continued second (by simp),
      continued third (by simp)⟩)
  · obtain ⟨second, third, fourth, rfl⟩ := List.length_eq_three.mp announced
    have count : needed lead = 3 := by rw [needed, if_neg two, if_neg three, if_pos four]
    exact .inr (.inr ⟨second, third, fourth, rfl, count, four, continued second (by simp),
      continued third (by simp), continued fourth (by simp)⟩)
  · exact absurd some_behind (Nat.lt_irrefl 0)

theorem decodeLine (form : IsForm lead behind) (rest : Bytes) :
    decodeLine (lead :: (behind ++ rest)) =
      charFromU32 (codePoint lead behind) :: Patch.decodeLine rest := by
  rw [decodeLine.eq_def]
  obtain ⟨second, rfl, count, two, one⟩ | ⟨second, third, rfl, count, three, one, other⟩ |
    ⟨second, third, fourth, rfl, count, four, one, other, last⟩ := form.kinds
  · dsimp only [List.cons_append, List.nil_append]
    rw [if_neg (by omega), if_pos two, one, if_pos rfl, codePoint, if_pos count]
    rfl
  · dsimp only [List.cons_append, List.nil_append]
    rw [if_neg (by omega), if_neg (by omega), if_pos three, one, other, Bool.and_self, if_pos rfl,
      codePoint, count]
    rfl
  · dsimp only [List.cons_append, List.nil_append]
    rw [if_neg (by omega), if_neg (by omega), if_neg (by omega), if_pos four, one, other, last,
      Bool.and_self, Bool.and_self, if_pos rfl, codePoint, count]
    rfl

end IsForm

theorem decodeLine_ascii (ascii : byte.toNat < 0x80) (rest : Bytes) :
    decodeLine (byte :: rest) = Char.ofNat byte.toNat :: decodeLine rest := by
  rw [decodeLine.eq_def]
  dsimp only
  rw [if_pos ascii]

theorem decodeLine_cut (short : rest.length < needed lead) :
    decodeLine (lead :: rest) = [replacement] := by
  rw [decodeLine.eq_def]
  dsimp only
  unfold needed at short
  split_ifs at short with two three four
  · rw [if_neg (by omega), if_pos two, List.length_eq_zero_iff.mp (Nat.lt_one_iff.mp short)]
  · rw [if_neg (by omega), if_neg two, if_pos three]
    match rest with
    | [] | [_] => rfl
    | _ :: _ :: _ =>
      rw [List.length_cons, List.length_cons] at short
      omega
  · rw [if_neg (by omega), if_neg two, if_neg three, if_pos four]
    match rest with
    | [] | [_] | [_, _] => rfl
    | _ :: _ :: _ :: _ =>
      rw [List.length_cons, List.length_cons, List.length_cons] at short
      omega
  · omega

theorem decodeLine_other (above : 0x80 ≤ lead.toNat) (room : needed lead ≤ rest.length)
    (stray : needed lead = 0 ∨ ∃ byte ∈ rest.take (needed lead), isContinuation byte = false) :
    decodeLine (lead :: rest) = replacement :: decodeLine rest := by
  rw [decodeLine.eq_def]
  dsimp only
  rw [if_neg (by omega)]
  unfold needed at room stray
  split_ifs at room stray with two three four
  · rw [if_pos two]
    match rest with
    | [] =>
      rw [List.length_nil] at room
      omega
    | second :: _ =>
      have broken : isContinuation second = false := by simpa using stray
      dsimp only
      rw [broken, if_neg nofun]
  · rw [if_neg two, if_pos three]
    match rest with
    | [] | [_] =>
      simp at room
    | second :: third :: _ =>
      have broken : (isContinuation second && isContinuation third) = false := by
        rw [Bool.and_eq_false_iff]
        simpa using stray
      dsimp only
      rw [broken, if_neg nofun]
  · rw [if_neg two, if_neg three, if_pos four]
    match rest with
    | [] | [_] | [_, _] =>
      simp at room
    | second :: third :: fourth :: _ =>
      have broken : (isContinuation second && isContinuation third && isContinuation fourth) =
          false := by
        rw [Bool.and_eq_false_iff, Bool.and_eq_false_iff, or_assoc]
        simpa using stray
      dsimp only
      rw [broken, if_neg nofun]
  · rw [if_neg two, if_neg three, if_neg four]

theorem front_cases (lead : UInt8) (rest : Bytes) : lead.toNat < 0x80 ∨ rest.length < needed lead ∨
      (∃ behind later, rest = behind ++ later ∧ IsForm lead behind) ∨
      0x80 ≤ lead.toNat ∧ needed lead ≤ rest.length ∧
        (needed lead = 0 ∨ ∃ byte ∈ rest.take (needed lead), isContinuation byte = false) := by
  by_cases ascii : lead.toNat < 0x80
  · exact .inl ascii
  by_cases short : rest.length < needed lead
  · exact .inr (.inl short)
  have above := Nat.le_of_not_lt ascii
  have room := Nat.le_of_not_lt short
  by_cases none_needed : needed lead = 0
  · exact .inr (.inr (.inr ⟨above, room, .inl none_needed⟩))
  by_cases stray : ∃ byte ∈ rest.take (needed lead), isContinuation byte = false
  · exact .inr (.inr (.inr ⟨above, room, .inr stray⟩))
  · refine .inr (.inr (.inl ⟨rest.take (needed lead), rest.drop (needed lead),
      (List.take_append_drop _ _).symm, ?_, Nat.pos_of_ne_zero none_needed, ?_⟩))
    · rw [List.length_take, Nat.min_eq_left room]
    · intro byte member
      by_contra broken
      exact stray ⟨byte, member, Bool.eq_false_iff.mpr broken⟩

theorem continuation {value : Nat} (bits : value < 0x40) :
    isContinuation (UInt8.ofNat (value + 0x80)) = true ∧
      ∀ front, extend front (UInt8.ofNat (value + 0x80)) = front * 0x40 + value := by
  have byte := Utf8.toNat_ofNat (show value + 0x80 < 256 by omega)
  unfold isContinuation extend
  rw [byte, decide_eq_true_eq]
  constructor
  · omega
  · intro front
    omega

theorem form_of_encodeChar {char : Char} (wide : 0x80 ≤ char.toNat) :
    ∃ lead behind, String.utf8EncodeChar char = lead :: behind ∧ IsForm lead behind ∧
      codePoint lead behind = char.toNat ∧ leastOf (needed lead) ≤ char.toNat := by
  have valid := Utf8.scalar char
  have unfolded : char.val.toNat = char.toNat := rfl
  unfold String.utf8EncodeChar
  dsimp only
  rw [unfolded]
  generalize char.toNat = value at valid wide
  split_ifs with one two three
  · omega
  · have first := Utf8.toNat_ofNat (show value / 64 % 32 + 0xc0 < 256 by omega)
    obtain ⟨second, bits⟩ := continuation (show value % 64 < 0x40 by omega)
    have count : needed (UInt8.ofNat (value / 64 % 32 + 0xc0)) = 1 := by
      rw [needed, first, if_pos (by omega)]
    refine ⟨_, _, rfl, ⟨count.symm, by omega, ?_⟩, ?_, ?_⟩
    · exact List.forall_mem_cons.mpr ⟨second, nofun⟩
    · rw [codePoint, count, first, if_pos rfl, List.foldl_cons, List.foldl_nil, bits]
      omega
    · rw [count, leastOf, if_pos rfl]
      exact wide
  · have first := Utf8.toNat_ofNat (show value / 4096 % 16 + 0xe0 < 256 by omega)
    obtain ⟨second, bits⟩ := continuation (show value / 64 % 64 < 0x40 by omega)
    obtain ⟨third, lastBits⟩ := continuation (show value % 64 < 0x40 by omega)
    have count : needed (UInt8.ofNat (value / 4096 % 16 + 0xe0)) = 2 := by
      rw [needed, first, if_neg (by omega), if_pos (by omega)]
    refine ⟨_, _, rfl, ⟨count.symm, by omega, ?_⟩, ?_, ?_⟩
    · simp only [List.forall_mem_cons]
      exact ⟨second, third, nofun⟩
    · rw [codePoint, count, first, if_neg (by decide), if_pos rfl, List.foldl_cons, List.foldl_cons,
        List.foldl_nil, bits, lastBits]
      omega
    · rw [count, leastOf, if_neg (by decide), if_pos rfl]
      omega
  · have first := Utf8.toNat_ofNat (show value / 262144 % 8 + 0xf0 < 256 by omega)
    obtain ⟨second, bits⟩ := continuation (show value / 4096 % 64 < 0x40 by omega)
    obtain ⟨third, moreBits⟩ := continuation (show value / 64 % 64 < 0x40 by omega)
    obtain ⟨fourth, lastBits⟩ := continuation (show value % 64 < 0x40 by omega)
    have count : needed (UInt8.ofNat (value / 262144 % 8 + 0xf0)) = 3 := by
      rw [needed, first, if_neg (by omega), if_neg (by omega), if_pos (by omega)]
    refine ⟨_, _, rfl, ⟨count.symm, by omega, ?_⟩, ?_, ?_⟩
    · simp only [List.forall_mem_cons]
      exact ⟨second, third, fourth, nofun⟩
    · rw [codePoint, count, first, if_neg (by decide), if_neg (by decide), List.foldl_cons,
        List.foldl_cons, List.foldl_cons, List.foldl_nil, bits, moreBits, lastBits]
      omega
    · rw [count, leastOf, if_neg (by decide), if_neg (by decide)]
      omega

theorem charFromU32_toNat (char : Char) : charFromU32 char.toNat = char := by
  have valid : char.toNat.isValidChar := char.valid
  unfold charFromU32
  rw [if_pos valid, Char.ofNat_toNat]

theorem decodeLine_encodeChar (char : Char) (rest : Bytes) :
    decodeLine (String.utf8EncodeChar char ++ rest) = char :: decodeLine rest := by
  by_cases ascii : char.toNat < 0x80
  · have own := toNat_charByte ascii
    rw [Utf8.encodeChar_ascii ascii, List.singleton_append, decodeLine_ascii (by rwa [own]), own,
      Char.ofNat_toNat]
  · obtain ⟨lead, behind, whole, form, value, -⟩ := form_of_encodeChar (Nat.le_of_not_lt ascii)
    rw [whole, List.cons_append, form.decodeLine, value, charFromU32_toNat]

theorem decodeLine_encode (line : List Char) : decodeLine (Utf8.encode line) = line := by
  induction line with
  | nil => rfl
  | cons char line ih => rw [Utf8.encode_cons, decodeLine_encodeChar, ih]

/-! What begins a character, and what does not. -/

theorem form_of_begins (above : 0x80 ≤ lead.toNat) (begins : Utf8.Begins (lead :: rest)) :
    ∃ behind later char, rest = behind ++ later ∧ IsForm lead behind ∧
      String.utf8EncodeChar char = lead :: behind ∧ codePoint lead behind = char.toNat ∧
      leastOf (needed lead) ≤ char.toNat := by
  obtain ⟨char, later, whole⟩ := begins
  by_cases ascii : char.toNat < 0x80
  · rw [Utf8.encodeChar_ascii ascii, List.singleton_append] at whole
    rw [← (List.cons.inj whole).1, toNat_charByte ascii] at above
    omega
  · obtain ⟨first, behind, encoded, form, value, least⟩ :=
      form_of_encodeChar (Nat.le_of_not_lt ascii)
    rw [encoded, List.cons_append] at whole
    obtain ⟨rfl, rest_eq⟩ := List.cons.inj whole
    exact ⟨behind, later, char, rest_eq.symm, form, encoded, value, least⟩

theorem not_begins_cut (short : rest.length < needed lead) : ¬Utf8.Begins (lead :: rest) := by
  intro begins
  have above : 0x80 ≤ lead.toNat := by
    by_contra ascii
    rw [needed_ascii (by omega)] at short
    omega
  obtain ⟨behind, later, -, rfl, form, -⟩ := form_of_begins above begins
  rw [List.length_append, form.announced] at short
  omega

theorem not_begins_other (above : 0x80 ≤ lead.toNat)
    (stray : needed lead = 0 ∨ ∃ byte ∈ rest.take (needed lead), isContinuation byte = false) :
    ¬Utf8.Begins (lead :: rest) := by
  intro begins
  obtain ⟨behind, later, -, rfl, form, -⟩ := form_of_begins above begins
  obtain none_needed | ⟨byte, member, broken⟩ := stray
  · exact absurd none_needed (Nat.ne_of_gt form.some_behind)
  · rw [← form.announced, List.take_left] at member
    rw [form.continued byte member] at broken
    cases broken

theorem not_begins_continuation (continued : isContinuation byte = true) :
    ¬Utf8.Begins (byte :: rest) :=
  have facts := needed_continuation continued
  not_begins_other facts.2 (.inl facts.1)

namespace IsForm

variable {lead : UInt8} {behind : Bytes}

theorem unique (form : IsForm lead behind) {other rest later : Bytes} (also : IsForm lead other)
    (same : behind ++ rest = other ++ later) : behind = other :=
  (List.append_inj same (form.announced.trans also.announced.symm)).1

theorem encoded (form : IsForm lead behind) {rest : Bytes}
    (begins : Utf8.Begins (lead :: (behind ++ rest))) :
    leastOf (needed lead) ≤ codePoint lead behind ∧
      String.utf8EncodeChar (charFromU32 (codePoint lead behind)) = lead :: behind := by
  obtain ⟨other, later, char, same, also, encoded, value, least⟩ :=
    form_of_begins form.above begins
  obtain rfl := form.unique also same
  rw [value, charFromU32_toNat]
  exact ⟨least, encoded⟩

theorem begins (form : IsForm lead behind) (least : leastOf (needed lead) ≤ codePoint lead behind)
    (valid : (codePoint lead behind).isValidChar) :
    String.utf8EncodeChar (charFromU32 (codePoint lead behind)) = lead :: behind := by
  have byte (value : Nat) (byte : UInt8) (same : value = byte.toNat) : UInt8.ofNat value = byte := by
    rw [same, UInt8.ofNat_toNat]
  have number := toNat_charOfNat valid
  have unfolded : (Char.ofNat (codePoint lead behind)).val.toNat =
      (Char.ofNat (codePoint lead behind)).toNat := rfl
  have below := lead.toNat_lt
  unfold charFromU32 String.utf8EncodeChar
  rw [if_pos valid]
  rw [unfolded, number]
  clear number unfolded valid
  obtain ⟨second, rfl, count, two, one⟩ | ⟨second, third, rfl, count, three, one, other⟩ |
    ⟨second, third, fourth, rfl, count, four, one, other, last⟩ := form.kinds
  · have value : codePoint lead [second] = lead.toNat % 0x20 * 0x40 + second.toNat % 0x40 := by
      rw [codePoint, if_pos count]
      rfl
    unfold isContinuation at one
    rw [decide_eq_true_eq] at one
    rw [count, leastOf, if_pos rfl] at least
    generalize codePoint lead [second] = point at value least
    rw [if_neg (by omega), if_pos (by omega), byte _ lead (by omega), byte _ second (by omega)]
  · have value : codePoint lead [second, third] =
        (lead.toNat % 0x10 * 0x40 + second.toNat % 0x40) * 0x40 + third.toNat % 0x40 := by
      rw [codePoint, count]
      rfl
    unfold isContinuation at one other
    rw [decide_eq_true_eq] at one other
    rw [count, leastOf, if_neg (by decide), if_pos rfl] at least
    generalize codePoint lead [second, third] = point at value least
    rw [if_neg (by omega), if_neg (by omega), if_pos (by omega), byte _ lead (by omega),
      byte _ second (by omega), byte _ third (by omega)]
  · have value : codePoint lead [second, third, fourth] =
        ((lead.toNat % 8 * 0x40 + second.toNat % 0x40) * 0x40 + third.toNat % 0x40) * 0x40 +
          fourth.toNat % 0x40 := by
      rw [codePoint, count]
      rfl
    unfold isContinuation at one other last
    rw [decide_eq_true_eq] at one other last
    rw [count, leastOf, if_neg (by decide), if_neg (by decide)] at least
    generalize codePoint lead [second, third, fourth] = point at value least
    rw [if_neg (by omega), if_neg (by omega), if_neg (by omega), byte _ lead (by omega),
      byte _ second (by omega), byte _ third (by omega), byte _ fourth (by omega)]

end IsForm

/-! What the text is worth. -/

def IllFormed (lead : UInt8) (behind : Bytes) : Prop :=
  codePoint lead behind < leastOf (needed lead) ∨
    0xd800 ≤ codePoint lead behind ∧ codePoint lead behind ≤ 0xdfff

/-- The text is the bytes' own where they are well formed, all their ASCII is in it in order, all
their characters are with every run of other bytes replaced, and what is ill formed is invalid. -/
structure DecodedLossily (bytes : Bytes) : Prop where
  wellFormed : ∀ chars, bytes = Utf8.encode chars → decodeLine bytes = chars
  ascii : ((bytes.filter fun byte => byte ≤ 0x7f).map byteChar).Sublist (decodeLine bytes)
  replaced : Utf8.Lossy false bytes (decodeLine bytes)
  invalid : ∀ lead behind, IsForm lead behind → lead :: behind <:+: bytes →
    IllFormed lead behind → ∀ char ∈ decodeLine (lead :: behind), char = replacement

def NoneOverlong (bytes : Bytes) : Prop :=
  ∀ lead behind, IsForm lead behind → lead :: behind <:+: bytes →
    codePoint lead behind < leastOf (needed lead) →
      charFromU32 (codePoint lead behind) = replacement

def CutsNothing (bytes : Bytes) : Prop :=
  ∀ lead rest, lead :: rest <:+ bytes → rest.length < needed lead →
    ∀ back, back <:+ rest → ¬Utf8.Begins back

theorem NoneOverlong.behind {front bytes : Bytes} (none_overlong : NoneOverlong (front ++ bytes)) :
    NoneOverlong bytes :=
  fun lead behind form within => none_overlong lead behind form
    (within.trans (List.suffix_append front bytes).isInfix)

theorem cutsNothing_cons (room : needed byte ≤ rest.length) :
    CutsNothing (byte :: rest) ↔ CutsNothing rest := by
  constructor
  · exact fun cuts lead later within => cuts lead later (within.trans (List.suffix_cons byte rest))
  · intro cuts lead later within short
    obtain same | behind := List.suffix_cons_iff.mp within
    · cases same
      omega
    · exact cuts lead later behind short

theorem cutsNothing_continued {behind : Bytes} (rest : Bytes)
    (continued : ∀ byte ∈ behind, isContinuation byte = true) :
    CutsNothing (behind ++ rest) ↔ CutsNothing rest := by
  induction behind with
  | nil => rfl
  | cons byte behind ih =>
    have none_needed := (needed_continuation (continued byte (by simp))).1
    rw [List.cons_append, cutsNothing_cons (by omega),
      ih fun other member => continued other (by simp [member])]

theorem begins_behind (cuts : ¬CutsNothing (lead :: rest)) :
    ∃ back, back <:+ rest ∧ Utf8.Begins back := by
  unfold CutsNothing at cuts
  simp only [not_forall, not_not] at cuts
  obtain ⟨other, later, within, -, back, ends, begins⟩ := cuts
  refine ⟨back, ends.trans ?_, begins⟩
  obtain same | behind := List.suffix_cons_iff.mp within
  · cases same
    exact List.suffix_refl _
  · exact (List.suffix_cons other later).trans behind

theorem lossy_continued {behind : Bytes} {text : List Char}
    (continued : ∀ byte ∈ behind, isContinuation byte = true) (later : Utf8.Lossy true rest text) :
    Utf8.Lossy true (behind ++ rest) text := by
  induction behind with
  | nil => exact later
  | cons byte behind ih =>
    refine .skipped (not_begins_continuation (continued byte (by simp))) ?_
    exact ih fun other member => continued other (by simp [member])

theorem IsForm.lossy {behind : Bytes} (form : IsForm lead behind)
    (fine : codePoint lead behind < leastOf (needed lead) →
      charFromU32 (codePoint lead behind) = replacement) {already : Bool} {text : List Char}
    (later : ∀ already, Utf8.Lossy already rest text) :
    Utf8.Lossy already (lead :: (behind ++ rest))
      (charFromU32 (codePoint lead behind) :: text) := by
  by_cases begins : Utf8.Begins (lead :: (behind ++ rest))
  · rw [← List.cons_append, ← (form.encoded begins).2]
    exact .char _ (later false)
  · have invalid : charFromU32 (codePoint lead behind) = replacement := by
      by_cases overlong : codePoint lead behind < leastOf (needed lead)
      · exact fine overlong
      · unfold charFromU32
        split
        · rename_i valid
          refine absurd ⟨charFromU32 (codePoint lead behind), rest, ?_⟩ begins
          rw [form.begins (Nat.le_of_not_lt overlong) valid, List.cons_append]
        · rfl
    rw [invalid]
    exact .replaced begins (lossy_continued form.continued (later true))

theorem decodeLine_lossy (bytes : Bytes) (none_overlong : NoneOverlong bytes) :
    ∃ lost, (∀ already, Utf8.Lossy already bytes (decodeLine bytes ++ lost)) ∧
      (CutsNothing bytes → lost = []) ∧
      (¬CutsNothing bytes → ∃ char ∈ lost, char ≠ replacement) := by
  induction count : bytes.length using Nat.strongRecOn generalizing bytes with
  | ind size ih =>
    cases bytes with
    | nil =>
      refine ⟨[], fun _ => .nil, fun _ => rfl, fun cuts => absurd ?_ cuts⟩
      intro lead rest within
      rw [List.suffix_nil] at within
      cases within
    | cons lead rest =>
      rw [List.length_cons] at count
      obtain ascii | short | ⟨behind, rest, rfl, form⟩ | ⟨above, room, stray⟩ :=
        front_cases lead rest
      · obtain ⟨lost, lossy, kept, told⟩ := ih rest.length (by omega) rest
          (@NoneOverlong.behind [lead] rest none_overlong) rfl
        have char : String.utf8EncodeChar (byteChar lead) = [charByte (byteChar lead)] :=
          Utf8.encodeChar_ascii (by rwa [toNat_byteChar])
        rw [charByte_byteChar] at char
        have none_needed := needed_ascii ascii
        rw [decodeLine_ascii ascii, cutsNothing_cons (by omega)]
        refine ⟨lost, fun already => ?_, kept, told⟩
        have whole : Utf8.Lossy already (String.utf8EncodeChar (byteChar lead) ++ rest) _ :=
          .char (byteChar lead) (lossy false)
        rwa [char] at whole
      · obtain ⟨lost, lossy, silent, tells⟩ := Utf8.Lossy.exists_skipping rest
        rw [decodeLine_cut short]
        refine ⟨lost, fun already => .replaced (not_begins_cut short) lossy, ?_, ?_⟩
        · exact fun cuts => silent (cuts lead rest (List.suffix_refl _) short)
        · intro cuts
          obtain ⟨back, within, begins⟩ := begins_behind cuts
          obtain ⟨char, member, small⟩ := tells back within begins
          refine ⟨char, member, ?_⟩
          rintro rfl
          have three : (String.utf8EncodeChar replacement).length = 3 := by decide
          have most := needed_le lead
          omega
      · obtain ⟨lost, lossy, kept, told⟩ := ih rest.length
          (by rw [List.length_append] at count; omega) rest
          (@NoneOverlong.behind (lead :: behind) rest none_overlong) rfl
        have room : needed lead ≤ (behind ++ rest).length := by
          rw [List.length_append, form.announced]
          exact Nat.le_add_right _ _
        rw [form.decodeLine, cutsNothing_cons room, cutsNothing_continued rest form.continued]
        refine ⟨lost, fun already => form.lossy (none_overlong lead behind form ?_) lossy, kept, told⟩
        exact ⟨[], rest, by simp⟩
      · obtain ⟨lost, lossy, kept, told⟩ := ih rest.length (by omega) rest
          (@NoneOverlong.behind [lead] rest none_overlong) rfl
        rw [decodeLine_other above room stray, cutsNothing_cons room]
        exact ⟨lost, fun already => .replaced (not_begins_other above stray) (lossy true), kept, told⟩

/-- The text is a lossy decoding of just the lines that hold nothing overlong but what is replaced
anyway, and no character behind a first byte that the end cuts off. -/
theorem decodedLossily_iff (bytes : Bytes) :
    DecodedLossily bytes ↔ NoneOverlong bytes ∧ CutsNothing bytes := by
  constructor
  · rintro ⟨-, -, replaced, invalid⟩
    have none_overlong : NoneOverlong bytes := by
      intro lead behind form within overlong
      have own := form.decodeLine []
      rw [List.append_nil] at own
      apply invalid lead behind form within (.inl overlong)
      rw [own]
      exact List.mem_cons_self
    refine ⟨none_overlong, ?_⟩
    by_contra cuts
    obtain ⟨lost, lossy, -, tells⟩ := decodeLine_lossy bytes none_overlong
    obtain ⟨char, member, other⟩ := tells cuts
    have same := replaced.same (lossy false)
    rw [List.filter_append, List.self_eq_append_right, List.filter_eq_nil_iff] at same
    exact same char member (decide_eq_true other)
  · rintro ⟨none_overlong, cuts⟩
    obtain ⟨lost, lossy, silent, -⟩ := decodeLine_lossy bytes none_overlong
    rw [silent cuts, List.append_nil] at lossy
    refine ⟨?_, (lossy false).ascii, lossy false, ?_⟩
    · rintro chars rfl
      exact (lossy false).encode
    · intro lead behind form within ill char member
      have own := form.decodeLine []
      rw [List.append_nil] at own
      rw [own] at member
      obtain rfl := List.mem_singleton.mp member
      obtain overlong | surrogate := ill
      · exact none_overlong lead behind form within overlong
      · refine if_neg fun valid => ?_
        omega

/-- A letter behind a first byte that is cut off is dropped. -/
theorem not_decodedLossily_cut : ¬DecodedLossily [0xe2, 0x61] := by
  intro lossily
  have kept := lossily.ascii
  exact absurd kept (by decide)

end Refyard.Patch
