import Refyard.Ssh.Source

/-! What a glob pattern means, told by recursion over it with a choice at every star, beside the
matcher that goes back to the last star only. -/
namespace Refyard.Ssh

abbrev Ranges := List (UInt8 × UInt8)

def classRanges (first : Bool) (pattern : Bytes) : Option (Ranges × Bytes) :=
  match pattern with
  | [] => none
  | byte :: rest =>
      if byte = 0x5d ∧ first = false then some ([], rest)
      else
        match byte, rest with
        | 0x5c, escaped :: behind =>
            (classRanges false behind).map fun found => ((escaped, escaped) :: found.1, found.2)
        | low, 0x2d :: high :: behind =>
            if high ≠ 0x5d then
              (classRanges false behind).map fun found => ((low, high) :: found.1, found.2)
            else
              (classRanges false (0x2d :: high :: behind)).map fun found =>
                ((low, low) :: found.1, found.2)
        | single, behind =>
            (classRanges false behind).map fun found => ((single, single) :: found.1, found.2)
termination_by pattern.length

structure ByteClass where
  negated : Bool
  ranges : Ranges

def ByteClass.takes (bytes : ByteClass) (byte : UInt8) : Bool :=
  (bytes.ranges.any fun range => range.1 ≤ byte && byte ≤ range.2) != bytes.negated

def byteClass : Bytes → Option (ByteClass × Bytes)
  | 0x21 :: rest => (classRanges true rest).map fun found => (⟨true, found.1⟩, found.2)
  | 0x5e :: rest => (classRanges true rest).map fun found => (⟨true, found.1⟩, found.2)
  | pattern => (classRanges true pattern).map fun found => (⟨false, found.1⟩, found.2)

/-- A name is matched by a pattern whose wildcards take the bytes that are `wild`. -/
inductive Globs (wild : UInt8 → Prop) : Bytes → Bytes → Prop where
  | done : Globs wild [] []
  | stop {pattern name : Bytes} (rest : Globs wild pattern name) :
      Globs wild (0x2a :: pattern) name
  | more {pattern name : Bytes} {byte : UInt8} (taken : wild byte)
      (rest : Globs wild (0x2a :: pattern) name) : Globs wild (0x2a :: pattern) (byte :: name)
  | any {pattern name : Bytes} {byte : UInt8} (taken : wild byte)
      (rest : Globs wild pattern name) : Globs wild (0x3f :: pattern) (byte :: name)
  | oneOf {pattern behind name : Bytes} {bytes : ByteClass} {byte : UInt8}
      (closed : byteClass pattern = some (bytes, behind)) (taken : bytes.takes byte = true)
      (rest : Globs wild behind name) : Globs wild (0x5b :: pattern) (byte :: name)
  | bracket {pattern name : Bytes} (unclosed : byteClass pattern = none)
      (rest : Globs wild pattern name) : Globs wild (0x5b :: pattern) (0x5b :: name)
  | escaped {pattern name : Bytes} {byte : UInt8} (rest : Globs wild pattern name) :
      Globs wild (0x5c :: byte :: pattern) (byte :: name)
  | literal {pattern name : Bytes} {byte : UInt8}
      (plain : byte ≠ 0x2a ∧ byte ≠ 0x3f ∧ byte ≠ 0x5b ∧ (byte = 0x5c → pattern = []))
      (rest : Globs wild pattern name) : Globs wild (byte :: pattern) (byte :: name)

variable {pattern name held : Bytes} {byte : UInt8} {wild : UInt8 → Prop}
  {star : Option (Bytes × Bytes)}

theorem Globs.mono {others : UInt8 → Prop} (globs : Globs wild pattern name)
    (le : ∀ byte, wild byte → others byte) : Globs others pattern name := by
  induction globs with
  | done => exact .done
  | stop rest ih => exact .stop ih
  | more taken rest ih => exact .more (le _ taken) ih
  | any taken rest ih => exact .any (le _ taken) ih
  | oneOf closed taken rest ih => exact .oneOf closed taken ih
  | bracket unclosed rest ih => exact .bracket unclosed ih
  | escaped rest ih => exact .escaped ih
  | literal plain rest ih => exact .literal plain ih

theorem eq_iff_between (single : UInt8) :
    decide (single = byte) = (decide (single ≤ byte) && decide (byte ≤ single)) := by
  rw [Bool.eq_iff_iff, Bool.and_eq_true, decide_eq_true_iff, decide_eq_true_iff,
    decide_eq_true_iff, UInt8.le_iff_toNat_le, UInt8.le_iff_toNat_le, ← UInt8.toNat_inj]
  omega

/-- The source tells while it reads whether the byte is among the members. -/
theorem classMembers_eq (negated first found : Bool) (pattern : Bytes) :
    classMembers byte negated first found pattern = (classRanges first pattern).map fun ranges =>
      (ranges.2, (found || ranges.1.any fun range => range.1 ≤ byte && byte ≤ range.2) !=
        negated) := by
  fun_induction classMembers byte negated first found pattern with
  | case1 => simp [classRanges]
  | case2 first found byte' rest closes =>
    rw [classRanges.eq_def]
    simp [closes]
  | case3 first found escaped behind opens ih =>
    rw [ih, classRanges, if_neg opens]
    simp [eq_iff_between, Function.comp_def, Bool.or_assoc]
  | case4 first found low high behind plain inner opens ih =>
    rw [ih, classRanges, if_neg opens]
    · simp [inner, Function.comp_def, Bool.or_assoc]
    · exact plain
  | case5 first found low high behind plain closes opens ih =>
    rw [ih, classRanges, if_neg opens]
    · simp [closes, eq_iff_between, Function.comp_def, Bool.or_assoc]
    · exact plain
  | case6 first found single behind unescaped unranged opens ih =>
    rw [ih, classRanges, if_neg opens]
    · simp [eq_iff_between, Function.comp_def, Bool.or_assoc]
    · exact unranged
    · exact unescaped

theorem characterClass_eq (pattern : Bytes) :
    characterClass pattern byte = (byteClass pattern).map fun found =>
      (found.2, found.1.takes byte) := by
  unfold characterClass byteClass
  split <;> simp [classMembers_eq, ByteClass.takes, Function.comp_def]

theorem matchCharacter_rest {other : UInt8} {rest behind : Bytes}
    (matched : matchCharacter pattern byte = some rest)
    (again : matchCharacter pattern other = some behind) : rest = behind := by
  unfold matchCharacter at matched again
  split at matched
  all_goals simp_all [characterClass_eq]
  rename_i members
  cases closed : byteClass members with
  | none => simp_all
  | some found =>
    cases this : found.1.takes byte <;> cases that : found.1.takes other <;> simp_all

theorem globs_cons (single : wild byte ↔ byte ≠ 0x2f) (plain : pattern.head? ≠ some 0x2a) :
    Globs wild pattern (byte :: name) ↔
      ∃ rest, matchCharacter pattern byte = some rest ∧ Globs wild rest name := by
  constructor
  · intro globs
    cases globs with
    | stop rest => exact absurd rfl plain
    | more taken rest => exact absurd rfl plain
    | any taken rest => exact ⟨_, by simp [matchCharacter, single.mp taken], rest⟩
    | oneOf closed taken rest =>
      exact ⟨_, by simp [matchCharacter, characterClass_eq, closed, taken], rest⟩
    | bracket unclosed rest =>
      exact ⟨_, by simp [matchCharacter, characterClass_eq, unclosed], rest⟩
    | escaped rest => exact ⟨_, by simp [matchCharacter], rest⟩
    | literal plain rest =>
      refine ⟨_, ?_, rest⟩
      rw [matchCharacter.eq_def]
      split <;> simp_all
  · rintro ⟨rest, matched, globs⟩
    unfold matchCharacter at matched
    split at matched
    case h_1 => exact absurd matched (by simp)
    case h_2 behind =>
      obtain ⟨whole, same⟩ := Option.ite_none_right_eq_some.mp matched
      cases same
      exact .any (single.mpr whole) globs
    case h_3 behind =>
      rw [characterClass_eq] at matched
      cases closed : byteClass behind with
      | none =>
        obtain ⟨same, rfl⟩ : byte = 0x5b ∧ behind = rest := by simpa [closed] using matched
        exact same ▸ .bracket closed globs
      | some found =>
        cases taken : found.1.takes byte with
        | false => simp [closed, taken] at matched
        | true =>
          obtain rfl : found.2 = rest := by simpa [closed, taken] using matched
          exact .oneOf closed taken globs
    case h_4 escaped behind =>
      obtain ⟨rfl, same⟩ := Option.ite_none_right_eq_some.mp matched
      cases same
      exact .escaped globs
    case h_5 literal behind unmarked unopened unescaped =>
      obtain ⟨rfl, same⟩ := Option.ite_none_right_eq_some.mp matched
      obtain rfl : behind = rest := Option.some.inj same
      have alone : literal = 0x5c → behind = [] := by
        intro slash
        cases behind with
        | nil => rfl
        | cons first others => exact (unescaped first others slash rfl).elim
      exact .literal ⟨fun star => plain (by simp [star]), unmarked, unopened, alone⟩ globs

theorem globs_nil : Globs wild pattern [] ↔ pattern.all (· = 0x2a) = true := by
  induction pattern with
  | nil => simp [Globs.done]
  | cons first rest ih =>
    rw [List.all_cons, Bool.and_eq_true, ← ih]
    constructor
    · intro globs
      cases globs with
      | stop rest => exact ⟨by simp, rest⟩
    · rintro ⟨star, globs⟩
      rw [decide_eq_true_iff] at star
      exact star ▸ .stop globs

theorem unstarred (plain : ∀ rest, pattern = 0x2a :: rest → False) : pattern.head? ≠ some 0x2a := by
  intro starred
  obtain ⟨rest, split⟩ := List.head?_eq_some_iff.mp starred
  exact plain rest split

def starGlobs (wild : UInt8 → Prop) : Option (Bytes × Bytes) → Prop
  | some (afterStar, skipped :: later) => wild skipped ∧ Globs wild (0x2a :: afterStar) later
  | _ => False

theorem starGlobs_again {afterStar later : Bytes}
    (found : Globs wild afterStar later ∨ starGlobs wild (some (afterStar, later))) :
    Globs wild (0x2a :: afterStar) later := by
  cases found with
  | inl globs => exact .stop globs
  | inr further =>
    cases later with
    | nil => exact further.elim
    | cons skipped later => exact .more further.1 further.2

theorem wildcardFrom_sound (accepted : wildcardFrom pattern name star = true) :
    Globs (· ≠ 0x2f) pattern name ∨ starGlobs (· ≠ 0x2f) star := by
  fun_induction wildcardFrom pattern name star with
  | case1 => exact .inl (globs_nil.mpr accepted)
  | case2 star byte behind rest ih => exact .inl (starGlobs_again (ih accepted))
  | case3 pattern star byte behind rest matched plain ih =>
    rw [matched] at accepted
    apply (ih accepted).imp_left
    intro globs
    have single : (fun skipped : UInt8 => skipped ≠ 0x2f) byte ↔ byte ≠ 0x2f := Iff.rfl
    exact (globs_cons single (unstarred plain)).mpr ⟨rest, matched, globs⟩
  | case4 pattern byte behind refused => simp [refused] at accepted
  | case5 pattern byte behind refused => simp [refused] at accepted
  | case6 pattern byte behind refused => simp [refused] at accepted
  | case7 pattern byte behind refused afterStar skipped later whole plain ih =>
    simp only [refused, if_neg whole] at accepted
    exact .inr ⟨whole, starGlobs_again (ih accepted)⟩

theorem globs_suffix (globs : Globs (fun _ => True) (0x2a :: pattern) name) :
    ∃ behind, behind <:+ name ∧ Globs (fun _ => True) pattern behind := by
  generalize starred : 0x2a :: pattern = whole at globs
  induction globs with
  | stop rest =>
    cases starred
    exact ⟨_, List.suffix_rfl, rest⟩
  | @more pattern name byte taken rest ih =>
    obtain ⟨behind, suffix, globs⟩ := ih starred
    exact ⟨behind, suffix.trans (List.suffix_cons byte name), globs⟩
  | literal plain rest => cases starred; exact absurd rfl plain.1
  | _ => cases starred

theorem globs_of_suffix {behind : Bytes} (suffix : behind <:+ name)
    (globs : Globs (fun _ => True) pattern behind) :
    Globs (fun _ => True) (0x2a :: pattern) name := by
  obtain ⟨front, rfl⟩ := suffix
  induction front with
  | nil => exact .stop globs
  | cons byte front ih => exact .more trivial ih

def Latest (pattern name : Bytes) (star : Option (Bytes × Bytes)) : Prop :=
  starGlobs (fun _ => True) star → Globs (fun _ => True) (0x2a :: pattern) name

theorem Latest.again (afterStar later : Bytes) : Latest afterStar later (some (afterStar, later)) :=
  fun further => starGlobs_again (.inr further)

theorem Latest.consumed {rest : Bytes} (latest : Latest pattern (byte :: name) star)
    (whole : 0x2f ∉ byte :: name) (plain : pattern.head? ≠ some 0x2a)
    (matched : matchCharacter pattern byte = some rest) : Latest rest name star := by
  intro further
  obtain ⟨behind, suffix, globs⟩ := globs_suffix (latest further)
  cases behind with
  | nil =>
    cases pattern with
    | nil => exact absurd matched (by simp [matchCharacter])
    | cons first others =>
      have starred := globs_nil.mp globs
      rw [List.all_cons, Bool.and_eq_true, decide_eq_true_iff] at starred
      exact absurd (congrArg some starred.1) plain
  | cons other behind =>
    have single : True ↔ other ≠ 0x2f := by
      refine ⟨fun _ slash => whole (slash ▸ suffix.subset (List.mem_cons_self ..)), fun _ => trivial⟩
    obtain ⟨rest', again, globs⟩ := (globs_cons single plain).mp globs
    obtain rfl := matchCharacter_rest matched again
    have shorter : behind <:+ name := by
      obtain same | inner := List.suffix_cons_iff.mp suffix
      · exact (List.cons.inj same).2 ▸ List.suffix_rfl
      · exact (List.suffix_cons other behind).trans inner
    exact globs_of_suffix shorter globs

theorem not_globs (whole : 0x2f ∉ byte :: name) (plain : ∀ rest, pattern = 0x2a :: rest → False)
    (refused : matchCharacter pattern byte = none) :
    ¬ Globs (fun _ => True) pattern (byte :: name) := by
  intro globs
  have single : True ↔ byte ≠ 0x2f :=
    ⟨fun _ slash => whole (slash ▸ List.mem_cons_self ..), fun _ => trivial⟩
  obtain ⟨rest, matched, globs⟩ := (globs_cons single (unstarred plain)).mp globs
  exact absurd matched (by simp [refused])

theorem wildcardFrom_complete (latest : Latest pattern name star) (whole : 0x2f ∉ name)
    (held : ∀ after kept, star = some (after, kept) → 0x2f ∉ kept)
    (found : Globs (fun _ => True) pattern name ∨ starGlobs (fun _ => True) star) :
    wildcardFrom pattern name star = true := by
  fun_induction wildcardFrom pattern name star with
  | case1 pattern star =>
    cases found with
    | inl globs => exact globs_nil.mp globs
    | inr further =>
      obtain ⟨behind, suffix, globs⟩ := globs_suffix (latest further)
      rw [List.suffix_nil.mp suffix] at globs
      exact globs_nil.mp globs
  | case2 star byte behind rest ih =>
    have globs : Globs (fun _ => True) (0x2a :: rest) (byte :: behind) := by
      cases found with
      | inl globs => exact globs
      | inr further =>
        obtain ⟨name, suffix, globs⟩ := globs_suffix (latest further)
        obtain ⟨behind, inner, globs⟩ := globs_suffix globs
        exact globs_of_suffix (inner.trans suffix) globs
    apply ih (Latest.again _ _) whole
    · rintro after kept ⟨rfl, rfl⟩
      exact whole
    · cases globs with
      | stop rest => exact .inl rest
      | more taken rest => exact .inr ⟨taken, rest⟩
      | literal plain rest => exact absurd rfl plain.1
  | case3 pattern star byte behind rest matched plain ih =>
    rw [matched]
    have single : True ↔ byte ≠ 0x2f :=
      ⟨fun _ slash => whole (slash ▸ List.mem_cons_self ..), fun _ => trivial⟩
    apply ih (latest.consumed whole (unstarred plain) matched)
      (fun slash => whole (List.mem_cons_of_mem _ slash)) held
    apply found.imp_left
    intro globs
    obtain ⟨rest', again, globs⟩ := (globs_cons single (unstarred plain)).mp globs
    exact matchCharacter_rest matched again ▸ globs
  | case4 pattern byte behind refused plain =>
    exact (found.resolve_left (not_globs whole plain refused)).elim
  | case5 pattern byte behind refused afterStar plain =>
    exact (found.resolve_left (not_globs whole plain refused)).elim
  | case6 pattern byte behind refused afterStar later plain =>
    exact absurd (List.mem_cons_self ..) (held _ _ rfl)
  | case7 pattern byte behind refused afterStar skipped later inside plain ih =>
    simp only [refused, if_neg inside]
    have clear : 0x2f ∉ later := fun slash => held _ _ rfl (List.mem_cons_of_mem _ slash)
    apply ih (Latest.again _ _) clear
    · rintro after kept ⟨rfl, rfl⟩
      exact clear
    · cases (found.resolve_left (not_globs whole plain refused)).2 with
      | stop rest => exact .inl rest
      | more taken rest => exact .inr ⟨taken, rest⟩
      | literal plain rest => exact absurd rfl plain.1

/-- Going back to the last star only is enough for the name of an entry; where a slash stands in
the name, a wildcard does not take it. -/
theorem wildcardMatch_globs (pattern name : Bytes) :
    (wildcardMatch pattern name = true → Globs (· ≠ 0x2f) pattern name) ∧
      (0x2f ∉ name → (wildcardMatch pattern name = true ↔ Globs (fun _ => True) pattern name)) := by
  have sound (accepted : wildcardMatch pattern name = true) : Globs (· ≠ 0x2f) pattern name :=
    (wildcardFrom_sound accepted).resolve_right fun further => further
  refine ⟨sound, fun whole => ⟨fun accepted => (sound accepted).mono fun _ _ => trivial, ?_⟩⟩
  intro globs
  apply wildcardFrom_complete _ whole _ (.inl globs)
  · intro further
    exact further.elim
  · intro after kept started
    exact absurd started (by simp)

/-- A star takes one more byte, and goes back for it. -/
theorem star_goes_back : 0x2f ∉ [(0x62 : UInt8), 0x61, 0x62, 0x63] ∧
      Globs (fun _ => True) [0x2a, 0x62, 0x63] [0x62, 0x61, 0x62, 0x63] := by
  have whole : 0x2f ∉ [(0x62 : UInt8), 0x61, 0x62, 0x63] := by decide
  refine ⟨whole, ((wildcardMatch_globs [0x2a, 0x62, 0x63] _).2 whole).mp ?_⟩
  simp [wildcardMatch, wildcardFrom, matchCharacter]

/-- A star does not take the slash of `a/b`. -/
theorem star_stops_at_slash :
    ¬ ∀ pattern name, wildcardMatch pattern name = true ↔ Globs (fun _ => True) pattern name := by
  intro agrees
  have taken : Globs (fun _ => True) [0x2a] [0x61, 0x2f, 0x62] :=
    .more trivial (.more trivial (.more trivial (.stop .done)))
  have refused : wildcardMatch [0x2a] [0x61, 0x2f, 0x62] = false := by
    simp [wildcardMatch, wildcardFrom, matchCharacter]
  exact absurd ((agrees _ _).mpr taken) (by simp [refused])

end Refyard.Ssh
