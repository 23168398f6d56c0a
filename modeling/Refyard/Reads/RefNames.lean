import Refyard.Core.StatusRoundTrip
import Refyard.Reads.Head

/-! The names the planners create, as the readers find them again. -/
namespace Refyard

theorem refNameRefusal_passed {condition : Prop} [Decidable condition] {name why : String}
    {rest : Except CoreError Unit}
    (passed : (if condition then refNameRefusal name why else rest) = .ok ()) :
    ¬condition ∧ rest = .ok () := by
  split at passed
  · cases passed
  · exact ⟨‹_›, passed⟩

theorem bytes_of_validatedRefName {name : String} (accepted : validatedRefName name = .ok ()) :
    name ≠ "" ∧ ∀ byte ∈ textBytes name, 0x20 < byte ∧ byte ≠ 0x7f := by
  obtain ⟨nonempty, accepted⟩ := refNameRefusal_passed accepted
  obtain ⟨-, accepted⟩ := refNameRefusal_passed accepted
  obtain ⟨-, accepted⟩ := refNameRefusal_passed accepted
  obtain ⟨-, accepted⟩ := refNameRefusal_passed accepted
  obtain ⟨-, accepted⟩ := refNameRefusal_passed accepted
  obtain ⟨-, accepted⟩ := refNameRefusal_passed accepted
  obtain ⟨-, accepted⟩ := refNameRefusal_passed accepted
  obtain ⟨-, accepted⟩ := refNameRefusal_passed accepted
  obtain ⟨-, accepted⟩ := refNameRefusal_passed accepted
  obtain ⟨-, accepted⟩ := refNameRefusal_passed accepted
  obtain ⟨visible, -⟩ := refNameRefusal_passed accepted
  constructor
  · rintro rfl
    exact nonempty rfl
  · intro byte member
    simp only [List.any_eq_true, not_exists, not_and, Bool.or_eq_true, decide_eq_true_eq,
      beq_iff_eq, not_or] at visible
    exact ⟨UInt8.not_le.mp (visible byte member).1, (visible byte member).2⟩

/-- A name that `validated_ref_name` accepts. -/
abbrev AcceptedName := { name : String // validatedRefName name = .ok () }

/-- What Git writes in front of a name: `refs/heads/`, `refs/remotes/origin/`, or nothing. -/
abbrev NameSpace := { space : String // IsAscii space ∧ GitRef.Plain (asciiBytes space) ∧
  ∀ char ∈ space.toList.head?, isWhitespace char = false }

namespace AcceptedName

variable (name : AcceptedName)

def bytes : Bytes := textBytes name.1

theorem bytes_ne : name.bytes ≠ [] := by
  have nonempty := (bytes_of_validatedRefName name.2).1
  unfold bytes textBytes
  cases chars : name.1.toList with
  | nil => exact absurd (String.toList_eq_nil_iff.mp chars) nonempty
  | cons char rest =>
    exact fun empty => String.utf8EncodeChar_ne_nil (List.append_eq_nil_iff.mp empty).1

theorem plain_bytes : GitRef.Plain name.bytes := by
  have visible := (bytes_of_validatedRefName name.2).2
  exact ⟨fun member => absurd (visible 0 member).1 (by decide),
    fun member => absurd (visible 0x0a member).1 (by decide)⟩

theorem asciiBytes_eq_encode {text : String} (ascii : IsAscii text) :
    asciiBytes text = Utf8.encode text.toList := by
  have chars : (asciiBytes text).map byteChar = text.toList := by
    rw [← toList_asciiText, asciiText_asciiBytes ascii]
  rw [← Utf8.encode_ascii (asciiBytes_le ascii), chars]

def within (space : NameSpace) : RefBytes :=
  ⟨asciiBytes space.1 ++ name.bytes, fun empty => name.bytes_ne (List.append_eq_nil_iff.mp empty).2,
    space.2.2.1.append name.plain_bytes⟩

def shown (space : NameSpace) : GitRefName := ⟨(name.within space).1, (name.within space).2.2.1⟩

theorem decode_within (space : NameSpace) :
    String.ofList (Utf8.decode (name.within space).1) = space.1 ++ name.1 := by
  change String.ofList (Utf8.decode (asciiBytes space.1 ++ Utf8.encode name.1.toList)) = _
  rw [asciiBytes_eq_encode space.2.1, ← Utf8.encode_append, Utf8.decode_encode,
    String.ofList_append, String.ofList_toList, String.ofList_toList]

theorem bytes_le_iff : (∀ byte ∈ name.bytes, byte ≤ 0x7f) ↔ IsAscii name.1 := by
  constructor
  · intro ascii char member
    have chars : name.1.toList = name.bytes.map byteChar := by
      rw [← Utf8.decode_ascii ascii, bytes, textBytes, Utf8.decode_encode]
    rw [chars] at member
    obtain ⟨byte, inside, rfl⟩ := List.mem_map.mp member
    rw [toNat_byteChar]
    exact Nat.lt_succ_of_le (UInt8.le_iff_toNat_le.mp (ascii byte inside))
  · intro ascii
    rw [bytes, textBytes, ← asciiBytes_eq_encode ascii]
    exact asciiBytes_le ascii

theorem within_le_iff (space : NameSpace) :
    (∀ byte ∈ (name.within space).1, byte ≤ 0x7f) ↔ IsAscii name.1 := by
  rw [← name.bytes_le_iff]
  constructor
  · exact fun ascii byte member => ascii byte (List.mem_append_right _ member)
  · intro ascii byte member
    exact (List.mem_append.mp member).elim (asciiBytes_le space.2.1 byte) (ascii byte)

end AcceptedName

def heads : NameSpace :=
  ⟨"refs/heads/", by decide, ⟨by decide, by decide⟩, fun _ given => by cases given; rfl⟩

def bare : NameSpace :=
  ⟨"", by decide, ⟨by decide, by decide⟩, fun _ given => by cases given⟩

/-- A repository that holds a branch of the name, checked out, and as the upstream of
another branch. No other name in it keeps a reader from reading. -/
structure NamedRepository (name : AcceptedName) where
  refs : List GitRef
  branch : GitRef
  listed : branch ∈ refs
  named : branch.name = name.within heads
  current : branch.isHead = true
  follower : GitRef
  follows : follower ∈ refs
  tracked : NameSpace
  upstream : follower.upstream = some (name.within tracked)
  others : ∀ ref ∈ refs, ∀ other ∈ ref.names,
    GitRef.Ascii other ∨ ∃ space, other = name.within space
  bound : refs.length ≤ refListMaxEntries
  /-- The status while the branch is checked out. -/
  status : GitStatus
  onBranch : status.head = some (name.shown bare)
  statusUpstream : ∀ other ∈ status.upstream,
    (∀ byte ∈ other.1, byte ≤ 0x7f) ∨ ∃ space, other = name.shown space
  statusBound : status.entries.length ≤ statusMaxEntries
  /-- The status while the other branch is checked out. -/
  following : GitStatus
  followingHead : ∀ other ∈ following.head,
    (∀ byte ∈ other.1, byte ≤ 0x7f) ∧ other.1 ≠ asciiBytes "(detached)"
  short : NameSpace
  followed : following.upstream = some (name.shown short)
  followingBound : following.entries.length ≤ statusMaxEntries

namespace NamedRepository

variable {name : AcceptedName} (repository : NamedRepository name)

def headOidAnswer : GitAnswer :=
  match repository.status.oid with
  | some oid => finishedWith 0 (oid.1 ++ [0x0a])
  | none => finishedWith 1 []

def headAnswers : Nat → GitAnswer
  | 0 => finishedWith 0 ((name.within heads).1 ++ [0x0a])
  | _ => repository.headOidAnswer

structure ReadsBack : Prop where
  refs : ∃ records, parseForEachRef (GitRef.render repository.refs) refListMaxEntries = .ok records ∧
    (∃ record ∈ records, record.refName = "refs/heads/" ++ name.1 ∧ record.isHead = true) ∧
    ∃ record ∈ records, record.upstream = some (repository.tracked.1 ++ name.1)
  checkedOut : ∃ found, parseStatus repository.status.render statusMaxEntries = .ok found ∧
    found.branch.head = some name.1
  followed : ∃ found, parseStatus repository.following.render statusMaxEntries = .ok found ∧
    found.upstream = some (repository.short.1 ++ name.1)
  head : ∀ target : ReadTarget, ∃ head,
    ((readHeadState target).run repository.headAnswers 0).ending = .ok head ∧
      head.branchName = some name.1

theorem status_readable (ascii : IsAscii name.1) (other : name.1 ≠ "(detached)") :
    repository.status.Readable statusMaxEntries := by
  refine ⟨?_, ?_, ?_, repository.statusBound⟩
  · intro head given
    rw [repository.onBranch, Option.mem_some_iff] at given
    exact given ▸ (name.within_le_iff bare).mpr ascii
  · intro head given sentinel
    rw [repository.onBranch, Option.mem_some_iff] at given
    apply other
    have text := name.decode_within bare
    rw [show (name.within bare).1 = head.1 from congrArg Subtype.val given, sentinel] at text
    simpa [bare] using text.symm.trans (by decide)
  · intro upstream given
    rcases repository.statusUpstream upstream given with plain | ⟨space, rfl⟩
    · exact plain
    · exact (name.within_le_iff space).mpr ascii

theorem following_readable (ascii : IsAscii name.1) :
    repository.following.Readable statusMaxEntries := by
  refine ⟨fun head given => (repository.followingHead head given).1,
    fun head given => (repository.followingHead head given).2, ?_, repository.followingBound⟩
  intro upstream given
  rw [repository.followed, Option.mem_some_iff] at given
  exact given ▸ (name.within_le_iff repository.short).mpr ascii

theorem refs_read (ascii : IsAscii name.1) :
    parseForEachRef (GitRef.render repository.refs) refListMaxEntries =
      .ok (repository.refs.map GitRef.record) := by
  refine GitRef.parseForEachRef_render.mpr ⟨?_, repository.bound, rfl⟩
  intro ref member other given
  rcases repository.others ref member other given with plain | ⟨space, rfl⟩
  · exact plain
  · exact (name.within_le_iff space).mpr ascii

theorem visible_last (ascii : IsAscii name.1) :
    ∀ char ∈ ("refs/heads/" ++ name.1).toList.getLast?, isWhitespace char = false := by
  intro char last
  have some_char : name.1.toList ≠ [] := fun empty =>
    (bytes_of_validatedRefName name.2).1 (String.toList_eq_nil_iff.mp empty)
  rw [String.toList_append, List.getLast?_append_of_ne_nil _ some_char] at last
  have member := List.mem_of_getLast? last
  have below := ascii char member
  have inside : charByte char ∈ textBytes name.1 := by
    rw [textBytes, ← AcceptedName.asciiBytes_eq_encode ascii]
    exact List.mem_map_of_mem member
  have above := ((bytes_of_validatedRefName name.2).2 _ inside).1
  rw [UInt8.lt_iff_toNat_lt, toNat_charByte below] at above
  change 32 < char.toNat at above
  unfold isWhitespace
  simp only [Bool.or_eq_false_iff, Bool.and_eq_false_iff, decide_eq_false_iff_not,
    beq_eq_false_iff_ne]
  omega

theorem branch_line (ascii : IsAscii name.1) :
    asciiLine ((name.within heads).1 ++ [0x0a]) "symbolic-ref HEAD" =
      .ok ("refs/heads/" ++ name.1) := by
  have whole : IsAscii ("refs/heads/" ++ name.1) := IsAscii.append (by decide) ascii
  have line : (name.within heads).1 ++ [0x0a] = asciiBytes ("refs/heads/" ++ name.1 ++ "\n") := by
    rw [asciiBytes_append, asciiBytes_append, AcceptedName.asciiBytes_eq_encode ascii]
    rfl
  rw [line]
  refine asciiLine_of_ends whole ?_ (visible_last ascii) ?_ _
  · rw [String.toList_append]
    intro char first
    rw [List.head?_append_of_ne_nil _ (by decide)] at first
    exact heads.2.2.2 char first
  · intro empty
    have chars := congrArg String.toList empty
    rw [String.toList_append] at chars
    exact absurd (List.append_eq_nil_iff.mp chars).1 (by decide)

theorem run_readHeadState (target : ReadTarget) {answers : Nat → GitAnswer}
    {branchRef headOid : Option Bytes}
    (first : meaningfulAnswer (answers 0) "symbolic-ref HEAD" [1] = .ok branchRef)
    (second : meaningfulAnswer (answers 1) "rev-parse HEAD" [1] = .ok headOid) {head : HeadState}
    (found : headOf branchRef headOid = .ok head) :
    ((readHeadState target).run answers 0).ending = .ok head := by
  unfold readHeadState runMeaningfulExit
  simp only [Interaction.bind_assoc, Interaction.run_askFor_bind, id_eq, first,
    Interaction.orLeave_ok, Interaction.done_bind, second, found, Interaction.run_done,
    Transcript.ending_prepend]

theorem head_read (ascii : IsAscii name.1) (target : ReadTarget) : ∃ head,
    ((readHeadState target).run repository.headAnswers 0).ending = .ok head ∧
      head.branchName = some name.1 := by
  have branchName : branchNameOf ("refs/heads/" ++ name.1) = name.1 := by
    unfold branchNameOf
    rw [String.toList_append, stripPrefix_append]
    exact String.ofList_toList
  have first := meaningfulAnswer_finished ((name.within heads).1 ++ [0x0a]) "symbolic-ref HEAD"
  have answered : repository.headAnswers 1 = repository.headOidAnswer := rfl
  cases given : repository.status.oid with
  | none =>
    have second : meaningfulAnswer (repository.headAnswers 1) "rev-parse HEAD" [1] = .ok none := by
      rw [answered, headOidAnswer, given]
      rfl
    have found : headOf (some ((name.within heads).1 ++ [0x0a])) none =
        .ok ⟨.unborn, some (branchNameOf ("refs/heads/" ++ name.1)), none, false⟩ := by
      change (asciiLine ((name.within heads).1 ++ [0x0a]) "symbolic-ref HEAD").map _ = _
      rw [branch_line ascii]
      rfl
    exact ⟨_, run_readHeadState target first second found, congrArg some branchName⟩
  | some oid =>
    have second : meaningfulAnswer (repository.headAnswers 1) "rev-parse HEAD" [1] =
        .ok (some (oid.1 ++ [0x0a])) := by
      rw [answered, headOidAnswer, given]
      rfl
    have found : headOf (some ((name.within heads).1 ++ [0x0a])) (some (oid.1 ++ [0x0a])) =
        .ok ⟨.born, some (branchNameOf ("refs/heads/" ++ name.1)), some oid.text, false⟩ := by
      unfold headOf oidLine
      dsimp only
      rw [asciiLine_objectName]
      change (asciiLine ((name.within heads).1 ++ [0x0a]) "symbolic-ref HEAD").map _ = _
      rw [branch_line ascii]
      rfl
    exact ⟨_, run_readHeadState target first second found, congrArg some branchName⟩

theorem ascii_of_checkedOut {found : StatusParseResult}
    (parsed : parseStatus repository.status.render statusMaxEntries = .ok found) :
    IsAscii name.1 := by
  rw [← name.within_le_iff bare]
  intro byte member
  by_contra above
  obtain ⟨error, failed⟩ := Status.parseStatus_head_refused repository.onBranch member
    (UInt8.not_le.mp above) statusMaxEntries
  rw [failed] at parsed
  cases parsed

/-- The names that are read back are the ASCII names, but for the one that the status gives
a detached HEAD. -/
theorem reads_back_iff : repository.ReadsBack ↔ IsAscii name.1 ∧ name.1 ≠ "(detached)" := by
  constructor
  · intro reads
    obtain ⟨found, parsed, named⟩ := reads.checkedOut
    have ascii := ascii_of_checkedOut repository parsed
    refine ⟨ascii, ?_⟩
    intro sentinel
    have upstream : ∀ other ∈ repository.status.upstream, ∀ byte ∈ other.1, byte ≤ 0x7f := by
      intro other given
      rcases repository.statusUpstream other given with plain | ⟨space, rfl⟩
      · exact plain
      · exact (name.within_le_iff space).mpr ascii
    have head : ∀ other ∈ repository.status.head, ∀ byte ∈ other.1, byte ≤ 0x7f := by
      intro other given
      rw [repository.onBranch, Option.mem_some_iff] at given
      exact given ▸ (name.within_le_iff bare).mpr ascii
    rw [Status.parseStatus_found head upstream repository.statusBound] at parsed
    obtain rfl := Except.ok.inj parsed
    have detached : (Status.found repository.status).branch.head = none := by
      change (if asciiText repository.status.headBytes == "(detached)" then none else _) = none
      rw [GitStatus.headBytes, repository.onBranch,
        show asciiText (name.shown bare).1 = "(detached)" by
          rw [← Status.text_refName ((name.within_le_iff bare).mpr ascii)]
          exact (name.decode_within bare).trans (by simp [bare, sentinel])]
      rfl
    rw [detached] at named
    cases named
  · rintro ⟨ascii, other⟩
    constructor
    · refine ⟨_, repository.refs_read ascii, ?_, ?_⟩
      · refine ⟨_, List.mem_map_of_mem repository.listed, ?_, repository.current⟩
        change RefBytes.text repository.branch.name = _
        rw [repository.named]
        exact name.decode_within heads
      · refine ⟨_, List.mem_map_of_mem repository.follows, ?_⟩
        change repository.follower.upstream.map RefBytes.text = _
        rw [repository.upstream]
        exact congrArg some (name.decode_within repository.tracked)
    · refine ⟨_, (GitStatus.status_round_trip _ _).mpr (repository.status_readable ascii other), ?_⟩
      change repository.status.head.map GitRefName.text = _
      rw [repository.onBranch]
      exact congrArg some ((name.decode_within bare).trans (by simp [bare]))
    · refine ⟨_, (GitStatus.status_round_trip _ _).mpr (repository.following_readable ascii), ?_⟩
      change repository.following.upstream.map GitRefName.text = _
      rw [repository.followed]
      exact congrArg some (name.decode_within repository.short)
    · exact repository.head_read ascii

end NamedRepository

def accented : AcceptedName := ⟨"fé", by decide⟩

theorem isObjectName_sample : isObjectName (List.replicate 40 0x61) = true := by decide

def sampleOid : ObjectName := ⟨List.replicate 40 0x61, isObjectName_sample⟩

def plainRef (name : RefBytes) (upstream : Option RefBytes) (isHead : Bool) : GitRef where
  name := name
  oid := sampleOid
  objectType := .commit
  symref := none
  upstream := upstream
  distance := .level
  isHead := isHead
  peeled := none

def plainStatus (head upstream : Option GitRefName) : GitStatus where
  oid := some sampleOid
  head := head
  upstream := upstream
  aheadBehind := none
  stash := none
  entries := []

/-- `fé` is checked out, and `next` follows it. -/
def accentedRepository : NamedRepository accented where
  refs :=
    [plainRef (accented.within heads) none true,
      plainRef ⟨asciiBytes "refs/heads/next", by decide⟩ (some (accented.within heads)) false]
  branch := plainRef (accented.within heads) none true
  listed := List.mem_cons_self
  named := rfl
  current := rfl
  follower :=
    plainRef ⟨asciiBytes "refs/heads/next", by decide⟩ (some (accented.within heads)) false
  follows := List.mem_cons_of_mem _ List.mem_cons_self
  tracked := heads
  upstream := rfl
  others := by
    have next : GitRef.Ascii ⟨asciiBytes "refs/heads/next", by decide⟩ := asciiBytes_le (by decide)
    simp only [List.forall_mem_cons, GitRef.names, plainRef, Option.toList_none, List.append_nil,
      Option.toList_some, List.nil_append]
    exact ⟨⟨.inr ⟨heads, rfl⟩, List.forall_mem_nil _⟩,
      ⟨.inl next, .inr ⟨heads, rfl⟩, List.forall_mem_nil _⟩, List.forall_mem_nil _⟩
  bound := by decide
  status := plainStatus (some (accented.shown bare)) none
  onBranch := rfl
  statusUpstream := fun _ given => nomatch given
  statusBound := by decide
  following := plainStatus (some ⟨asciiBytes "next", by decide⟩) (some (accented.shown bare))
  followingHead := by
    intro other given
    obtain rfl := Option.mem_some_iff.mp given
    exact ⟨asciiBytes_le (by decide), by decide⟩
  short := bare
  followed := rfl
  followingBound := by decide

/-- The planners create a branch called `fé`, and the status can no longer be read. -/
theorem accented_name_lost : validatedRefName "fé" = .ok () ∧ ¬accentedRepository.ReadsBack := by
  refine ⟨accented.2, fun reads => ?_⟩
  obtain ⟨found, parsed, -⟩ := reads.checkedOut
  exact absurd (accentedRepository.ascii_of_checkedOut parsed) (by decide)

end Refyard
