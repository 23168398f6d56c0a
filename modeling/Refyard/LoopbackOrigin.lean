import Refyard.Auth
import Refyard.Foundation.WebUrl

/-! What an origin that passes for loopback names. The check reads the beginning of the text; a
browser reads an address, and what stands behind the colon may move the host. -/
namespace Refyard.Auth
open WebUrl

def loopbacks : List (List Char) := ["127.0.0.1".toList, "localhost".toList, "[::1]".toList]

def loopbackHosts : List WebUrl.Host :=
  [.domain "localhost".toList, .ipv4 0x7f000001, .ipv6 [0, 0, 0, 0, 0, 0, 0, 1]]

def NamesLoopback (uts46 : List Char → Option (List Char)) (origin : String) : Prop :=
  ∃ url, parse uts46 origin.toList = some url ∧
    url.scheme ∈ ["http".toList, "https".toList] ∧ url.host ∈ loopbackHosts

/-- What follows a loopback spelling and its colon is a port; or else the text in front of its
last at sign is no part of the host, and what follows that names this machine again. -/
def KeepsHost (uts46 : List Char → Option (List Char)) (behind : List Char) : Prop :=
  let rest := authority (cleanTail behind)
  if '@' ∈ rest then ∃ host ∈ loopbackHosts, authorityHost uts46 rest = some host
  else isPort rest = true

theorem exists_slashes (text : List Char) :
    ∃ count, text = text.rdropWhile (· = '/') ++ List.replicate count '/' := by
  refine ⟨(text.rtakeWhile (· = '/')).length, ?_⟩
  have slashes : text.rtakeWhile (· = '/') =
      List.replicate (text.rtakeWhile (· = '/')).length '/' := by
    rw [List.eq_replicate_iff]
    refine ⟨rfl, fun char member => ?_⟩
    have slash := List.mem_rtakeWhile_imp member
    exact of_decide_eq_true slash
  rw [← slashes, List.rdropWhile_append_rtakeWhile]

variable {loopback : List Char}

theorem solid_loopback (listed : loopback ∈ loopbacks) :
    ∃ char, loopback.getLast? = some char ∧ decide (char = '/') = false := by
  simp only [loopbacks, List.mem_cons, List.not_mem_nil, or_false] at listed
  obtain rfl | rfl | rfl := listed
  · exact ⟨'1', rfl, rfl⟩
  · exact ⟨'t', rfl, rfl⟩
  · exact ⟨']', rfl, rfl⟩

theorem rdropWhile_eq_loopback {rest : List Char} (listed : loopback ∈ loopbacks) :
    rest.rdropWhile (· = '/') = loopback ↔ ∃ count, rest = loopback ++ List.replicate count '/' := by
  constructor
  · rintro rfl
    exact exists_slashes rest
  · rintro ⟨count, rfl⟩
    have nothing : (List.replicate count '/').rdropWhile (· = '/') = [] := by
      rw [List.rdropWhile_eq_nil_iff]
      intro char member
      exact decide_eq_true (List.eq_of_mem_replicate member)
    rw [rdropWhile_append (solid_loopback listed) _, nothing, List.append_nil]

theorem rdropWhile_begins_loopback {rest : List Char} :
    (∃ port, rest.rdropWhile (· = '/') = loopback ++ ':' :: port) ↔
      ∃ behind, rest = loopback ++ ':' :: behind := by
  constructor
  · rintro ⟨port, trimmed⟩
    obtain ⟨count, whole⟩ := exists_slashes rest
    refine ⟨port ++ List.replicate count '/', ?_⟩
    rw [whole, trimmed]
    simp
  · rintro ⟨behind, rfl⟩
    have solid : ∃ char, (loopback ++ [':']).getLast? = some char ∧ decide (char = '/') = false :=
      ⟨':', List.getLast?_concat, rfl⟩
    have kept := rdropWhile_append solid behind
    rw [List.append_assoc, List.append_assoc] at kept
    exact ⟨behind.rdropWhile (· = '/'), kept⟩

theorem head?_stripPrefix {authority : List Char} : (match stripPrefix loopback authority with
      | none => false
      | some port => decide (port.head? = some ':')) = true ↔
      ∃ port, authority = loopback ++ ':' :: port := by
  cases stripped : stripPrefix loopback authority with
  | none =>
    refine iff_of_false Bool.false_ne_true ?_
    rintro ⟨port, rfl⟩
    rw [stripPrefix_append] at stripped
    cases stripped
  | some rest =>
    rw [stripPrefix_eq_some] at stripped
    rw [stripped, decide_eq_true_iff, List.head?_eq_some_iff]
    simp only [List.append_cancel_left_eq]

theorem isLoopbackOrigin_iff {origin : String} :
    isLoopbackOrigin origin = true ↔ ∃ loopback ∈ loopbacks,
      (∃ count, origin.toList = "http://".toList ++ (loopback ++ List.replicate count '/')) ∨
        ∃ behind, origin.toList = "http://".toList ++ (loopback ++ ':' :: behind) := by
  unfold isLoopbackOrigin
  cases stripped : stripPrefix "http://".toList origin.toList with
  | none =>
    refine iff_of_false Bool.false_ne_true ?_
    rintro ⟨loopback, -, ⟨count, spelled⟩ | ⟨behind, spelled⟩⟩
    · rw [spelled, stripPrefix_append] at stripped
      cases stripped
    · rw [spelled, stripPrefix_append] at stripped
      cases stripped
  | some rest =>
    rw [stripPrefix_eq_some] at stripped
    have spellings : (["127.0.0.1", "localhost", "[::1]"].any fun loopback =>
        decide (rest.rdropWhile (· = '/') = loopback.toList) ||
          match stripPrefix loopback.toList (rest.rdropWhile (· = '/')) with
          | none => false
          | some port => decide (port.head? = some ':')) = true ↔
        ∃ loopback ∈ loopbacks, rest.rdropWhile (· = '/') = loopback ∨
          ∃ port, rest.rdropWhile (· = '/') = loopback ++ ':' :: port := by
      simp only [List.any_cons, List.any_nil, Bool.or_false, Bool.or_eq_true, decide_eq_true_iff,
        head?_stripPrefix, loopbacks, List.exists_mem_cons_iff, List.not_mem_nil, false_and,
        exists_false, or_false]
    rw [stripped]
    refine spellings.trans (exists_congr fun loopback => and_congr_right fun listed => ?_)
    rw [rdropWhile_eq_loopback listed, rdropWhile_begins_loopback]
    simp only [List.append_cancel_left_eq]

section
variable {uts46 : List Char → Option (List Char)} {loopback : List Char}

theorem plain_loopback (listed : loopback ∈ loopbacks) :
    loopback ≠ [] ∧ ∀ char ∈ loopback, 0x20 < char.toNat ∧ endsAuthority char = false := by
  simp only [loopbacks, List.mem_cons, List.not_mem_nil, or_false] at listed
  obtain rfl | rfl | rfl := listed
  · simp [endsAuthority]
  · simp [endsAuthority]
  · simp [endsAuthority]

theorem parseHost_loopback (uts46 : List Char → Option (List Char))
    (listed : loopback ∈ loopbacks) :
    ∃ host ∈ loopbackHosts, parseHost uts46 loopback = some host := by
  simp only [loopbacks, List.mem_cons, List.not_mem_nil, or_false] at listed
  obtain rfl | rfl | rfl := listed
  · exact ⟨.ipv4 0x7f000001, by decide, rfl⟩
  · exact ⟨.domain "localhost".toList, by decide, rfl⟩
  · exact ⟨.ipv6 [0, 0, 0, 0, 0, 0, 0, 1], by decide, rfl⟩

theorem splitPort_loopback (listed : loopback ∈ loopbacks) (port : List Char) :
    splitPort false (loopback ++ ':' :: port) = (loopback, some port) := by
  simp only [loopbacks, List.mem_cons, List.not_mem_nil, or_false] at listed
  obtain rfl | rfl | rfl := listed
  · rfl
  · rfl
  · rfl

theorem at_notMem_loopback (listed : loopback ∈ loopbacks) : '@' ∉ loopback ++ [':'] := by
  simp only [loopbacks, List.mem_cons, List.not_mem_nil, or_false] at listed
  obtain rfl | rfl | rfl := listed
  · decide
  · decide
  · decide

theorem hostAndPort_loopback (listed : loopback ∈ loopbacks) :
    hostAndPort uts46 loopback = parseHost uts46 loopback := by
  simp only [loopbacks, List.mem_cons, List.not_mem_nil, or_false] at listed
  obtain rfl | rfl | rfl := listed
  · rfl
  · rfl
  · rfl

theorem namesLoopback_slashes (listed : loopback ∈ loopbacks) {origin : String} {count : Nat}
    (spelled : origin.toList = "http://".toList ++ (loopback ++ List.replicate count '/')) :
    NamesLoopback uts46 origin := by
  obtain ⟨someChar, plain⟩ := plain_loopback listed
  obtain ⟨host, named, read⟩ := parseHost_loopback uts46 listed
  have nothing : authority (cleanTail (List.replicate count '/')) = [] := by
    cases count with
    | zero => rfl
    | succ count =>
      have visible : ∀ char ∈ ['/'], 0x20 < char.toNat := by simp
      have kept := cleanTail_append (List.cons_ne_nil _ _) visible (List.replicate count '/')
      exact congrArg authority kept
  refine ⟨⟨"http".toList, host⟩, ?_, List.mem_cons_self, named⟩
  have free : '@' ∉ loopback := fun member =>
    at_notMem_loopback listed (List.mem_append_left _ member)
  rw [spelled, parse_http someChar plain, nothing, List.append_nil, authorityHost_of_notMem free,
    hostAndPort_loopback listed, read]
  rfl

theorem namesLoopback_colon (listed : loopback ∈ loopbacks) {origin : String} {behind : List Char}
    (spelled : origin.toList = "http://".toList ++ (loopback ++ ':' :: behind)) :
    NamesLoopback uts46 origin ↔ KeepsHost uts46 behind := by
  obtain ⟨someChar, plain⟩ := plain_loopback listed
  obtain ⟨host, named, read⟩ := parseHost_loopback uts46 listed
  have begins : ∀ char ∈ loopback ++ [':'], 0x20 < char.toNat ∧ endsAuthority char = false := by
    intro char member
    obtain own | colon := List.mem_append.mp member
    · exact plain char own
    · rw [List.mem_singleton.mp colon]
      decide
  have parsed : parse uts46 origin.toList =
      (authorityHost uts46 ((loopback ++ [':']) ++ authority (cleanTail behind))).map
        (Url.mk "http".toList) := by
    rw [spelled, ← parse_http (by simp) begins]
    simp
  unfold NamesLoopback KeepsHost
  rw [parsed]
  by_cases caller : '@' ∈ authority (cleanTail behind)
  · rw [if_pos caller, authorityHost_append caller]
    constructor
    · rintro ⟨url, reads, -, machine⟩
      obtain ⟨other, elsewhere, rfl⟩ := Option.map_eq_some_iff.mp reads
      exact ⟨other, machine, elsewhere⟩
    · rintro ⟨other, machine, elsewhere⟩
      rw [elsewhere]
      exact ⟨_, rfl, List.mem_cons_self, machine⟩
  · have free : '@' ∉ (loopback ++ [':']) ++ authority (cleanTail behind) := by
      rw [List.mem_append, not_or]
      exact ⟨at_notMem_loopback listed, caller⟩
    rw [if_neg caller, authorityHost_of_notMem free, List.append_assoc, List.singleton_append,
      hostAndPort_of_split (splitPort_loopback listed _) someChar, read]
    cases valid : isPort (authority (cleanTail behind)) with
    | true => exact iff_of_true ⟨_, rfl, List.mem_cons_self, named⟩ rfl
    | false =>
      refine iff_of_false ?_ Bool.false_ne_true
      rintro ⟨url, reads, -⟩
      cases reads

end

/-- Whatever mapping names go through: an origin that passes names this machine exactly if what
follows the colon of a loopback spelling, wherever there is one, keeps the host. -/
theorem loopback_origin_iff (uts46 : List Char → Option (List Char)) (origin : String) :
    (isLoopbackOrigin origin = true → NamesLoopback uts46 origin) ↔
      ∀ loopback ∈ loopbacks, ∀ behind,
        origin.toList = "http://".toList ++ (loopback ++ ':' :: behind) → KeepsHost uts46 behind := by
  constructor
  · intro trusted loopback listed behind spelled
    have accepted := isLoopbackOrigin_iff.mpr ⟨loopback, listed, .inr ⟨behind, spelled⟩⟩
    exact (namesLoopback_colon listed spelled).mp (trusted accepted)
  · intro keeps accepted
    obtain ⟨loopback, listed, ⟨count, spelled⟩ | ⟨behind, spelled⟩⟩ :=
      isLoopbackOrigin_iff.mp accepted
    · exact namesLoopback_slashes listed spelled
    · exact (namesLoopback_colon listed spelled).mpr (keeps loopback listed behind spelled)

/-- The loopback name is the caller, and the host is elsewhere. -/
theorem other_host_passes : isLoopbackOrigin "http://localhost:pw@evil.example" = true ∧
      parse (fun _ => none) "http://localhost:pw@evil.example".toList =
        some ⟨"http".toList, .domain "evil.example".toList⟩ ∧
      ¬NamesLoopback (fun _ => none) "http://localhost:pw@evil.example" := by
  have read : parse (fun _ => none) "http://localhost:pw@evil.example".toList =
      some ⟨"http".toList, .domain "evil.example".toList⟩ := by decide +kernel
  refine ⟨by decide +kernel, read, ?_⟩
  rintro ⟨url, reads, -, machine⟩
  cases reads
  revert machine
  decide

end Refyard.Auth
