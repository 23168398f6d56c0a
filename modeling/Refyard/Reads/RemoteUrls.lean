import Refyard.Foundation.Scan

/-! The URL of a remote as it is displayed: without the credentials in it. -/
namespace Refyard

theorem eq_append_of_mem_last {α : Type} {separator : α} {values : List α}
    (member : separator ∈ values) :
    ∃ front back, values = front ++ separator :: back ∧ separator ∉ back := by
  obtain ⟨back, front, same, absent⟩ :=
    List.eq_append_cons_of_mem (List.mem_reverse.mpr member)
  refine ⟨front.reverse, back.reverse, ?_, by rwa [List.mem_reverse]⟩
  rw [← values.reverse_reverse, same]
  simp

section
variable {α : Type} [DecidableEq α] {mark values front rest : List α}

def splitAtMark (mark : List α) : List α → Option (List α × List α)
  | [] => none
  | value :: values =>
      match stripPrefix mark (value :: values) with
      | some rest => some ([], rest)
      | none => (splitAtMark mark values).map fun (front, rest) => (value :: front, rest)

theorem splitAtMark_eq_none (full : mark ≠ []) :
    splitAtMark mark values = none ↔ ¬mark <:+: values := by
  induction values with
  | nil => simp [splitAtMark, full]
  | cons value values ih =>
    unfold splitAtMark
    rw [List.infix_cons_iff, not_or, ← ih, ← stripPrefix_eq_none]
    split
    · rename_i rest begins
      rw [begins]
      simp
    · rename_i absent
      rw [absent, Option.map_eq_none_iff]
      simp

theorem splitAtMark_append (full : mark ≠ []) (first : ¬mark <:+: (front ++ mark).dropLast)
    (rest : List α) : splitAtMark mark (front ++ mark ++ rest) = some (front, rest) := by
  induction front with
  | nil =>
    cases mark with
    | nil => contradiction
    | cons token tokens =>
      rw [List.nil_append, List.cons_append, splitAtMark, ← List.cons_append, stripPrefix_append]
  | cons value front ih =>
    have tail : (value :: front ++ mark).dropLast = value :: (front ++ mark).dropLast := by
      rw [List.cons_append, List.dropLast_cons_of_ne_nil (by simp [full])]
    rw [tail, List.infix_cons_iff, not_or] at first
    have later : ¬mark <+: value :: front ++ mark ++ rest := by
      intro begins
      apply first.1
      rw [← tail]
      refine List.prefix_of_prefix_length_le begins
        ((List.dropLast_prefix _).trans (List.prefix_append _ rest)) ?_
      simp
    rw [List.cons_append, List.cons_append, splitAtMark, ← List.cons_append, ← List.cons_append,
      stripPrefix_eq_none.mpr later, ih first.2]
    rfl

theorem splitAtMark_eq_some (full : mark ≠ [])
    (found : splitAtMark mark values = some (front, rest)) :
    values = front ++ mark ++ rest ∧ ¬mark <:+: (front ++ mark).dropLast := by
  induction values generalizing front with
  | nil => cases found
  | cons value values ih =>
    unfold splitAtMark at found
    split at found
    · rename_i behind begins
      obtain ⟨rfl, rfl⟩ := Prod.mk.inj (Option.some.inj found)
      refine ⟨stripPrefix_eq_some.mp begins, fun inside => ?_⟩
      have short := inside.length_le
      rw [List.nil_append, List.length_dropLast] at short
      have some_token := List.length_pos_iff.mpr full
      omega
    · rename_i absent
      obtain ⟨⟨before, behind⟩, later, same⟩ := Option.map_eq_some_iff.mp found
      obtain ⟨rfl, rfl⟩ := Prod.mk.inj same
      obtain ⟨spelled, none_earlier⟩ := ih later
      rw [stripPrefix_eq_none, spelled] at absent
      refine ⟨by rw [spelled]; rfl, ?_⟩
      rw [List.cons_append, List.dropLast_cons_of_ne_nil (by simp [full]), List.infix_cons_iff,
        not_or]
      refine ⟨fun begins => absent ?_, none_earlier⟩
      refine begins.trans (List.cons_prefix_cons.mpr ⟨rfl, ?_⟩)
      exact (List.dropLast_prefix _).trans (List.prefix_append _ _)

variable {separator : α}

theorem rsplitOnce_eq_some {back : List α}
    (found : rsplitOnce separator values = some (front, back)) :
    values = front ++ separator :: back ∧ separator ∉ back := by
  obtain ⟨⟨behind, before⟩, split, same⟩ := Option.map_eq_some_iff.mp found
  obtain ⟨rfl, rfl⟩ := Prod.mk.inj same
  obtain ⟨absent, spelled⟩ := splitOnce_eq_some.mp split
  refine ⟨?_, by rwa [List.mem_reverse]⟩
  rw [← List.reverse_reverse values, spelled]
  simp

theorem rsplitOnce_of_notMem (absent : separator ∉ values) :
    rsplitOnce separator values = none := by
  rw [rsplitOnce, splitOnce_of_notMem (by rwa [List.mem_reverse]), Option.map_none]

theorem splitWhile_append (absent : separator ∉ front)
    (ends : rest = [] ∨ rest.head? = some separator) :
    (front ++ rest).takeWhile (fun value => value ≠ separator) = front ∧
      (front ++ rest).dropWhile (fun value => value ≠ separator) = rest := by
  have inside : ∀ value ∈ front, decide (value ≠ separator) = true := by
    intro value member
    rw [decide_eq_true_iff]
    exact fun same => absent (same ▸ member)
  rw [List.takeWhile_append_of_pos inside, List.dropWhile_append_of_pos inside]
  obtain rfl | starts := ends
  · simp
  · obtain ⟨tail, rfl⟩ := List.head?_eq_some_iff.mp starts
    simp

end

def redactChars (url : List Char) : List Char :=
  match splitAtMark "://".toList url with
  | none =>
      -- a colon before the last `@` means a password
      match rsplitOnce '@' url with
      | some (front, back) => if front.contains ':' then back else url
      | none => url
  | some (scheme, rest) =>
      let authority := rest.takeWhile fun char => char ≠ '/'
      let path := rest.dropWhile fun char => char ≠ '/'
      match rsplitOnce '@' authority with
      | none => url
      | some (userInfo, host) =>
          if scheme = "ssh".toList && !userInfo.contains ':' then url
          else scheme ++ "://".toList ++ host ++ path

def redactRemoteUrl (url : String) : String := String.ofList (redactChars url.toList)

/-- An `@` at which a URL is cut. Behind a scheme it is the last one before the first slash, else
the last of all; the part before it has a colon, or is no account for `ssh`. -/
inductive CutAt : List Char → List Char → List Char → List Char → Prop
  | authority {scheme dropped host path : List Char}
      (first : ¬"://".toList <:+: (scheme ++ "://".toList).dropLast)
      (inside : '/' ∉ dropped) (hostInside : '/' ∉ host) (last : '@' ∉ host)
      (ends : path = [] ∨ path.head? = some '/')
      (secret : scheme = "ssh".toList → ':' ∈ dropped) :
      CutAt (scheme ++ "://".toList ++ (dropped ++ '@' :: host ++ path)) (scheme ++ "://".toList)
        dropped (host ++ path)
  | address {dropped back : List Char}
      (bare : ¬"://".toList <:+: dropped ++ '@' :: back) (last : '@' ∉ back)
      (secret : ':' ∈ dropped) : CutAt (dropped ++ '@' :: back) [] dropped back

namespace CutAt

variable {url kept dropped back : List Char}

theorem spelled (cut : CutAt url kept dropped back) : url = kept ++ (dropped ++ '@' :: back) := by
  cases cut with
  | authority => simp
  | address => rfl

theorem redactChars_eq (cut : CutAt url kept dropped back) : redactChars url = kept ++ back := by
  cases cut with
  | @authority scheme dropped host path first inside hostInside last ends secret =>
    have free : '/' ∉ dropped ++ '@' :: host := by simp [inside, hostInside]
    obtain ⟨taken, left⟩ := splitWhile_append free ends
    have hidden : (scheme = "ssh".toList && !dropped.contains ':') = false := by
      by_cases ssh : scheme = "ssh".toList
      · simp [secret ssh]
      · rw [decide_eq_false ssh, Bool.false_and]
    unfold redactChars
    rw [splitAtMark_append (by decide) first]
    dsimp only
    rw [taken, left, rsplitOnce_append last]
    dsimp only
    rw [hidden, if_neg Bool.false_ne_true, List.append_assoc _ host]
  | address bare last secret =>
    unfold redactChars
    rw [splitAtMark_eq_none (by decide) |>.mpr bare, rsplitOnce_append last]
    simp [secret]

end CutAt

variable {url : List Char}

theorem redactChars_of_uncut (uncut : ∀ kept dropped back, ¬CutAt url kept dropped back) :
    redactChars url = url := by
  unfold redactChars
  cases scheme : splitAtMark "://".toList url with
  | none =>
    cases split : rsplitOnce '@' url with
    | none => rfl
    | some parts =>
      obtain ⟨front, back⟩ := parts
      obtain ⟨rfl, last⟩ := rsplitOnce_eq_some split
      refine if_neg fun secret => ?_
      exact uncut _ _ _ (.address ((splitAtMark_eq_none (by decide)).mp scheme) last
        (List.contains_iff_mem.mp secret))
  | some parts =>
    obtain ⟨scheme, rest⟩ := parts
    obtain ⟨rfl, first⟩ := splitAtMark_eq_some (by decide) scheme
    dsimp only
    cases split : rsplitOnce '@' (rest.takeWhile fun char => char ≠ '/') with
    | none => rfl
    | some parts =>
      obtain ⟨userInfo, host⟩ := parts
      obtain ⟨authority, last⟩ := rsplitOnce_eq_some split
      have free : '/' ∉ userInfo ++ '@' :: host := by
        rw [← authority]
        intro member
        simpa using List.mem_takeWhile_imp member
      have ends : rest.dropWhile (fun char => char ≠ '/') = [] ∨
          (rest.dropWhile fun char => char ≠ '/').head? = some '/' := by
        have stops := List.head?_dropWhile_not (fun char => decide (char ≠ '/')) rest
        cases left : rest.dropWhile fun char => char ≠ '/' with
        | nil => exact .inl rfl
        | cons char behind =>
          rw [left] at stops
          exact .inr (by simpa using stops)
      have whole : rest = userInfo ++ '@' :: host ++ rest.dropWhile (fun char => char ≠ '/') := by
        rw [← authority, List.takeWhile_append_dropWhile]
      rw [List.mem_append, List.mem_cons, not_or, not_or] at free
      refine if_pos ?_
      by_contra shown
      rw [Bool.and_eq_true, decide_eq_true_eq, Bool.not_eq_true', not_and, Bool.not_eq_false,
        List.contains_iff_mem] at shown
      have cut := CutAt.authority first free.1 free.2.2 last ends shown
      rw [← whole] at cut
      exact uncut _ _ _ cut

theorem redactChars_eq_self :
    redactChars url = url ↔ ∀ kept dropped back, ¬CutAt url kept dropped back := by
  refine ⟨fun same kept dropped back cut => ?_, redactChars_of_uncut⟩
  have short := congrArg List.length (cut.redactChars_eq.symm.trans same)
  rw [cut.spelled] at short
  simp only [List.length_append, List.length_cons] at short
  omega

theorem CutAt.redactChars_again {kept dropped back : List Char} (cut : CutAt url kept dropped back) :
    redactChars (kept ++ back) = kept ++ back := by
  cases cut with
  | authority first inside hostInside last ends secret =>
    obtain ⟨taken, left⟩ := splitWhile_append hostInside ends
    unfold redactChars
    rw [splitAtMark_append (by decide) first]
    dsimp only
    rw [taken, rsplitOnce_of_notMem last]
  | address bare last secret =>
    have tail : ¬"://".toList <:+: back := fun inside =>
      bare (inside.trans ((List.suffix_cons '@' back).isInfix.trans
        (List.suffix_append dropped _).isInfix))
    unfold redactChars
    rw [List.nil_append, (splitAtMark_eq_none (by decide)).mpr tail, rsplitOnce_of_notMem last]

theorem redactChars_idem (url : List Char) : redactChars (redactChars url) = redactChars url := by
  by_cases cut : ∃ kept dropped back, CutAt url kept dropped back
  · obtain ⟨kept, dropped, back, cut⟩ := cut
    rw [cut.redactChars_eq, cut.redactChars_again]
  · have same := redactChars_of_uncut fun kept dropped back found => cut ⟨kept, dropped, back, found⟩
    rw [same, same]

/-! The URLs of a remote. -/

abbrev UrlScheme := {text : List Char // ':' ∉ text}

abbrev UrlUser := {text : List Char // ':' ∉ text ∧ '@' ∉ text ∧ '/' ∉ text}

abbrev UrlPassword := {text : List Char // text ≠ []}

abbrev UrlHost := {text : List Char // '@' ∉ text ∧ '/' ∉ text}

abbrev UrlPath := {text : List Char // text = [] ∨ text.head? = some '/'}

/-- The host of an address `host:path`. -/
abbrev ScpHost := {text : List Char // ':' ∉ text ∧ '@' ∉ text ∧ '/' ∉ text}

abbrev LocalPath := {text : List Char // ':' ∉ text.takeWhile fun char => char ≠ '/'}

inductive RemoteUrl where
  | withPassword (scheme : UrlScheme) (user : UrlUser) (password : UrlPassword) (host : UrlHost)
      (path : UrlPath)
  | scpWithPassword (user : UrlUser) (password : UrlPassword) (host : ScpHost) (path : List Char)
  | plain (scheme : UrlScheme) (host : UrlHost) (path : UrlPath)
  | scpPlain (host : ScpHost) (path : List Char)
  | onThisMachine (path : LocalPath)
  | sshUser (user : UrlUser) (host : UrlHost) (path : UrlPath)
  | scpUser (user : UrlUser) (host : ScpHost) (path : List Char)

namespace RemoteUrl

def chars : RemoteUrl → List Char
  | withPassword scheme user password host path =>
      scheme.val ++ "://".toList ++ (user.val ++ ':' :: password.val ++ '@' :: host.val ++ path.val)
  | scpWithPassword user password host path =>
      user.val ++ ':' :: password.val ++ '@' :: (host.val ++ ':' :: path)
  | plain scheme host path => scheme.val ++ "://".toList ++ (host.val ++ path.val)
  | scpPlain host path => host.val ++ ':' :: path
  | onThisMachine path => path.val
  | sshUser user host path =>
      "ssh".toList ++ "://".toList ++ (user.val ++ '@' :: host.val ++ path.val)
  | scpUser user host path => user.val ++ '@' :: (host.val ++ ':' :: path)

def text (url : RemoteUrl) : String := String.ofList url.chars

def secret : RemoteUrl → Option (List Char)
  | withPassword _ user password _ _ => some (user.val ++ ':' :: password.val)
  | scpWithPassword user password _ _ => some (user.val ++ ':' :: password.val)
  | _ => none

/-- A URL with a password is displayed without its userinfo and every other one as it is; and what
is displayed would be displayed the same. -/
def Displayed (url : RemoteUrl) : Prop :=
  (match url.secret with
    | some userInfo => ¬userInfo <:+: (redactRemoteUrl url.text).toList
    | none => redactRemoteUrl url.text = url.text) ∧
  redactRemoteUrl (redactRemoteUrl url.text) = redactRemoteUrl url.text

/-- A password has no slash, or an `@` before its first one, and what is left of the URL around it
does not hold the userinfo again. An address is cut at its last `@`, or like a URL if it has the
mark of one. A URL with a scheme and no password is right as it is, and other texts are cut
nowhere. -/
def WellCut (url : RemoteUrl) : Prop :=
  match url with
  | withPassword scheme user password host path =>
      ('/' ∉ password.val ∧ ¬user.val ++ ':' :: password.val <:+: (plain scheme host path).chars) ∨
        ∃ first last behind, password.val = first ++ '@' :: last ++ '/' :: behind ∧
          '/' ∉ first ++ last ∧ '@' ∉ last ∧ ¬user.val ++ ':' :: password.val <:+:
            scheme.val ++ "://".toList ++
              (last ++ ('/' :: behind ++ '@' :: host.val ++ path.val))
  | scpWithPassword user password host path =>
      (¬"://".toList <:+: url.chars → ∃ front last, '@' :: (host.val ++ ':' :: path) =
        front ++ '@' :: last ∧ '@' ∉ last ∧ ¬user.val ++ ':' :: password.val <:+: last) ∧
      ("://".toList <:+: url.chars → ∃ kept dropped back, CutAt url.chars kept dropped back ∧
        ¬user.val ++ ':' :: password.val <:+: kept ++ back)
  | plain .. | sshUser .. => True
  | scpPlain .. | onThisMachine _ | scpUser .. => ∀ kept dropped back, ¬CutAt url.chars kept dropped back

theorem toList_redact (url : RemoteUrl) :
    (redactRemoteUrl url.text).toList = redactChars url.chars := by
  rw [redactRemoteUrl, text, String.toList_ofList, String.toList_ofList]

theorem redact_eq_text {url : RemoteUrl} :
    redactRemoteUrl url.text = url.text ↔ redactChars url.chars = url.chars := by
  rw [← String.toList_inj, toList_redact, text, String.toList_ofList]

theorem first_mark (scheme : UrlScheme) :
    ¬"://".toList <:+: (scheme.val ++ "://".toList).dropLast := by
  rw [List.dropLast_append_of_ne_nil (by decide)]
  obtain ⟨text, colonless⟩ := scheme
  induction text with
  | nil => exact (by decide : ¬"://".toList <:+: ":/".toList)
  | cons char text ih =>
    rw [List.mem_cons, not_or] at colonless
    rw [List.cons_append, List.infix_cons_iff, not_or]
    refine ⟨fun begins => colonless.1 ?_, ih colonless.2⟩
    exact (List.cons_prefix_cons.mp begins).1

theorem uncut_plain (scheme : UrlScheme) (host : UrlHost) (path : UrlPath) :
    redactChars (plain scheme host path).chars = (plain scheme host path).chars := by
  obtain ⟨taken, -⟩ := splitWhile_append host.property.2 path.property
  rw [chars, redactChars, splitAtMark_append (by decide) (first_mark scheme)]
  dsimp only
  rw [taken, rsplitOnce_of_notMem host.property.1]

theorem uncut_sshUser (user : UrlUser) (host : UrlHost) (path : UrlPath) :
    redactChars (sshUser user host path).chars = (sshUser user host path).chars := by
  have free : '/' ∉ user.val ++ '@' :: host.val := by
    simp [user.property.2.2, host.property.2]
  obtain ⟨taken, -⟩ := splitWhile_append free path.property
  rw [chars, redactChars, splitAtMark_append (by decide) (by decide)]
  dsimp only
  rw [taken, rsplitOnce_append host.property.1]
  simp [user.property.1]

/-- A secret that the URL holds is not displayed exactly when the URL is cut and what is kept does
not hold it. -/
theorem hidden_iff (url : List Char) {info : List Char} (held : info <:+: url) :
    ¬info <:+: redactChars url ↔
      ∃ kept dropped back, CutAt url kept dropped back ∧ ¬info <:+: kept ++ back := by
  constructor
  · intro hidden
    by_contra uncut
    have same : redactChars url = url := by
      refine redactChars_of_uncut fun kept dropped back cut => uncut ⟨kept, dropped, back, cut, ?_⟩
      rwa [cut.redactChars_eq] at hidden
    rw [same] at hidden
    exact hidden held
  · rintro ⟨kept, dropped, back, cut, hidden⟩
    rwa [cut.redactChars_eq]

section
variable {scheme : UrlScheme} {user : UrlUser} {password : UrlPassword} {host : UrlHost}
  {path : UrlPath} {first last behind : List Char}

theorem cut_slashless (slashless : '/' ∉ password.val) :
    CutAt (withPassword scheme user password host path).chars (scheme.val ++ "://".toList)
      (user.val ++ ':' :: password.val) (host.val ++ path.val) :=
  .authority (first_mark scheme) (by simp [user.property.2.2, slashless]) host.property.2
    host.property.1 path.property (by simp)

theorem cut_slash (spelled : password.val = first ++ '@' :: last ++ '/' :: behind)
    (free : '/' ∉ first ++ last) (lastAt : '@' ∉ last) :
    CutAt (withPassword scheme user password host path).chars (scheme.val ++ "://".toList)
      (user.val ++ ':' :: first) (last ++ ('/' :: behind ++ '@' :: host.val ++ path.val)) := by
  rw [List.mem_append, not_or] at free
  have inside : '/' ∉ user.val ++ ':' :: first := by simp [user.property.2.2, free.1]
  have ends : ('/' :: behind ++ '@' :: host.val ++ path.val).head? = some '/' := rfl
  simpa [chars, spelled] using
    CutAt.authority (first_mark scheme) inside free.2 lastAt (.inr ends) (by simp)

theorem held_withPassword : user.val ++ ':' :: password.val <:+:
    (withPassword scheme user password host path).chars :=
  ⟨scheme.val ++ "://".toList, '@' :: host.val ++ path.val, by simp [chars]⟩

theorem hidden_withPassword : ¬user.val ++ ':' :: password.val <:+:
    redactChars (withPassword scheme user password host path).chars ↔
      (withPassword scheme user password host path).WellCut := by
  constructor
  · intro hidden
    by_cases slash : '/' ∈ password.val
    · obtain ⟨front, behind, spelled, free⟩ := List.eq_append_cons_of_mem slash
      by_cases marked : '@' ∈ front
      · obtain ⟨first, last, rfl, lastAt⟩ := eq_append_of_mem_last marked
        have apart : '/' ∉ first ++ last := by simpa using free
        rw [(cut_slash spelled apart lastAt).redactChars_eq] at hidden
        exact .inr ⟨first, last, behind, spelled, apart, lastAt, hidden⟩
      · -- the authority ends in the password, and holds no `@`
        have uncut := uncut_plain scheme
          ⟨user.val ++ ':' :: front, by simp [user.property.2, marked, free]⟩
          ⟨'/' :: behind ++ '@' :: host.val ++ path.val, .inr rfl⟩
        have same : redactChars (withPassword scheme user password host path).chars =
            (withPassword scheme user password host path).chars := by
          simpa [chars, spelled] using uncut
        rw [same] at hidden
        exact absurd held_withPassword hidden
    · rw [(cut_slashless slash).redactChars_eq] at hidden
      exact .inl ⟨slash, hidden⟩
  · rintro (⟨slashless, hidden⟩ | ⟨first, last, behind, spelled, free, lastAt, hidden⟩)
    · rwa [(cut_slashless slashless).redactChars_eq]
    · rwa [(cut_slash spelled free lastAt).redactChars_eq]

end

theorem hidden_scp {user : UrlUser} {password : UrlPassword} {host : ScpHost} {path : List Char} :
    ¬user.val ++ ':' :: password.val <:+: redactChars (scpWithPassword user password host path).chars ↔
      (scpWithPassword user password host path).WellCut := by
  have cut : ∀ front last, '@' :: (host.val ++ ':' :: path) = front ++ '@' :: last → '@' ∉ last →
      ¬"://".toList <:+: (scpWithPassword user password host path).chars →
      redactChars (scpWithPassword user password host path).chars = last := by
    intro front last same lastAt bare
    have whole : (scpWithPassword user password host path).chars =
        user.val ++ ':' :: password.val ++ front ++ '@' :: last := by
      rw [chars, same, List.append_assoc _ front]
    rw [whole] at bare ⊢
    exact (CutAt.address bare lastAt (by simp)).redactChars_eq
  have read := hidden_iff (scpWithPassword user password host path).chars
    ⟨[], '@' :: (host.val ++ ':' :: path), rfl⟩
  constructor
  · intro hidden
    refine ⟨fun bare => ?_, fun _ => read.mp hidden⟩
    obtain ⟨front, last, same, lastAt⟩ := eq_append_of_mem_last
      (show '@' ∈ '@' :: (host.val ++ ':' :: path) from List.mem_cons_self)
    exact ⟨front, last, same, lastAt, cut front last same lastAt bare ▸ hidden⟩
  · rintro ⟨address, marked⟩
    by_cases mark : "://".toList <:+: (scpWithPassword user password host path).chars
    · exact read.mpr (marked mark)
    · obtain ⟨front, last, same, lastAt, hidden⟩ := address mark
      rwa [cut front last same lastAt mark]

/-- A URL is displayed as it should be exactly when it is cut where it should be. -/
theorem displayed_iff (url : RemoteUrl) : url.Displayed ↔ url.WellCut := by
  have again : redactRemoteUrl (redactRemoteUrl url.text) = redactRemoteUrl url.text := by
    rw [redactRemoteUrl, toList_redact, redactChars_idem, redactRemoteUrl, text,
      String.toList_ofList]
  rw [Displayed, and_iff_left again]
  cases url with
  | withPassword scheme user password host path =>
    change ¬_ <:+: (redactRemoteUrl _).toList ↔ _
    rw [toList_redact]
    exact hidden_withPassword
  | scpWithPassword user password host path =>
    change ¬_ <:+: (redactRemoteUrl _).toList ↔ _
    rw [toList_redact]
    exact hidden_scp
  | plain scheme host path => exact iff_of_true (redact_eq_text.mpr (uncut_plain ..)) trivial
  | sshUser user host path => exact iff_of_true (redact_eq_text.mpr (uncut_sshUser ..)) trivial
  | scpPlain host path | onThisMachine path | scpUser user host path =>
    exact redact_eq_text.trans redactChars_eq_self

/-- A password with a slash in it is displayed. -/
theorem not_displayed_slash_in_password :
    ¬(withPassword ⟨"https".toList, by decide⟩ ⟨"user".toList, by decide⟩
      ⟨"to/ken".toList, by decide⟩ ⟨"host".toList, by decide⟩
      ⟨"/repo.git".toList, by decide⟩).Displayed := by
  rintro ⟨hidden, -⟩
  apply hidden
  rw [toList_redact]
  decide +kernel

end RemoteUrl

end Refyard
