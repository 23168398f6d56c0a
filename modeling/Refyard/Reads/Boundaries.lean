import Refyard.Core.ObjectRoundTrip
import Refyard.Reads.Cursors

/-! Where history is cut: the parents that a commit names and the object store does not hold. -/
namespace Refyard
open Interaction

abbrev ObjectStore := String → Option (CatFileObjectType × Bytes)

namespace ObjectStore

variable (store : ObjectStore)

def holds (name : String) : Bool := (store name).isSome

def commit (name : String) : Option CommitObject :=
  match store name with
  | some (.commit, body) => (parseCommitObject body).toOption
  | _ => none

def entry (name : String) : CatFileEntry :=
  match store name with
  | some (objectType, body) => .object name objectType body
  | none => .missing name

/-- The answer of `git cat-file --batch`. -/
def batch (names : List String) : Bytes := (names.map store.entry).flatMap CatFileEntry.render

def presenceLine (name : String) : String := if store.holds name then name else name ++ " missing"

/-- The answer of `git cat-file --batch-check=%(objectname)`. -/
def batchCheck (names : List String) : Bytes :=
  names.flatMap fun name => asciiBytes (store.presenceLine name) ++ [0x0a]

end ObjectStore

def namesAsked (stdin : Bytes) : List String := (splitOnByte stdin 0x0a).map decodeText

/-- What Git may answer while the store is so and the walk comes to these rows. Any command may
fail. -/
structure Serves (store : ObjectStore) (rows : List GitRow) (command : GitCommand)
    (answer : GitAnswer) : Prop where
  walk : command.plan.argv.head? = some "rev-list" → ∀ bytes,
    requiredAnswer answer revListCommand = .ok bytes → bytes = GitRow.render rows
  bodies : command.plan.argv = ["cat-file", "--batch"] → ∀ bytes,
    requiredAnswer answer catFileCommand = .ok bytes →
      bytes = store.batch (namesAsked command.plan.stdin)
  presence : command.plan.argv = ["cat-file", "--batch-check=%(objectname)"] → ∀ bytes,
    requiredAnswer answer catFileCheckCommand = .ok bytes →
      bytes = store.batchCheck (namesAsked command.plan.stdin)

/-- The row of a commit: its missing parents are those that the commit names and the store does
not hold, and it is a boundary if Git says so or there are any. -/
def ExactRow (store : ObjectStore) (row : GitRow) (summary : CommitSummary) : Prop :=
  ∃ commit, store.commit row.oid.text = some commit ∧ summary.oid = row.oid.text ∧
    summary.missingParents = commit.parentOids.filter (fun parent => !store.holds parent) ∧
    (summary.boundary = true ↔ row.boundary = true ∨ summary.missingParents ≠ [])

def ExactBoundaries (store : ObjectStore) (rows : List GitRow) (page : PageRows) : Prop :=
  List.Forall₂ (ExactRow store) rows page.commits

/-- The distinct parents outside the page, in the order in which its commits name them. -/
def outsideParents (store : ObjectStore) (rows : List GitRow) : List String :=
  outsideOf store.commit (rows.map GitRow.entry)

def CoveredParents (store : ObjectStore) (rows : List GitRow) : Prop :=
  ∀ parent ∈ (outsideParents store rows).drop refListMaxEntries, store.holds parent = true

/-! The names that Git is asked for are the names it reads. -/

theorem splitOnByte_lines {lines : List Bytes} (free : ∀ line ∈ lines, (0x0a : UInt8) ∉ line) :
    splitOnByte (lines.flatMap fun line => line ++ [0x0a]) 0x0a = lines := by
  unfold splitOnByte
  rw [Delimited.splitOn_terminated free]
  dsimp only
  rw [List.getLast?_concat, if_pos rfl, List.dropLast_concat]

variable {names : List String} {bytes : Bytes} {format what : String}

theorem namesAsked_namesStdin (single : ∀ name ∈ names, '\n' ∉ name.toList) :
    namesAsked (namesStdin names) = names := by
  have lines : namesStdin names = (names.map textBytes).flatMap fun line => line ++ [0x0a] := by
    rw [namesStdin, List.flatMap_map]
  have free : ∀ line ∈ names.map textBytes, (0x0a : UInt8) ∉ line := by
    intro line member
    obtain ⟨name, inside, rfl⟩ := List.mem_map.mp member
    exact Utf8.charByte_notMem_encode (show '\n'.toNat < 0x80 by decide) (single name inside)
  rw [namesAsked, lines, splitOnByte_lines free, List.map_map]
  have same : decodeText ∘ textBytes = id := by
    funext name
    rw [Function.comp_apply, decodeText, textBytes, Utf8.decode_encode, String.ofList_toList]
    rfl
  rw [same, List.map_id]

theorem isAscii_asciiText (ascii : ∀ byte ∈ bytes, byte ≤ 0x7f) : IsAscii (asciiText bytes) := by
  intro char member
  rw [toList_asciiText] at member
  obtain ⟨byte, inside, rfl⟩ := List.mem_map.mp member
  rw [toNat_byteChar]
  exact Nat.lt_succ_of_le (UInt8.le_iff_toNat_le.mp (ascii byte inside))

theorem isToken_objectName (oid : ObjectName) : IsToken oid.text where
  ascii := isAscii_asciiText (objectName_le oid)
  solid := GitRow.notMem_text oid (by decide)
  oneLine := GitRow.notMem_text oid (by decide)

def NamesObjects (names : List String) : Prop := ∀ name ∈ names, ∃ oid : ObjectName, name = oid.text

theorem parseObjectName_eq_ok {name : String}
    (parsed : parseObjectName bytes format what = .ok name) :
    ∃ oid : ObjectName, name = oid.text := by
  obtain ⟨text, decoded, checked⟩ := bind_eq_ok.mp parsed
  split at checked
  · rename_i hex
    obtain rfl := Except.ok.inj checked
    obtain ⟨ascii, rfl⟩ := decodeAscii_eq_ok.mp decoded
    refine ⟨⟨asciiBytes (asciiText bytes), hex⟩, ?_⟩
    rw [ObjectName.text, asciiText_asciiBytes (isAscii_asciiText ascii)]
  · cases checked

theorem namesObjects_of_mapM {fields : List Bytes}
    (parsed : fields.mapM (fun field => parseObjectName field format what) = .ok names) :
    NamesObjects names := by
  induction fields generalizing names with
  | nil =>
    obtain rfl := Except.ok.inj parsed
    exact List.forall_mem_nil _
  | cons field rest ih =>
    rw [List.mapM_cons] at parsed
    obtain ⟨name, first, parsed⟩ := bind_eq_ok.mp parsed
    obtain ⟨others, later, same⟩ := bind_eq_ok.mp parsed
    obtain rfl := Except.ok.inj same
    exact List.forall_mem_cons.mpr ⟨parseObjectName_eq_ok first, ih later⟩

theorem namesObjects_parents {body : Bytes} {commit : CommitObject}
    (parsed : parseCommitObject body = .ok commit) : NamesObjects commit.parentOids := by
  obtain ⟨⟨headers, message⟩, -, parsed⟩ := bind_eq_ok.mp parsed
  dsimp only at parsed
  split at parsed
  · cases parsed
  · obtain ⟨tree, -, parsed⟩ := bind_eq_ok.mp parsed
    obtain ⟨parents, named, parsed⟩ := bind_eq_ok.mp parsed
    obtain ⟨encoding, -, parsed⟩ := bind_eq_ok.mp parsed
    obtain ⟨author, -, parsed⟩ := bind_eq_ok.mp parsed
    obtain ⟨committer, -, parsed⟩ := bind_eq_ok.mp parsed
    obtain rfl := Except.ok.inj parsed
    exact namesObjects_of_mapM named
  · cases parsed

/-! Presence, as Git prints it and as it is read. -/

section
variable {store : ObjectStore}

theorem stripSuffix_append (suffix text : List Char) :
    stripSuffix suffix (text ++ suffix) = some text := by
  rw [stripSuffix, List.reverse_append, stripPrefix_append, Option.map_some, List.reverse_reverse]

theorem stripSuffix_of_notMem {suffix text : List Char} {char : Char} (inside : char ∈ suffix)
    (absent : char ∉ text) : stripSuffix suffix text = none := by
  rw [stripSuffix, Option.map_eq_none_iff, stripPrefix_eq_none]
  intro ends
  exact absent (List.mem_reverse.mp (ends.subset (List.mem_reverse.mpr inside)))

theorem isToken_presenceLine (oid : ObjectName) :
    IsAscii (store.presenceLine oid.text) ∧ '\n' ∉ (store.presenceLine oid.text).toList ∧
      store.presenceLine oid.text ≠ "" := by
  have token := isToken_objectName oid
  have full : oid.text.toList ≠ [] := GitRow.text_ne oid
  unfold ObjectStore.presenceLine
  split
  · exact ⟨token.ascii, token.oneLine, fun empty => full (by rw [empty]; rfl)⟩
  · refine ⟨token.ascii.append (by decide), ?_, ?_⟩
    · rw [String.toList_append, List.mem_append, not_or]
      exact ⟨token.oneLine, by decide⟩
    · intro empty
      have chars := congrArg String.toList empty
      rw [String.toList_append, String.toList_empty, List.append_eq_nil_iff] at chars
      exact full chars.1

theorem readPresence_line (found : ObjectPresence) (oid : ObjectName) (fallback : String) :
    readPresence found (asciiBytes (store.presenceLine oid.text)) fallback =
      .ok (if store.holds oid.text then { found with present := found.present ++ [oid.text] }
        else { found with missing := found.missing ++ [oid.text] }) := by
  have token := isToken_objectName oid
  refine bind_eq_ok.mpr ⟨_, decodeAscii_asciiBytes (isToken_presenceLine oid).1 _, ?_⟩
  by_cases held : store.holds oid.text = true
  · have whole : oid.text.toList.takeWhile (fun char => decide (char ≠ ' ')) = oid.text.toList := by
      rw [List.takeWhile_eq_self_iff]
      intro char member
      rw [decide_eq_true_iff]
      rintro rfl
      exact token.solid member
    have full : oid.text.toList.isEmpty = false := by simpa using GitRow.text_ne oid
    rw [ObjectStore.presenceLine, if_pos held, if_pos held,
      stripSuffix_of_notMem (show ' ' ∈ " missing".toList by decide) token.solid]
    dsimp only
    rw [whole, full, String.ofList_toList]
    rfl
  · rw [ObjectStore.presenceLine, if_neg held, if_neg held, String.toList_append,
      stripSuffix_append]
    dsimp only
    rw [String.ofList_toList]
    rfl

variable {names absent : List String} {name : String} {bodies : String → Option CommitObject}
  {page : PageRows}

theorem parseObjectPresence_batchCheck (objects : NamesObjects names) (requested : List String) :
    parseObjectPresence (store.batchCheck names) requested =
      .ok { present := names.filter store.holds
            missing := names.filter fun name => !store.holds name } := by
  have lines : store.batchCheck names =
      (names.map fun name => asciiBytes (store.presenceLine name)).flatMap
        fun line => line ++ [0x0a] := by
    rw [ObjectStore.batchCheck, List.flatMap_map]
  have free : ∀ line ∈ names.map fun name => asciiBytes (store.presenceLine name),
      (0x0a : UInt8) ∉ line := by
    intro line member
    obtain ⟨name, inside, rfl⟩ := List.mem_map.mp member
    obtain ⟨oid, rfl⟩ := objects name inside
    obtain ⟨ascii, oneLine, -⟩ := @isToken_presenceLine store oid
    exact fun newline => oneLine ((charByte_mem ascii (by decide)).mp newline)
  have full : ((names.map fun name => asciiBytes (store.presenceLine name)).filter
      fun line => !line.isEmpty) = names.map fun name => asciiBytes (store.presenceLine name) := by
    rw [List.filter_eq_self]
    intro line member
    obtain ⟨name, inside, rfl⟩ := List.mem_map.mp member
    obtain ⟨oid, rfl⟩ := objects name inside
    obtain ⟨-, -, some_char⟩ := @isToken_presenceLine store oid
    simpa [asciiBytes] using some_char
  have loop (start : Nat) (found : ObjectPresence) :
      ((names.map fun name => asciiBytes (store.presenceLine name)).zipIdx start).foldlM
          (fun found entry => readPresence found entry.1 (requested.getD entry.2 "")) found =
        .ok { present := found.present ++ names.filter store.holds
              missing := found.missing ++ names.filter fun name => !store.holds name } := by
    clear lines free full
    induction names generalizing start found with
    | nil =>
      rw [List.filter_nil, List.filter_nil, List.append_nil, List.append_nil]
      rfl
    | cons name rest ih =>
      unfold NamesObjects at objects
      rw [List.forall_mem_cons] at objects
      obtain ⟨oid, rfl⟩ := objects.1
      rw [List.map_cons, List.zipIdx_cons, List.foldlM_cons]
      dsimp only
      rw [readPresence_line]
      refine (ih objects.2 (start + 1) _).trans (congrArg Except.ok ?_)
      cases held : store.holds oid.text <;> simp [held]
  unfold parseObjectPresence
  rw [lines, splitOnByte_lines free, full]
  exact loop 0 _

/-! What one page asks for, and what it is answered. -/

variable {rows : List GitRow} {target : ReadTarget}

theorem oneLine_of_namesObjects (objects : NamesObjects names) :
    ∀ name ∈ names, '\n' ∉ name.toList := by
  intro name member
  obtain ⟨oid, rfl⟩ := objects name member
  exact (isToken_objectName oid).oneLine

theorem absent_of_yields (objects : NamesObjects names)
    (read : (findMissingObjects target names).Yields (Serves store rows) absent) :
    absent = (names.take refListMaxEntries).filter fun name => !store.holds name := by
  unfold findMissingObjects at read
  split at read
  · rename_i empty
    obtain rfl := read
    rw [List.isEmpty_iff.mp empty]
    rfl
  · have bounded : NamesObjects (names.take refListMaxEntries) :=
      fun name member => objects name (List.mem_of_mem_take member)
    simp only [yields_bind, yields_runRequired, yields_orLeave, mapError_eq_ok] at read
    obtain ⟨plan, planned, bytes, ⟨answer, serves, printed⟩, presence, parsed, read⟩ := read
    unfold planCatFileExists at planned
    split at planned
    · cases planned
    · obtain rfl := Except.ok.inj planned
      obtain rfl := serves.presence rfl bytes printed
      have asked := namesAsked_namesStdin (oneLine_of_namesObjects bounded)
      simp only [ReadTarget.command, asked] at parsed
      rw [parseObjectPresence_batchCheck bounded, Except.ok.injEq] at parsed
      subst parsed
      refine (show _ = absent from read).symm.trans (List.filter_congr fun name member => ?_)
      simp [member]

theorem bodies_of_collected {before after : CommitBodies}
    (collected : (names.map store.entry).foldlM collectBody before = .ok after) (name : String) :
    after.bodies name =
      if name ∈ names ∧ store.holds name = true then store.commit name else before.bodies name := by
  induction names generalizing before with
  | nil =>
    obtain rfl := Except.ok.inj collected
    rw [if_neg fun member => List.not_mem_nil member.1]
  | cons first rest ih =>
    rw [List.map_cons, List.foldlM_cons] at collected
    obtain ⟨between, step, collected⟩ := bind_eq_ok.mp collected
    rw [ih collected]
    cases found : store first with
    | none =>
      rw [ObjectStore.entry, found] at step
      obtain rfl := Except.ok.inj step
      have absent : store.holds first = false := by rw [ObjectStore.holds, found]; rfl
      by_cases same : name = first
      · subst same
        rw [absent, if_neg fun held => Bool.false_ne_true held.2,
          if_neg fun held => Bool.false_ne_true held.2]
      · simp only [List.mem_cons, same, false_or]
    | some held =>
      obtain ⟨objectType, body⟩ := held
      rw [ObjectStore.entry, found] at step
      obtain ⟨commit, read, rfl⟩ := map_eq_ok.mp step
      unfold commitOf at read
      split at read
      · cases read
      · rename_i kind
        rw [not_not] at kind
        subst kind
        have known : store.commit first = some commit := by
          rw [ObjectStore.commit, found]
          exact toOption_eq_some.mpr (mapError_eq_ok.mp read)
        have present : store.holds first = true := by rw [ObjectStore.holds, found]; rfl
        by_cases same : name = first
        · subst same
          have asked : name ∈ name :: rest ∧ store.holds name = true := by simp [present]
          rw [if_pos asked, known]
          simp only [Function.update_self, ite_self]
        · simp only [List.mem_cons, same, false_or, Function.update_of_ne same]

theorem bodies_eq_commit {found : CommitBodies}
    (collected : (names.map store.entry).foldlM collectBody {} = .ok found) (asked : name ∈ names) :
    found.bodies name = store.commit name := by
  rw [bodies_of_collected collected]
  split
  · rfl
  · rename_i absent
    rw [and_iff_right asked, Bool.not_eq_true, ObjectStore.holds, Option.isSome_eq_false_iff,
      Option.isNone_iff_eq_none] at absent
    rw [ObjectStore.commit, absent]

section
variable (inPage : String → Bool) (parents outside : List String)

theorem mem_gather {parent : String} : parent ∈ parents.foldl (fun outside parent =>
        if inPage parent || outside.contains parent then outside else outside ++ [parent]) outside ↔
      parent ∈ outside ∨ parent ∈ parents ∧ inPage parent = false := by
  induction parents generalizing outside with
  | nil => simp
  | cons first rest ih =>
    rw [List.foldl_cons, ih, List.mem_cons]
    split
    · rename_i known
      rw [Bool.or_eq_true, List.contains_iff_mem] at known
      grind
    · rename_i unknown
      rw [Bool.or_eq_true, List.contains_iff_mem, not_or, Bool.not_eq_true] at unknown
      rw [List.mem_append, List.mem_singleton]
      grind

theorem nodup_gather (once : outside.Nodup) : (parents.foldl (fun outside parent =>
      if inPage parent || outside.contains parent then outside
      else outside ++ [parent]) outside).Nodup := by
  induction parents generalizing outside with
  | nil => exact once
  | cons first rest ih =>
    rw [List.foldl_cons]
    split
    · exact ih outside once
    · rename_i unknown
      rw [Bool.or_eq_true, List.contains_iff_mem, not_or] at unknown
      refine ih _ (List.nodup_append.mpr ⟨once, List.nodup_singleton _, ?_⟩)
      rintro parent member other single rfl
      exact unknown.2 (List.mem_singleton.mp single ▸ member)

end

variable {entries : List TopologyEntry} {parent : String} {decoration : String → List String}
  {row : TopologyEntry} {summary : CommitSummary}

theorem mem_outsideOf : parent ∈ outsideOf bodies entries ↔
      (∃ row ∈ entries, parent ∈ parentsOf bodies row) ∧ ∀ row ∈ entries, row.oid ≠ parent := by
  unfold outsideOf
  rw [mem_gather (fun parent => entries.any fun row => row.oid = parent)]
  simp

theorem nodup_outsideOf (bodies : String → Option CommitObject) (entries : List TopologyEntry) :
    (outsideOf bodies entries).Nodup :=
  nodup_gather (fun parent => entries.any fun row => row.oid = parent) _ _ List.nodup_nil

/-- A page as the store makes it: what is missing of the parents that were asked for. -/
def AskedRow (store : ObjectStore) (absent : List String) (row : GitRow)
    (summary : CommitSummary) : Prop :=
  ∃ commit, store.commit row.oid.text = some commit ∧ summary.oid = row.oid.text ∧
    summary.missingParents = commit.parentOids.filter (fun parent => parent ∈ absent) ∧
    summary.boundary = (row.boundary || !summary.missingParents.isEmpty)

theorem summaryOf_eq_ok (summed : summaryOf bodies absent decoration row = .ok summary) :
    ∃ commit, bodies row.oid = some commit ∧ summary.oid = row.oid ∧
      summary.missingParents = commit.parentOids.filter (fun parent => parent ∈ absent) ∧
      summary.boundary = (row.boundary || !summary.missingParents.isEmpty) := by
  unfold summaryOf at summed
  split at summed
  · cases summed
  · rename_i commit found
    obtain rfl := Except.ok.inj summed
    refine ⟨commit, found, rfl, ?_, rfl⟩
    rw [parentsOf, found]

theorem parentsOf_congr {commit : CommitObject} (found : bodies row.oid = some commit) :
    parentsOf bodies row = commit.parentOids := by
  rw [parentsOf, found]

theorem outsideOf_congr {others : String → Option CommitObject}
    (same : ∀ row ∈ entries, bodies row.oid = others row.oid) :
    outsideOf bodies entries = outsideOf others entries := by
  have parents : entries.flatMap (parentsOf bodies) = entries.flatMap (parentsOf others) := by
    refine List.flatMap_congr fun row member => ?_
    rw [parentsOf, parentsOf, same row member]
  rw [outsideOf, parents, outsideOf]

theorem entries_of_yields {entries : List CatFileEntry} (objects : NamesObjects names)
    (read : (runCatFile target names).Yields (Serves store rows) entries) :
    entries = names.map store.entry := by
  unfold runCatFile at read
  simp only [yields_bind, yields_runRequired, yields_orLeave, mapError_eq_ok] at read
  obtain ⟨plan, planned, bytes, ⟨answer, serves, printed⟩, decoded⟩ := read
  unfold planCatFileBatch at planned
  split at planned
  · cases planned
  · obtain rfl := Except.ok.inj planned
    obtain rfl := serves.bodies rfl bytes printed
    have asked := namesAsked_namesStdin (oneLine_of_namesObjects objects)
    simp only [ReadTarget.command, asked] at decoded
    have named : ∀ entry ∈ names.map store.entry, entry.Named := by
      intro entry member
      obtain ⟨name, inside, rfl⟩ := List.mem_map.mp member
      obtain ⟨oid, rfl⟩ := objects name inside
      unfold ObjectStore.entry
      split
      · exact isToken_objectName oid
      · exact isToken_objectName oid
    exact ((decodeChunks_eq_ok named).mp decoded).2

theorem commit_eq_some {commit : CommitObject} : store.commit name = some commit ↔
      ∃ body, store name = some (.commit, body) ∧ parseCommitObject body = .ok commit := by
  unfold ObjectStore.commit
  split
  · rename_i body found
    rw [toOption_eq_some]
    simp [found]
  · rename_i other
    exact iff_of_false nofun fun ⟨body, found, _⟩ => other body found

theorem namesObjects_outsideParents (rows : List GitRow) :
    NamesObjects (outsideParents store rows) := by
  intro parent member
  obtain ⟨⟨entry, inside, named⟩, -⟩ := mem_outsideOf.mp member
  obtain ⟨row, -, rfl⟩ := List.mem_map.mp inside
  unfold parentsOf at named
  split at named
  · rename_i commit found
    obtain ⟨body, -, parsed⟩ := commit_eq_some.mp found
    exact namesObjects_parents parsed parent named
  · obtain ⟨oid, -, rfl⟩ := List.mem_map.mp named
    exact ⟨oid, rfl⟩

theorem namesObjects_rows (rows : List GitRow) :
    NamesObjects (rows.map fun row => row.oid.text) :=
  List.forall_mem_map.mpr fun row _ => ⟨row.oid, rfl⟩

theorem oids_entries (rows : List GitRow) :
    (rows.map GitRow.entry).map TopologyEntry.oid = rows.map fun row => row.oid.text := by
  rw [List.map_map]
  rfl

theorem bodies_of_rows {rows : List GitRow} {found : CommitBodies}
    (collected : ((rows.map fun row => row.oid.text).map store.entry).foldlM collectBody {} =
      .ok found) : ∀ row ∈ rows.map GitRow.entry, found.bodies row.oid = store.commit row.oid := by
  intro entry member
  obtain ⟨row, inside, rfl⟩ := List.mem_map.mp member
  exact bodies_eq_commit collected (List.mem_map.mpr ⟨row, inside, rfl⟩)

theorem page_of_yields {tips : List String} {maxCount skip : Nat} {firstParentOnly : Bool}
    (read : (readPage target tips maxCount skip firstParentOnly decoration).Yields
      (Serves store rows) page) :
    List.Forall₂ (AskedRow store (((outsideParents store rows).take refListMaxEntries).filter
      fun name => !store.holds name)) rows page.commits := by
  unfold readPage at read
  simp only [yields_bind, yields_runRequired, yields_orLeave, mapError_eq_ok] at read
  obtain ⟨plan, planned, bytes, ⟨answer, serves, printed⟩, entries, parsed, read⟩ := read
  obtain rfl := serves.walk (revList_of_planned planned) bytes printed
  rw [GitRow.parseRevListTopology_render, Except.ok.injEq] at parsed
  subst parsed
  split at read
  · rename_i empty
    obtain rfl := read
    obtain rfl := List.map_eq_nil_iff.mp (List.isEmpty_iff.mp empty)
    exact .nil
  · simp only [yields_bind, yields_orLeave] at read
    obtain ⟨entries, answered, found, collected, absent, asked, commits, summed, rfl⟩ := read
    rw [oids_entries] at answered
    obtain rfl := entries_of_yields (namesObjects_rows rows) answered
    have bodies := bodies_of_rows collected
    have outside : outsideOf found.bodies (rows.map GitRow.entry) = outsideParents store rows :=
      outsideOf_congr bodies
    rw [outside] at asked
    obtain rfl := absent_of_yields (namesObjects_outsideParents rows) asked
    have each := forall₂_of_mapM summed
    rw [List.forall₂_map_left_iff] at each
    rw [List.forall_mem_map] at bodies
    refine List.Forall₂.imp ?_ ((List.forall₂_and_left rows commits).mpr ⟨bodies, each⟩)
    rintro row summary ⟨known, shown⟩
    obtain ⟨commit, read, named, missing, cut⟩ := summaryOf_eq_ok shown
    exact ⟨commit, known.symm.trans read, named, missing, cut⟩

theorem holds_of_commit {commit : CommitObject} (found : store.commit name = some commit) :
    store.holds name = true := by
  obtain ⟨body, held, -⟩ := commit_eq_some.mp found
  rw [ObjectStore.holds, held]
  rfl

theorem AskedRow.exact_iff {row : GitRow} (asked : AskedRow store absent row summary) :
    ExactRow store row summary ↔
      ∀ commit, store.commit row.oid.text = some commit → ∀ parent ∈ commit.parentOids,
        parent ∈ absent ↔ store.holds parent = false := by
  obtain ⟨commit, found, named, missing, cut⟩ := asked
  constructor
  · rintro ⟨other, also, -, exactly, -⟩ same once parent member
    obtain rfl := Option.some.inj (found.symm.trans also)
    obtain rfl := Option.some.inj (found.symm.trans once)
    have filtered : parent ∈ summary.missingParents ↔ parent ∈ summary.missingParents := Iff.rfl
    nth_rewrite 1 [missing] at filtered
    rw [exactly, List.mem_filter, List.mem_filter, and_iff_right member, and_iff_right member,
      decide_eq_true_iff, Bool.not_eq_true'] at filtered
    exact filtered
  · intro same
    refine ⟨commit, found, named, missing.trans (List.filter_congr fun parent member => ?_), ?_⟩
    · have asked := same commit found parent member
      cases held : store.holds parent <;> simp [asked, held]
    · rw [cut, Bool.or_eq_true, Bool.not_eq_true', List.isEmpty_eq_false_iff]

theorem exactBoundaries_iff (asked : List.Forall₂ (AskedRow store absent) rows page.commits) :
    ExactBoundaries store rows page ↔
      ∀ row ∈ rows, ∀ commit, store.commit row.oid.text = some commit →
        ∀ parent ∈ commit.parentOids, parent ∈ absent ↔ store.holds parent = false := by
  unfold ExactBoundaries
  generalize page.commits = commits at asked ⊢
  induction asked with
  | nil => exact iff_of_true .nil (List.forall_mem_nil _)
  | cons first later ih => rw [List.forall₂_cons, first.exact_iff, ih, List.forall_mem_cons]

theorem mem_outsideParents (present : ∀ row ∈ rows, store.holds row.oid.text = true) {row : GitRow}
    (member : row ∈ rows) {commit : CommitObject} (found : store.commit row.oid.text = some commit)
    (named : parent ∈ commit.parentOids) (missing : store.holds parent = false) :
    parent ∈ outsideParents store rows := by
  refine mem_outsideOf.mpr ⟨⟨row.entry, List.mem_map_of_mem member, ?_⟩, ?_⟩
  · rwa [parentsOf_congr found]
  · rintro entry inside rfl
    obtain ⟨other, listed, rfl⟩ := List.mem_map.mp inside
    exact Bool.false_ne_true (missing.symm.trans (present other listed))

theorem coveredParents_iff
    (present : ∀ row ∈ rows, ∃ commit, store.commit row.oid.text = some commit) :
    CoveredParents store rows ↔ ∀ row ∈ rows, ∀ commit, store.commit row.oid.text = some commit →
        ∀ parent ∈ commit.parentOids,
          parent ∈ ((outsideParents store rows).take refListMaxEntries).filter
              (fun name => !store.holds name) ↔ store.holds parent = false := by
  have held : ∀ row ∈ rows, store.holds row.oid.text = true := by
    intro row member
    obtain ⟨commit, found⟩ := present row member
    exact holds_of_commit found
  constructor
  · intro covered row member commit found parent named
    rw [List.mem_filter, Bool.not_eq_true']
    refine ⟨And.right, fun missing => ⟨?_, missing⟩⟩
    have outside := mem_outsideParents held member found named missing
    rw [← List.take_append_drop refListMaxEntries (outsideParents store rows),
      List.mem_append] at outside
    refine outside.resolve_right fun behind => ?_
    exact Bool.false_ne_true (missing.symm.trans (covered parent behind))
  · intro asked parent behind
    by_contra missing
    rw [Bool.not_eq_true] at missing
    obtain ⟨⟨entry, inside, named⟩, -⟩ := mem_outsideOf.mp (List.mem_of_mem_drop behind)
    obtain ⟨row, member, rfl⟩ := List.mem_map.mp inside
    obtain ⟨commit, found⟩ := present row member
    rw [parentsOf_congr found] at named
    have front := (List.mem_filter.mp ((asked row member commit found parent named).mpr missing)).1
    exact List.disjoint_take_drop (nodup_outsideOf _ _) (Nat.le_refl _) front behind

theorem commits_of_asked {commits : List CommitSummary}
    (asked : List.Forall₂ (AskedRow store absent) rows commits) :
    ∀ row ∈ rows, ∃ commit, store.commit row.oid.text = some commit := by
  induction asked with
  | nil => exact List.forall_mem_nil _
  | cons first later ih =>
    obtain ⟨commit, found, -⟩ := first
    exact List.forall_mem_cons.mpr ⟨⟨commit, found⟩, ih⟩

theorem exact_iff_covered (asked : List.Forall₂ (AskedRow store (((outsideParents store rows).take
      refListMaxEntries).filter fun name => !store.holds name)) rows page.commits) :
    ExactBoundaries store rows page ↔ CoveredParents store rows := by
  rw [exactBoundaries_iff asked, coveredParents_iff (commits_of_asked asked)]

/-- The boundaries of a page are exact exactly when no parent that is missing stands behind the
bound on what is asked for. -/
theorem exact_boundaries_iff {tips : List String} {maxCount skip : Nat} {firstParentOnly : Bool}
    {decoration : String → List String} {page : PageRows}
    (read : (readPage target tips maxCount skip firstParentOnly decoration).Yields
      (Serves store rows) page) : ExactBoundaries store rows page ↔ CoveredParents store rows :=
  exact_iff_covered (page_of_yields read)

end

/-! A page is read whenever the store holds a commit of a size that is read for each of its rows. -/

section
variable (store : ObjectStore) (rows : List GitRow)

def served (command : GitCommand) : GitAnswer :=
  finishedWith 0 (if command.plan.argv.head? = some "rev-list" then GitRow.render rows
    else if command.plan.argv = ["cat-file", "--batch"] then
      store.batch (namesAsked command.plan.stdin)
    else store.batchCheck (namesAsked command.plan.stdin))

theorem serves_served (command : GitCommand) :
    Serves store rows command (served store rows command) where
  walk := fun walks bytes printed => by
    rw [served, if_pos walks] at printed
    exact (Except.ok.inj printed).symm
  bodies := fun asks bytes printed => by
    rw [served, asks, if_neg (by decide), if_pos rfl] at printed
    exact (Except.ok.inj printed).symm
  presence := fun asks bytes printed => by
    rw [served, asks, if_neg (by decide), if_neg (by decide)] at printed
    exact (Except.ok.inj printed).symm

end

section
variable {store : ObjectStore} {rows : List GitRow} {target : ReadTarget} {plan : GitPlan}
  {command : String}

theorem served_walk (walks : plan.argv.head? = some "rev-list") :
    requiredAnswer (served store rows (target.command plan)) command = .ok (GitRow.render rows) := by
  rw [served, requiredAnswer_finished]
  exact congrArg Except.ok (if_pos walks)

theorem served_bodies (asks : plan.argv = ["cat-file", "--batch"]) :
    requiredAnswer (served store rows (target.command plan)) command =
      .ok (store.batch (namesAsked plan.stdin)) := by
  rw [served, requiredAnswer_finished]
  simp only [ReadTarget.command, asks]
  rfl

theorem served_presence (asks : plan.argv = ["cat-file", "--batch-check=%(objectname)"]) :
    requiredAnswer (served store rows (target.command plan)) command =
      .ok (store.batchCheck (namesAsked plan.stdin)) := by
  rw [served, requiredAnswer_finished]
  simp only [ReadTarget.command, asks]
  rfl

variable {names : List String}

theorem yields_findMissingObjects (objects : NamesObjects names) :
    (findMissingObjects target names).Yields (Serves store rows)
      ((names.take refListMaxEntries).filter fun name => !store.holds name) := by
  cases names with
  | nil => exact rfl
  | cons first rest =>
    have bounded : NamesObjects ((first :: rest).take refListMaxEntries) :=
      fun name member => objects name (List.mem_of_mem_take member)
    have parsed : parseObjectPresence (store.batchCheck (namesAsked
          (namesStdin ((first :: rest).take refListMaxEntries))))
        ((first :: rest).take refListMaxEntries) =
          .ok { present := ((first :: rest).take refListMaxEntries).filter store.holds
                missing := ((first :: rest).take refListMaxEntries).filter
                  fun name => !store.holds name } := by
      rw [namesAsked_namesStdin (oneLine_of_namesObjects bounded)]
      exact parseObjectPresence_batchCheck bounded _
    unfold findMissingObjects
    rw [List.isEmpty_cons, if_neg Bool.false_ne_true]
    simp only [yields_bind, yields_runRequired, yields_orLeave, mapError_eq_ok]
    refine ⟨_, rfl, _, ⟨_, serves_served store rows _, served_presence rfl⟩, _, parsed, ?_⟩
    refine List.filter_congr fun name member => ?_
    simp [member]

theorem yields_runCatFile_served (objects : NamesObjects names) (asked : names ≠ [])
    (framed : ∀ name ∈ names, (store.entry name).Framed) :
    (runCatFile target names).Yields (Serves store rows) (names.map store.entry) := by
  cases names with
  | nil => contradiction
  | cons first rest =>
    have names := namesAsked_namesStdin (oneLine_of_namesObjects objects)
    have stream : [store.batch (namesAsked (namesStdin (first :: rest)))].flatten =
        ((first :: rest).map store.entry).flatMap CatFileEntry.render := by
      rw [names, List.flatten_singleton, ObjectStore.batch]
    unfold runCatFile
    simp only [yields_bind, yields_runRequired, yields_orLeave, mapError_eq_ok]
    exact ⟨_, rfl, _, ⟨_, serves_served store rows _, served_bodies rfl⟩,
      decodeChunks_entries (List.forall_mem_map.mpr framed) stream⟩

theorem collected_of_commits (before : CommitBodies)
    (commits : ∀ name ∈ names, ∃ commit, store.commit name = some commit) :
    ∃ found, (names.map store.entry).foldlM collectBody before = .ok found := by
  induction names generalizing before with
  | nil => exact ⟨before, rfl⟩
  | cons first rest ih =>
    rw [List.forall_mem_cons] at commits
    obtain ⟨⟨commit, known⟩, others⟩ := commits
    obtain ⟨body, held, parsed⟩ := commit_eq_some.mp known
    have step : collectBody before (store.entry first) =
        .ok { before with bodies := Function.update before.bodies first (some commit) } := by
      rw [ObjectStore.entry, held]
      refine map_eq_ok.mpr ⟨commit, ?_, rfl⟩
      rw [commitOf, if_neg (not_not.mpr rfl), mapError_eq_ok, parsed]
    obtain ⟨found, collected⟩ := ih _ others
    exact ⟨found, by rw [List.map_cons, List.foldlM_cons, step]; exact collected⟩

theorem mapM_of_each {ε α β : Type} {read : α → Except ε β} {values : List α}
    (each : ∀ value ∈ values, ∃ result, read value = .ok result) :
    ∃ results, values.mapM read = .ok results := by
  induction values with
  | nil => exact ⟨[], rfl⟩
  | cons value rest ih =>
    rw [List.forall_mem_cons] at each
    obtain ⟨⟨result, first⟩, others⟩ := each
    obtain ⟨results, later⟩ := ih others
    exact ⟨result :: results, by rw [List.mapM_cons, first, later]; rfl⟩

variable {decoration : String → List String}

theorem summaryOf_of_body {bodies : String → Option CommitObject} {absent : List String}
    {row : TopologyEntry} {commit : CommitObject} (found : bodies row.oid = some commit) :
    ∃ summary, summaryOf bodies absent decoration row = .ok summary := by
  unfold summaryOf
  rw [found]
  exact ⟨_, rfl⟩

theorem yields_readPage_served {tip : String} {tips : List String} {maxCount skip : Nat}
    {firstParentOnly : Bool}
    (commits : ∀ row ∈ rows, ∃ commit, store.commit row.oid.text = some commit)
    (framed : ∀ row ∈ rows, (store.entry row.oid.text).Framed) :
    ∃ page, (readPage target (tip :: tips) maxCount skip firstParentOnly decoration).Yields
      (Serves store rows) page := by
  obtain ⟨found, collected⟩ := collected_of_commits {} (List.forall_mem_map.mpr commits)
  have bodies := bodies_of_rows collected
  have outside : outsideOf found.bodies (rows.map GitRow.entry) = outsideParents store rows :=
    outsideOf_congr bodies
  obtain ⟨summaries, summed⟩ : ∃ summaries, (rows.map GitRow.entry).mapM
      (summaryOf found.bodies (((outsideParents store rows).take refListMaxEntries).filter
        fun name => !store.holds name) decoration) = .ok summaries := by
    refine mapM_of_each fun entry member => ?_
    obtain ⟨row, inside, rfl⟩ := List.mem_map.mp member
    obtain ⟨commit, known⟩ := commits row inside
    exact summaryOf_of_body ((bodies row.entry member).trans known)
  have planned : planRevList { tips := tip :: tips, maxCount, skip, firstParentOnly } =
      .ok { GitPlan.read (RevListOptions.argv
              { tips := tip :: tips, maxCount, skip, firstParentOnly }) with
            stdin := namesStdin (tip :: tips) } := rfl
  have walks := revList_of_planned planned
  unfold readPage
  simp only [yields_bind, yields_runRequired, yields_orLeave, mapError_eq_ok]
  by_cases empty : rows = []
  · refine ⟨{ commits := [], missing := [], rowCount := 0 }, _, planned, _,
      ⟨_, serves_served store rows _, served_walk walks⟩, _,
      GitRow.parseRevListTopology_render rows, ?_⟩
    rw [empty]
    rfl
  · refine ⟨{ commits := summaries, missing := found.missing, rowCount := (rows.map GitRow.entry).length }, _,
      planned, _, ⟨_, serves_served store rows _, served_walk walks⟩, _,
      GitRow.parseRevListTopology_render rows, ?_⟩
    rw [if_neg (by simpa using empty)]
    simp only [yields_bind, yields_orLeave, oids_entries]
    have asked : (findMissingObjects target (outsideOf found.bodies
        (rows.map GitRow.entry))).Yields (Serves store rows)
          (((outsideParents store rows).take refListMaxEntries).filter
            fun name => !store.holds name) := by
      rw [outside]
      exact yields_findMissingObjects (namesObjects_outsideParents rows)
    exact ⟨_, yields_runCatFile_served (namesObjects_rows rows) (by simpa using empty)
      (List.forall_mem_map.mpr framed), found, collected, _, asked, summaries, summed, rfl⟩

end

/-! A commit of many parents, none of which is there. -/

def binaryName (value : Nat) : Bytes :=
  (List.range 40).map fun place => if value.testBit place then 0x31 else 0x30

theorem isObjectName_binaryName (value : Nat) : isObjectName (binaryName value) = true := by
  have digits : ∀ byte ∈ binaryName value,
      ((0x30 ≤ byte && byte ≤ 0x39) || (0x61 ≤ byte && byte ≤ 0x66)) = true := by
    intro byte member
    obtain ⟨place, -, rfl⟩ := List.mem_map.mp member
    split <;> decide
  rw [isObjectName, Bool.and_eq_true, List.all_eq_true]
  exact ⟨by simp [binaryName], digits⟩

def binaryOid (value : Nat) : ObjectName := ⟨binaryName value, isObjectName_binaryName value⟩

theorem binaryOid_inj {first second : Nat} (small : first < 2 ^ 40) (alsoSmall : second < 2 ^ 40)
    (same : binaryOid first = binaryOid second) : first = second := by
  have bytes : binaryName first = binaryName second := congrArg Subtype.val same
  have names := List.map_inj_left.mp bytes
  refine Nat.eq_of_testBit_eq fun place => ?_
  by_cases inside : place < 40
  · have digit := names place (List.mem_range.mpr inside)
    cases one : first.testBit place <;> cases other : second.testBit place <;>
      simp [one, other] at digit ⊢
  · have wide : 2 ^ 40 ≤ 2 ^ place := Nat.pow_le_pow_right (by decide) (Nat.not_lt.mp inside)
    rw [Nat.testBit_lt_two_pow (Nat.lt_of_lt_of_le small wide),
      Nat.testBit_lt_two_pow (Nat.lt_of_lt_of_le alsoSmall wide)]

def someone : Signature where
  name := asciiBytes "A"
  email := asciiBytes "a"
  seconds := 0
  offset := "+0000"
  nameOneLine := by decide
  emailOneLine := by decide
  emailPlain := by decide
  zone := by decide

def fanOid : ObjectName := ⟨List.replicate 40 0x61, isObjectName_sample⟩

def fanParents (count : Nat) : List ObjectName := (List.range count).map binaryOid

def fanCommit (count : Nat) : GitCommit where
  tree := fanOid
  parents := fanParents count
  author := someone
  committer := someone
  extras := []
  message := []
  additional := by simp

def fanRow (count : Nat) : GitRow where
  oid := fanOid
  parents := fanParents count
  boundary := false

def fanStore (count : Nat) : ObjectStore := fun name =>
  if name = fanOid.text then some (.commit, (fanCommit count).render) else none

theorem commit_fanStore (count : Nat) :
    (fanStore count).commit fanOid.text = some (fanCommit count).object := by
  have decodable : (fanCommit count).Decodable :=
    { encoding := fun _ none => by cases none
      author := (by decide : someone.seconds < 2 ^ 63)
      committer := (by decide : someone.seconds < 2 ^ 63) }
  exact commit_eq_some.mpr
    ⟨_, if_pos rfl, (GitCommit.parse_render_iff (fanCommit count)).mpr decodable⟩

theorem length_render_fanCommit (count : Nat) :
    (fanCommit count).render.length = 48 * count + 92 := by
  have parents : (((fanParents count).map fun parent =>
      headerLine (asciiBytes "parent") parent.1).flatMap fun line => line ++ [0x0a]).length =
        48 * count := by
    induction count with
    | zero => rfl
    | succ count ih =>
      rw [fanParents, List.range_succ, List.map_append, List.map_append, List.flatMap_append,
        List.length_append, ← fanParents, ih]
      simp [headerLine, binaryOid, binaryName, asciiBytes]
      omega
  have lines : fieldLines (fanCommit count).fixed = [headerLine (asciiBytes "tree") fanOid.1] ++
        ((fanParents count).map fun parent => headerLine (asciiBytes "parent") parent.1) ++
        [headerLine (asciiBytes "author") someone.render,
          headerLine (asciiBytes "committer") someone.render] := by
    simp [fieldLines, GitCommit.fixed, GitCommit.opening, fanCommit]
  rw [GitCommit.render, renderObject, lines]
  simp only [List.flatMap_append, List.length_append, parents]
  have ends : ([headerLine (asciiBytes "tree") fanOid.1].flatMap fun line => line ++ [0x0a]).length +
      ([headerLine (asciiBytes "author") someone.render,
        headerLine (asciiBytes "committer") someone.render].flatMap
          fun line => line ++ [0x0a]).length = 91 := by decide +kernel
  change _ + _ + _ + 0 + 1 = _
  omega

variable {count : Nat}

theorem framed_fanStore (small : count ≤ 10000) : ((fanStore count).entry fanOid.text).Framed := by
  have held : fanStore count fanOid.text = some (.commit, (fanCommit count).render) := if_pos rfl
  rw [ObjectStore.entry, held]
  refine ⟨isToken_objectName fanOid, ?_⟩
  rw [length_render_fanCommit, objectMaxBytes]
  omega

theorem coveredParents_of_few {store : ObjectStore} {rows : List GitRow}
    (few : ((rows.map GitRow.entry).flatMap (parentsOf store.commit)).length ≤ refListMaxEntries) :
    CoveredParents store rows := by
  have all : outsideParents store rows ⊆
      (rows.map GitRow.entry).flatMap (parentsOf store.commit) := by
    intro parent member
    exact List.mem_flatMap.mpr (mem_outsideOf.mp member).1
  have once : (outsideParents store rows).Nodup := nodup_outsideOf _ _
  have short := (List.subperm_of_subset once all).length_le
  intro parent behind
  rw [List.drop_eq_nil_of_le (Nat.le_trans short few)] at behind
  exact absurd behind List.not_mem_nil

theorem binaryOid_ne_fanOid (value : Nat) : (binaryOid value).text ≠ fanOid.text := by
  intro same
  have bytes : binaryName value = List.replicate 40 0x61 :=
    congrArg Subtype.val (text_injective same)
  have digit : (0x61 : UInt8) ∈ binaryName value := by
    rw [bytes]
    decide
  obtain ⟨place, -, shown⟩ := List.mem_map.mp digit
  split at shown
  · cases shown
  · cases shown

theorem not_covered_fan (many : refListMaxEntries < count) (small : count ≤ 2 ^ 40) :
    ¬CoveredParents (fanStore count) [fanRow count] := by
  have none_held (name : String) (other : name ≠ fanOid.text) :
      (fanStore count).holds name = false := by
    rw [ObjectStore.holds, fanStore, if_neg other]
    rfl
  have present : ∀ row ∈ [fanRow count], (fanStore count).holds row.oid.text = true :=
    List.forall_mem_singleton.mpr (holds_of_commit (commit_fanStore count))
  have all : (fanParents count).map ObjectName.text ⊆
      outsideParents (fanStore count) [fanRow count] := by
    intro parent member
    refine mem_outsideParents present (List.mem_singleton_self _) (commit_fanStore count) member ?_
    obtain ⟨oid, inside, rfl⟩ := List.mem_map.mp member
    obtain ⟨value, -, rfl⟩ := List.mem_map.mp inside
    exact none_held _ (binaryOid_ne_fanOid value)
  have once : ((fanParents count).map ObjectName.text).Nodup := by
    rw [fanParents, List.map_map]
    refine List.Nodup.map_on ?_ List.nodup_range
    intro first member second other same
    rw [List.mem_range] at member other
    exact binaryOid_inj (by omega) (by omega) (text_injective same)
  have long := (List.subperm_of_subset once all).length_le
  rw [List.length_map, fanParents, List.length_map, List.length_range] at long
  intro covered
  have behind : (outsideParents (fanStore count) [fanRow count]).drop refListMaxEntries ≠ [] := by
    rw [Ne, List.drop_eq_nil_iff]
    omega
  obtain ⟨parent, member⟩ := List.exists_mem_of_ne_nil _ behind
  have outside := (mem_outsideOf.mp (List.mem_of_mem_drop member)).2 (fanRow count).entry
    (List.mem_singleton_self _)
  have held := covered parent member
  rw [none_held parent outside.symm] at held
  cases held

theorem yields_fan (small : count ≤ 10000) :
    ∃ page, (readPage watched [fanOid.text] 1 0 false fun _ => []).Yields
      (Serves (fanStore count) [fanRow count]) page :=
  yields_readPage_served (List.forall_mem_singleton.mpr ⟨_, commit_fanStore count⟩)
    (List.forall_mem_singleton.mpr (framed_fanStore small))

/-- One parent more than is asked for: the last one is missing, and is not said to be. -/
theorem not_exact_fan : ∃ page, (readPage watched [fanOid.text] 1 0 false fun _ => []).Yields
        (Serves (fanStore 5001) [fanRow 5001]) page ∧
      ¬ExactBoundaries (fanStore 5001) [fanRow 5001] page := by
  obtain ⟨page, read⟩ := yields_fan (show 5001 ≤ 10000 by decide)
  refine ⟨page, read, fun exactly => ?_⟩
  exact not_covered_fan (by decide) (by decide) ((exact_iff_covered (page_of_yields read)).mp exactly)

/-- The only parent of a commit is missing, and is said to be. -/
theorem exact_boundaries_one_parent :
    ∃ page, (readPage watched [fanOid.text] 1 0 false fun _ => []).Yields
        (Serves (fanStore 1) [fanRow 1]) page ∧ ExactBoundaries (fanStore 1) [fanRow 1] page := by
  obtain ⟨page, read⟩ := yields_fan (show 1 ≤ 10000 by decide)
  refine ⟨page, read, (exact_boundaries_iff read).mpr (coveredParents_of_few ?_)⟩
  rw [List.map_singleton, List.flatMap_singleton, parentsOf_congr (commit_fanStore 1)]
  decide

end Refyard
