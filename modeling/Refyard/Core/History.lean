import Refyard.Core.Plan
import Refyard.Foundation.Fallible

/-! The walk of the commit graph: its argument vectors, which take the tips on stdin, and
its rows, an object name and the names of its parents on each line. -/
namespace Refyard

structure RevListOptions where
  tips : List String
  maxCount : Int
  skip : Int
  firstParentOnly : Bool := false
  onlyOid : Option String := none
  message : Option String := none
  author : Option String := none
  committedAfterSeconds : Option Int := none
  committedBeforeSeconds : Option Int := none
  pathText : Option String := none

def namesStdin (names : List String) : Bytes := names.flatMap fun name => textBytes name ++ [0x0a]

def RevListOptions.effectiveMaxCount (options : RevListOptions) : Int :=
  match options.committedBeforeSeconds with
  | some seconds => if seconds < 0 then 0 else options.maxCount
  | none => options.maxCount

def RevListOptions.argv (options : RevListOptions) : List String :=
  (if options.pathText.isSome then ["--literal-pathspecs"] else []) ++
  ["rev-list", "--date-order", "--parents", s!"--max-count={options.effectiveMaxCount}"] ++
  (if options.onlyOid.isSome then ["--no-walk=unsorted"] else []) ++
  (if 0 < options.skip then [s!"--skip={options.skip}"] else []) ++
  (if options.firstParentOnly then ["--first-parent"] else []) ++
  (if options.message.isSome || options.author.isSome then
    ["--fixed-strings", "--regexp-ignore-case"] else []) ++
  (options.message.toList.map fun message => s!"--grep={message}") ++
  (options.author.toList.map fun author => s!"--author={author}") ++
  ((options.committedAfterSeconds.toList.filter fun seconds => 0 ≤ seconds).map fun seconds =>
    s!"--since-as-filter=@{seconds} +0000") ++
  ((options.committedBeforeSeconds.toList.filter fun seconds => 0 ≤ seconds).map fun seconds =>
    s!"--min-age={seconds}") ++ ["--stdin"] ++
  (options.pathText.toList.flatMap fun path => ["--", path])

def planRevList (options : RevListOptions) : Except CoreError GitPlan := do
  match options.onlyOid with
  | some oid =>
      if isObjectName (textBytes oid) then pure ()
      else .error (.invalidInput "onlyOid must be a full object ID")
  | none =>
      if options.tips.isEmpty then .error (.invalidInput "planRevList requires at least one tip")
      else pure ()
  pure { GitPlan.read options.argv with
    stdin := namesStdin (match options.onlyOid with | some oid => [oid] | none => options.tips) }

theorem planRevList_eq_ok {tips : List String} {maxCount skip : Int} {firstParentOnly : Bool}
    {plan : GitPlan}
    (planned : planRevList { tips, maxCount, skip, firstParentOnly } = .ok plan) :
    tips ≠ [] ∧ plan.argv = RevListOptions.argv { tips, maxCount, skip, firstParentOnly } := by
  cases tips with
  | nil => cases planned
  | cons tip rest =>
    obtain rfl := Except.ok.inj planned
    exact ⟨List.cons_ne_nil _ _, rfl⟩

theorem option_inj {option : String} {count other : Nat}
    (same : option ++ toString (count : Int) = option ++ toString (other : Int)) :
    count = other := by
  have texts : (decimalText count).toList = (decimalText other).toList := by
    have chars := congrArg String.toList same
    rw [String.toList_append, String.toList_append] at chars
    exact List.append_cancel_left chars
  rw [← decimalValue_decimalText count, texts, decimalValue_decimalText]

theorem argv_inj {tips others : List String} {maxCount skip count offset : Nat}
    {firstParentOnly alsoFirst : Bool}
    (same : RevListOptions.argv { tips, maxCount, skip, firstParentOnly } = RevListOptions.argv
        { tips := others, maxCount := count, skip := offset, firstParentOnly := alsoFirst }) :
    maxCount = count ∧ skip = offset := by
  have row (tips : List String) (maxCount skip : Nat) (firstParentOnly : Bool) :
      RevListOptions.argv { tips, maxCount, skip, firstParentOnly } =
        ["rev-list", "--date-order", "--parents", "--max-count=" ++ toString (maxCount : Int)] ++
        ((if 0 < skip then ["--skip=" ++ toString (skip : Int)] else []) ++
          ((if firstParentOnly then ["--first-parent"] else []) ++ ["--stdin"])) := by
    simp [RevListOptions.argv, RevListOptions.effectiveMaxCount]
    exact ⟨rfl, rfl⟩
  rw [row, row] at same
  obtain ⟨front, behind⟩ := List.append_inj same rfl
  have bound := (List.cons.inj (List.cons.inj (List.cons.inj (List.cons.inj front).2).2).2).1
  refine ⟨option_inj bound, ?_⟩
  have skips (skip : Nat) : ("--skip=" ++ toString (skip : Int)).toList[3]? = some 'k' := by
    simp [String.toList_append]
  have rest (firstParentOnly : Bool) : ∃ option options,
      (if firstParentOnly then ["--first-parent"] else []) ++ ["--stdin"] = option :: options ∧
        option.toList[3]? ≠ some 'k' := by
    cases firstParentOnly
    · exact ⟨_, _, rfl, by decide⟩
    · exact ⟨_, _, rfl, by decide⟩
  obtain ⟨option, options, listed, differs⟩ := rest firstParentOnly
  obtain ⟨other, others, alsoListed, alsoDiffers⟩ := rest alsoFirst
  rw [listed, alsoListed] at behind
  by_cases first : 0 < skip
  · by_cases second : 0 < offset
    · rw [if_pos first, if_pos second] at behind
      exact option_inj (List.cons.inj behind).1
    · rw [if_pos first, if_neg second] at behind
      exact absurd ((List.cons.inj behind).1 ▸ skips skip) alsoDiffers
  · by_cases second : 0 < offset
    · rw [if_neg first, if_pos second] at behind
      exact absurd ((List.cons.inj behind).1 ▸ skips offset) differs
    · omega

def planCatFileBatch (objectNames : List String) : Except CoreError GitPlan :=
  if objectNames.isEmpty then
    .error (.invalidInput "planCatFileBatch requires at least one object name")
  else .ok { GitPlan.read ["cat-file", "--batch"] with stdin := namesStdin objectNames }

def planCatFileExists (objectNames : List String) : Except CoreError GitPlan :=
  if objectNames.isEmpty then
    .error (.invalidInput "plan_cat_file_exists requires at least one object name")
  else
    .ok { GitPlan.read ["cat-file", "--batch-check=%(objectname)"] with
      stdin := namesStdin objectNames }

structure TopologyEntry where
  oid : String
  parentOids : List String
  boundary : Bool

def topologyFormat : String := "rev-list --topo-order --parents"

/-- Splits on one byte, dropping only the empty element behind a trailing separator. -/
def splitOnByte (bytes : Bytes) (separator : UInt8) : List Bytes :=
  let parts := bytes.splitOn separator
  if parts.getLast? = some [] then parts.dropLast else parts

def topologyFields (text : List Char) (boundary : Bool) : Except CoreError TopologyEntry :=
  match text.splitOn ' ' with
  | [] => .error (.outputUnparsable topologyFormat "a row had no object name")
  | oid :: parents =>
      if oid.isEmpty then .error (.outputUnparsable topologyFormat "a row had no object name")
      else if parents.any List.isEmpty then
        .error (.outputUnparsable topologyFormat "a row contained an empty parent field")
      else .ok { oid := String.ofList oid, parentOids := parents.map String.ofList, boundary }

def parseTopologyRow (line : Bytes) : Except CoreError TopologyEntry := do
  let text ← decodeAscii line topologyFormat
  match text.toList with
  | '-' :: rest => topologyFields rest true
  | chars => topologyFields chars false

def readTopologyRow (entries : List TopologyEntry) (line : Bytes) :
    Except CoreError (List TopologyEntry) :=
  if line.isEmpty then .ok entries
  else (parseTopologyRow line).map fun entry => entries ++ [entry]

def parseRevListTopology (bytes : Bytes) : Except CoreError (List TopologyEntry) :=
  (splitOnByte bytes 0x0a).foldlM readTopologyRow []

structure ObjectPresence where
  present : List String
  missing : List String

def presenceFormat : String := "cat-file --batch-check"

def stripSuffix (suffix text : List Char) : Option (List Char) :=
  (stripPrefix suffix.reverse text.reverse).map List.reverse

/-- One line. The name that was asked for stands in for a line that carries none. -/
def readPresence (found : ObjectPresence) (line : Bytes) (fallback : String) :
    Except CoreError ObjectPresence := do
  let text ← decodeAscii line presenceFormat
  match stripSuffix " missing".toList text.toList with
  | some name => pure { found with missing := found.missing ++ [String.ofList name] }
  | none =>
      let oid := text.toList.takeWhile fun char => char ≠ ' '
      pure { found with
        present := found.present ++ [if oid.isEmpty then fallback else String.ofList oid] }

def parseObjectPresence (bytes : Bytes) (requested : List String) :
    Except CoreError ObjectPresence :=
  let lines := (splitOnByte bytes 0x0a).filter fun line => !line.isEmpty
  lines.zipIdx.foldlM (fun found (line, index) => readPresence found line (requested.getD index ""))
    { present := [], missing := [] }

/-! The walk as Git prints it. -/

structure GitRow where
  oid : ObjectName
  parents : List ObjectName
  boundary : Bool

namespace GitRow

def line (row : GitRow) : Bytes :=
  (if row.boundary then [0x2d] else []) ++ row.oid.1 ++
    row.parents.flatMap fun parent => 0x20 :: parent.1

def render (rows : List GitRow) : Bytes := rows.flatMap fun row => row.line ++ [0x0a]

def entry (row : GitRow) : TopologyEntry where
  oid := row.oid.text
  parentOids := row.parents.map ObjectName.text
  boundary := row.boundary

def chars (row : GitRow) : List Char :=
  row.oid.text.toList ++ row.parents.flatMap fun parent => ' ' :: parent.text.toList

theorem splitOn_words {first : List Char} {rest : List (List Char)} (free : ' ' ∉ first)
    (others : ∀ word ∈ rest, ' ' ∉ word) :
    (first ++ rest.flatMap fun word => ' ' :: word).splitOn ' ' = first :: rest := by
  induction rest generalizing first with
  | nil =>
    rw [List.flatMap_nil, List.append_nil]
    exact List.splitOn_eq_singleton free
  | cons word rest ih =>
    rw [List.flatMap_cons, List.cons_append, List.splitOn_append_cons_self_of_not_mem free,
      ih (others word List.mem_cons_self) fun other member =>
        others other (List.mem_cons_of_mem _ member)]

theorem notMem_text (oid : ObjectName) {char : Char}
    (other : ((0x30 ≤ charByte char && charByte char ≤ 0x39) ||
      (0x61 ≤ charByte char && charByte char ≤ 0x66)) = false) : char ∉ oid.text.toList := by
  intro member
  rw [ObjectName.text, toList_asciiText] at member
  obtain ⟨byte, inside, rfl⟩ := List.mem_map.mp member
  rw [charByte_byteChar] at other
  exact notMem_objectName oid other inside

variable (row : GitRow)

theorem splitOn_chars : row.chars.splitOn ' ' =
      row.oid.text.toList :: row.parents.map fun parent => parent.text.toList := by
  have words : row.chars = row.oid.text.toList ++
      (row.parents.map fun parent => parent.text.toList).flatMap fun word => ' ' :: word := by
    rw [chars, List.flatMap_map]
  rw [words, splitOn_words (notMem_text _ (by decide))]
  intro word member
  obtain ⟨parent, -, rfl⟩ := List.mem_map.mp member
  exact notMem_text _ (by decide)

theorem text_ne (oid : ObjectName) : oid.text.toList ≠ [] := by
  rw [ObjectName.text, toList_asciiText]
  exact fun empty => objectName_ne oid (List.map_eq_nil_iff.mp empty)

theorem line_le : ∀ byte ∈ row.line, byte ≤ 0x7f := by
  intro byte member
  unfold line at member
  rw [List.mem_append, List.mem_append, List.mem_flatMap] at member
  rcases member with (mark | own) | ⟨parent, -, inside⟩
  · cases boundary : row.boundary with
    | false => simp [boundary] at mark
    | true =>
      simp only [boundary, if_true, List.mem_singleton] at mark
      exact mark ▸ by decide
  · exact objectName_le _ _ own
  · rw [List.mem_cons] at inside
    exact inside.elim (fun same => same ▸ by decide) (objectName_le parent byte)

theorem line_chars : row.line.map byteChar = (if row.boundary then ['-'] else []) ++ row.chars := by
  unfold line chars
  rw [List.append_assoc, List.map_append, List.map_append, List.map_flatMap]
  congr 1
  · cases row.boundary <;> rfl
  · rw [ObjectName.text, toList_asciiText]
    congr 1
    refine congrArg (List.flatMap · row.parents) ?_
    funext parent
    rw [List.map_cons, ObjectName.text, toList_asciiText]
    rfl

theorem topologyFields_chars (boundary : Bool) : topologyFields row.chars boundary =
      .ok { oid := row.oid.text, parentOids := row.parents.map ObjectName.text, boundary } := by
  have named : row.oid.text.toList.isEmpty = false := by simpa using text_ne row.oid
  have others : (row.parents.map fun parent => parent.text.toList).any List.isEmpty = false := by
    rw [List.any_eq_false]
    intro word member
    obtain ⟨parent, -, rfl⟩ := List.mem_map.mp member
    simpa using text_ne parent
  unfold topologyFields
  rw [splitOn_chars]
  dsimp only
  rw [named, others, String.ofList_toList, List.map_map]
  have words : (String.ofList ∘ fun parent : ObjectName => parent.text.toList) =
      ObjectName.text := by
    funext parent
    exact String.ofList_toList
  rw [words]
  rfl

theorem parseTopologyRow_line : parseTopologyRow row.line = .ok row.entry := by
  have read : ∀ chars, chars = (if row.boundary then ['-'] else []) ++ row.chars → (match chars with
        | '-' :: rest => topologyFields rest true
        | chars => topologyFields chars false) = .ok row.entry := by
    rintro chars rfl
    have fields := topologyFields_chars row row.boundary
    cases boundary : row.boundary with
    | true =>
      rw [boundary] at fields
      exact fields.trans (congrArg Except.ok (by rw [entry, boundary]))
    | false =>
      have first : '-' ∉ row.oid.text.toList := notMem_text _ (by decide)
      rw [boundary] at fields
      cases letters : row.oid.text.toList with
      | nil => exact absurd letters (text_ne _)
      | cons letter rest =>
        rw [letters, List.mem_cons, not_or] at first
        split
        · rename_i same
          rw [chars, letters] at same
          exact absurd (List.cons.inj same).1.symm first.1
        · exact fields.trans (congrArg Except.ok (by rw [entry, boundary]))
  unfold parseTopologyRow
  rw [decodeAscii_of_le row.line_le]
  exact read _ ((toList_asciiText row.line).trans row.line_chars)

theorem newline_notMem_line : (0x0a : UInt8) ∉ row.line := by
  unfold line
  rw [List.mem_append, List.mem_append, List.mem_flatMap, not_or, not_or]
  refine ⟨⟨?_, notMem_objectName _ (by decide)⟩, ?_⟩
  · cases row.boundary <;> decide
  · rintro ⟨parent, -, member⟩
    rw [List.mem_cons] at member
    exact member.elim (by decide) (notMem_objectName parent (by decide))

theorem line_ne : row.line.isEmpty = false := by
  unfold line
  cases bytes : row.oid.1 with
  | nil => exact absurd bytes (objectName_ne _)
  | cons byte rest => cases row.boundary <;> rfl

theorem splitOnByte_render (rows : List GitRow) :
    splitOnByte (render rows) 0x0a = rows.map line := by
  have parts : (render rows).splitOn 0x0a = rows.map line ++ [[]] := by
    induction rows with
    | nil => rfl
    | cons row rest ih =>
      rw [render, List.flatMap_cons, List.append_assoc, List.singleton_append,
        List.splitOn_append_cons_self_of_not_mem row.newline_notMem_line, List.map_cons,
        List.cons_append]
      exact congrArg _ ih
  unfold splitOnByte
  rw [parts]
  dsimp only
  rw [List.getLast?_concat, if_pos rfl, List.dropLast_concat]

theorem parseRevListTopology_render (rows : List GitRow) :
    parseRevListTopology (render rows) = .ok (rows.map entry) := by
  have loop (front : List TopologyEntry) :
      (rows.map line).foldlM readTopologyRow front = .ok (front ++ rows.map entry) := by
    induction rows generalizing front with
    | nil =>
      rw [List.map_nil, List.map_nil, List.append_nil]
      rfl
    | cons row rest ih =>
      have step : readTopologyRow front row.line = .ok (front ++ [row.entry]) := by
        rw [readTopologyRow, row.line_ne, if_neg Bool.false_ne_true, parseTopologyRow_line]
        rfl
      rw [List.map_cons, List.foldlM_cons, step]
      change (rest.map line).foldlM readTopologyRow (front ++ [row.entry]) = _
      rw [ih, List.append_assoc, List.singleton_append, List.map_cons]
  rw [parseRevListTopology, splitOnByte_render, loop, List.nil_append]

end GitRow

end Refyard
