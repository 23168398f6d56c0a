import Refyard.Core.CatFileStream
import Refyard.Core.Objects

/-! Commits and tags as Git writes them, and what the parsers make of them. -/
namespace Refyard

/-- Who did something and when, as Git writes it behind `author`, `committer` or
`tagger`. The name may contain anything but a newline. -/
structure Signature where
  name : Bytes
  email : Bytes
  seconds : Nat
  offset : String
  nameOneLine : (0x0a : UInt8) ∉ name
  emailOneLine : (0x0a : UInt8) ∉ email
  emailPlain : (0x3c : UInt8) ∉ email ∧ (0x3e : UInt8) ∉ email
  zone : isZoneOffset offset.toList = true

namespace Signature

def tail (signature : Signature) : String :=
  " " ++ decimalText signature.seconds ++ " " ++ signature.offset

def render (signature : Signature) : Bytes :=
  (signature.name ++ [0x20]) ++ 0x3c :: (signature.email ++ 0x3e :: asciiBytes signature.tail)

def identity (signature : Signature) : CommitIdentity where
  nameBytes := signature.name
  emailBytes := signature.email
  timestamp := signature.seconds
  timezoneOffset := signature.offset

end Signature

/-- A header behind the fixed ones. Each further line is written behind a space. -/
structure ExtraHeader where
  key : Bytes
  value : Bytes
  continuation : List Bytes
  keyed : key ≠ []
  solid : (0x20 : UInt8) ∉ key ∧ (0x0a : UInt8) ∉ key
  oneLine : (0x0a : UInt8) ∉ value
  eachOneLine : ∀ line ∈ continuation, (0x0a : UInt8) ∉ line

def headerLine (key value : Bytes) : Bytes := key ++ 0x20 :: value

namespace ExtraHeader

def lines (extra : ExtraHeader) : List Bytes :=
  headerLine extra.key extra.value :: extra.continuation.map fun line => 0x20 :: line

/-- The value with its further lines, each behind its newline and its space. -/
def text (extra : ExtraHeader) : Bytes :=
  extra.value ++ extra.continuation.flatMap fun line => 0x0a :: 0x20 :: line

end ExtraHeader

def renderObject (lines : List Bytes) (message : Bytes) : Bytes :=
  lines.flatMap (fun line => line ++ [0x0a]) ++ 0x0a :: message

variable (format : String) {value : Bytes}

theorem splitLines_line (headers : List Bytes) {line : Bytes} (oneLine : (0x0a : UInt8) ∉ line)
    (before rest : Bytes) : splitLines format headers before (line ++ 0x0a :: rest) =
      splitLines format headers (before ++ line) (0x0a :: rest) := by
  induction line generalizing before with
  | nil => simp
  | cons byte line ih =>
    rw [List.mem_cons, not_or] at oneLine
    rw [List.cons_append, splitLines, if_pos (Ne.symm oneLine.1), ih oneLine.2, List.append_assoc,
      List.singleton_append]

theorem splitLines_lines (headers : List Bytes) {lines : List Bytes}
    (proper : ∀ line ∈ lines, line ≠ [] ∧ (0x0a : UInt8) ∉ line) (message : Bytes) :
    splitLines format headers [] (renderObject lines message) =
      .ok (lines.foldl joinLine headers, message) := by
  unfold renderObject
  induction lines generalizing headers with
  | nil => simp [splitLines]
  | cons line lines ih =>
    obtain ⟨some_byte, oneLine⟩ := proper line List.mem_cons_self
    have closed : splitLines format headers line
        (0x0a :: (lines.flatMap (fun line => line ++ [0x0a]) ++ 0x0a :: message)) =
          splitLines format (joinLine headers line) []
            (lines.flatMap (fun line => line ++ [0x0a]) ++ 0x0a :: message) := by
      rw [splitLines, if_neg (by simp), if_neg (by simpa using some_byte)]
    rw [List.flatMap_cons, List.append_assoc, List.append_assoc, List.singleton_append,
      splitLines_line _ _ oneLine, List.nil_append, closed, List.foldl_cons]
    exact ih _ fun other member => proper other (List.mem_cons_of_mem _ member)

theorem foldl_joinLine_fields {lines : List Bytes}
    (fields : ∀ line ∈ lines, line.head? ≠ some 0x20) (headers : List Bytes) :
    lines.foldl joinLine headers = headers ++ lines := by
  induction lines generalizing headers with
  | nil => simp
  | cons line lines ih =>
    rw [List.foldl_cons, joinLine, if_neg (fields line List.mem_cons_self),
      ih fun other member => fields other (List.mem_cons_of_mem _ member), List.append_assoc,
      List.singleton_append]

theorem foldl_joinLine_continuation (headers : List Bytes) (header : Bytes)
    (continuation : List Bytes) :
    (continuation.map fun line => (0x20 : UInt8) :: line).foldl joinLine (headers ++ [header]) =
      headers ++ [header ++ continuation.flatMap fun line => 0x0a :: 0x20 :: line] := by
  induction continuation generalizing header with
  | nil => simp
  | cons line continuation ih =>
    have joined : joinLine (headers ++ [header]) (0x20 :: line) =
        headers ++ [header ++ 0x0a :: 0x20 :: line] := by
      simp [joinLine]
    rw [List.map_cons, List.foldl_cons, joined, ih, List.flatMap_cons, List.append_assoc]

variable {key : Bytes} (signature : Signature) {fields : List (Bytes × Bytes)}

theorem head?_headerLine (keyed : key ≠ []) (solid : (0x20 : UInt8) ∉ key) (value : Bytes) :
    (headerLine key value).head? ≠ some 0x20 := by
  cases key with
  | nil => contradiction
  | cons byte rest =>
    rw [List.mem_cons, not_or] at solid
    simpa [headerLine] using Ne.symm solid.1

theorem foldl_joinLine_extras (extras : List ExtraHeader) (headers : List Bytes) :
    (extras.flatMap ExtraHeader.lines).foldl joinLine headers =
      headers ++ extras.map fun extra => headerLine extra.key extra.text := by
  induction extras generalizing headers with
  | nil => simp
  | cons extra extras ih =>
    have first : joinLine headers (headerLine extra.key extra.value) =
        headers ++ [headerLine extra.key extra.value] := by
      unfold joinLine
      rw [if_neg (head?_headerLine extra.keyed extra.solid.1 _)]
    rw [List.flatMap_cons, List.foldl_append, ExtraHeader.lines, List.foldl_cons, first,
      foldl_joinLine_continuation, ih, List.map_cons, List.append_assoc]
    simp [headerLine, ExtraHeader.text]

theorem headerBodyAfterKey_eq_some {header : Bytes} :
    headerBodyAfterKey header key = some value ↔ header = headerLine key value := by
  unfold headerBodyAfterKey headerLine
  constructor
  · intro found
    split at found
    · contradiction
    · rename_i shape
      simp only [Bool.or_eq_true, decide_eq_true_eq, Bool.not_eq_true', not_or, Nat.not_le,
        Bool.not_eq_false, ne_eq, not_not] at shape
      obtain ⟨⟨longer, begins⟩, space⟩ := shape
      obtain ⟨rest, rfl⟩ := List.isPrefixOf_iff_prefix.mp begins
      rw [List.getElem?_append_right (Nat.le_refl _), Nat.sub_self] at space
      cases rest with
      | nil => simp at space
      | cons byte rest =>
        rw [List.getElem?_cons_zero, Option.some_inj] at space
        rw [drop_past, Option.some_inj] at found
        rw [space, found]
  · rintro rfl
    have shape : ¬((decide ((key ++ 0x20 :: value).length ≤ key.length) ||
        !key.isPrefixOf (key ++ 0x20 :: value) ||
        decide ((key ++ 0x20 :: value)[key.length]? ≠ some 0x20)) = true) := by
      simp
    rw [if_neg shape, drop_past]

theorem headerBodyAfterKey_headerLine {name : Bytes} (solid : (0x20 : UInt8) ∉ name)
    (alsoSolid : (0x20 : UInt8) ∉ key) (value : Bytes) :
    headerBodyAfterKey (headerLine name value) key = if name = key then some value else none := by
  split
  · rename_i same
    rw [headerBodyAfterKey_eq_some, same]
  · rename_i differs
    rw [Option.eq_none_iff_forall_ne_some]
    intro found same
    have cut := congrArg (splitOnce 0x20) (headerBodyAfterKey_eq_some.mp same)
    unfold headerLine at cut
    rw [splitOnce_append solid, splitOnce_append alsoSolid, Option.some_inj, Prod.mk.injEq] at cut
    exact differs cut.1

def fieldLines (fields : List (Bytes × Bytes)) : List Bytes :=
  fields.map fun field => headerLine field.1 field.2

section
variable {fields : List (Bytes × Bytes)} (solid : ∀ field ∈ fields, (0x20 : UInt8) ∉ field.1)
  {key : String} (alsoSolid : (0x20 : UInt8) ∉ asciiBytes key)
include solid alsoSolid

theorem headerValue_fieldLines : headerValue (fieldLines fields) key =
      (fields.find? fun field => field.1 = asciiBytes key).map Prod.snd := by
  unfold headerValue fieldLines
  induction fields with
  | nil => rfl
  | cons field fields ih =>
    have rest := ih fun other member => solid other (List.mem_cons_of_mem _ member)
    rw [List.map_cons, List.findSome?_cons,
      headerBodyAfterKey_headerLine (solid field List.mem_cons_self) alsoSolid, rest,
      List.find?_cons]
    by_cases same : field.1 = asciiBytes key <;> simp [same]

theorem headerValues_fieldLines : headerValues (fieldLines fields) key =
      (fields.filter fun field => field.1 = asciiBytes key).map Prod.snd := by
  unfold headerValues fieldLines
  induction fields with
  | nil => rfl
  | cons field fields ih =>
    have rest := ih fun other member => solid other (List.mem_cons_of_mem _ member)
    rw [List.map_cons, List.filterMap_cons,
      headerBodyAfterKey_headerLine (solid field List.mem_cons_self) alsoSolid, rest,
      List.filter_cons]
    by_cases same : field.1 = asciiBytes key <;> simp [same]

end

theorem isZoneOffset_chars {offset : List Char} (zone : isZoneOffset offset = true) :
    ∀ char ∈ offset, char = '+' ∨ char = '-' ∨ char.isDigit = true := by
  unfold isZoneOffset at zone
  split at zone
  · rename_i sign digits
    simp only [Bool.and_eq_true, Bool.or_eq_true, decide_eq_true_eq, List.all_eq_true] at zone
    obtain ⟨⟨signs, -⟩, allDigits⟩ := zone
    intro char member
    rcases List.mem_cons.mp member with rfl | member
    · exact signs.elim .inl fun minus => .inr (.inl minus)
    · exact .inr (.inr (allDigits char member))
  · contradiction

theorem isAscii_tail : IsAscii signature.tail := by
  have zone : IsAscii signature.offset := by
    intro char member
    rcases isZoneOffset_chars signature.zone char member with rfl | rfl | digit
    · decide
    · decide
    · have small := toNat_of_isDigit digit
      omega
  exact (((show IsAscii " " by decide).append (isAscii_decimalText _)).append (by decide)).append
    zone

theorem not_mem_tail {char : Char} (small : char.toNat < 128)
    (other : char ≠ ' ' ∧ char ≠ '+' ∧ char ≠ '-' ∧ char.isDigit = false) :
    charByte char ∉ asciiBytes signature.tail := by
  obtain ⟨space, plus, minus, digit⟩ := other
  rw [charByte_mem (isAscii_tail signature) small]
  simp only [Signature.tail, String.toList_append, List.mem_append, not_or]
  refine ⟨⟨⟨?_, not_mem_decimalText digit _⟩, ?_⟩, ?_⟩
  · simpa using space
  · simpa using space
  · intro member
    rcases isZoneOffset_chars signature.zone char member with same | same | same
    · exact plus same
    · exact minus same
    · rw [digit] at same
      contradiction

theorem parseIdentityTail_tail : parseIdentityTail signature.tail format =
      if 2 ^ 63 ≤ signature.seconds then .error (unrecognisedTail signature.tail format)
      else .ok (signature.seconds, signature.offset) := by
  have chars : signature.tail.toList =
      ' ' :: ((decimalText signature.seconds).toList ++ ' ' :: signature.offset.toList) := by
    simp [Signature.tail]
  have digits : (decimalText signature.seconds).toList.all Char.isDigit = true :=
    List.all_eq_true.mpr (isDigit_decimalText _)
  have some_digit : (decimalText signature.seconds).toList.isEmpty = false := by
    simpa using decimalText_ne signature.seconds
  have cut := splitOnce_append
    (not_mem_decimalText (show ' '.isDigit = false by decide) signature.seconds)
    signature.offset.toList
  unfold parseIdentityTail
  rw [chars]
  simp only [cut, digits, some_digit, signature.zone, decimalValue_decimalText, Bool.not_true,
    Bool.or_self, Bool.false_eq_true, if_false, String.ofList_toList]

theorem parseIdentity_render : parseIdentity signature.render format =
      if 2 ^ 63 ≤ signature.seconds then .error (unrecognisedTail signature.tail format)
      else .ok signature.identity := by
  have behind := not_mem_tail signature (show '>'.toNat < 128 by decide) (by decide)
  have address := rsplitOnce_append behind (signature.name ++ [0x20] ++ 0x3c :: signature.email)
  have name := rsplitOnce_append signature.emailPlain.1 (signature.name ++ [0x20])
  have trimmed : trimSeparator (signature.name ++ [0x20]) = signature.name := by
    simp [trimSeparator]
  unfold parseIdentity Signature.render
  rw [← List.cons_append, ← List.append_assoc]
  rw [show (0x3e : UInt8) = charByte '>' from rfl, address]
  simp only [name, decodeAscii_asciiBytes (isAscii_tail signature), bind, Except.bind,
    parseIdentityTail_tail, trimmed]
  by_cases large : 2 ^ 63 ≤ signature.seconds
  · rw [if_pos large, if_pos large]
  · rw [if_neg large, if_neg large]
    rfl

theorem parseObjectName_name (oid : ObjectName) (format what : String) :
    parseObjectName oid.1 format what = .ok oid.text := by
  unfold parseObjectName
  rw [decodeAscii_objectName]
  simp only [bind, Except.bind]
  rw [ObjectName.text, asciiBytes_asciiText, oid.2]
  rfl

/-- A commit as Git stores it. The further headers repeat none of the fixed ones. -/
structure GitCommit where
  tree : ObjectName
  parents : List ObjectName
  author : Signature
  committer : Signature
  extras : List ExtraHeader
  message : Bytes
  additional : ∀ extra ∈ extras,
    extra.key ∉ [asciiBytes "tree", asciiBytes "parent", asciiBytes "author", asciiBytes "committer"]

structure GitTag where
  object : ObjectName
  objectType : CatFileObjectType
  name : Bytes
  tagger : Option Signature
  extras : List ExtraHeader
  message : Bytes
  nameOneLine : (0x0a : UInt8) ∉ name
  additional : ∀ extra ∈ extras,
    extra.key ∉ [asciiBytes "object", asciiBytes "type", asciiBytes "tag", asciiBytes "tagger"]

def extraFields (extras : List ExtraHeader) : List (Bytes × Bytes) :=
  extras.map fun extra => (extra.key, extra.text)

def extraValue (extras : List ExtraHeader) (key : String) : Option Bytes :=
  (extras.find? fun extra => extra.key = asciiBytes key).map ExtraHeader.text

namespace GitCommit

def opening (commit : GitCommit) : List (Bytes × Bytes) :=
  (asciiBytes "tree", commit.tree.1) ::
    commit.parents.map fun parent => (asciiBytes "parent", parent.1)

def fixed (commit : GitCommit) : List (Bytes × Bytes) :=
  commit.opening ++
    [(asciiBytes "author", commit.author.render), (asciiBytes "committer", commit.committer.render)]

def render (commit : GitCommit) : Bytes :=
  renderObject (fieldLines commit.fixed ++ commit.extras.flatMap ExtraHeader.lines) commit.message

def object (commit : GitCommit) : CommitObject where
  treeOid := commit.tree.text
  parentOids := commit.parents.map ObjectName.text
  author := commit.author.identity
  committer := commit.committer.identity
  encoding := (extraValue commit.extras "encoding").map asciiText
  signed := (extraValue commit.extras "gpgsig").isSome
  messageBytes := commit.message

end GitCommit

namespace GitTag

def fixed (tag : GitTag) : List (Bytes × Bytes) :=
  [(asciiBytes "object", tag.object.1), (asciiBytes "type", asciiBytes tag.objectType.asStr),
    (asciiBytes "tag", tag.name)] ++
    tag.tagger.toList.map fun tagger => (asciiBytes "tagger", tagger.render)

def render (tag : GitTag) : Bytes :=
  renderObject (fieldLines tag.fixed ++ tag.extras.flatMap ExtraHeader.lines) tag.message

/-- Git signs a tag behind its message: the signature begins at a line with one of these. -/
def signatureMarkers : List String :=
  ["-----BEGIN PGP SIGNATURE-----", "-----BEGIN PGP MESSAGE-----", "-----BEGIN SIGNED MESSAGE-----",
    "-----BEGIN SSH SIGNATURE-----"]

def carriesSignature (message : Bytes) : Bool :=
  (message.splitOn 0x0a).any fun line =>
    signatureMarkers.any fun marker => (asciiBytes marker).isPrefixOf line

def hasSignatureHeader (tag : GitTag) : Bool := (extraValue tag.extras "gpgsig").isSome

def tagObject (tag : GitTag) : TagObject where
  objectOid := tag.object.text
  objectType := tag.objectType.asStr
  tagName := asciiText tag.name
  tagger := tag.tagger.map Signature.identity
  signed := tag.hasSignatureHeader || carriesSignature tag.message
  messageBytes := tag.message

end GitTag

def ProperFields (fields : List (Bytes × Bytes)) : Prop :=
  ∀ field ∈ fields, field.1 ≠ [] ∧ (0x20 : UInt8) ∉ field.1 ∧ (0x0a : UInt8) ∉ field.1 ∧
    (0x0a : UInt8) ∉ field.2

theorem splitObjectBody_render (proper : ProperFields fields) (extras : List ExtraHeader)
    (message : Bytes) (format : String) : splitObjectBody
        (renderObject (fieldLines fields ++ extras.flatMap ExtraHeader.lines) message) format =
      .ok (fieldLines (fields ++ extraFields extras), message) := by
  have oneLine : ∀ line ∈ fieldLines fields ++ extras.flatMap ExtraHeader.lines,
      line ≠ [] ∧ (0x0a : UInt8) ∉ line := by
    intro line member
    rcases List.mem_append.mp member with fixed | extra
    · obtain ⟨field, inside, rfl⟩ := List.mem_map.mp fixed
      obtain ⟨-, -, keyLine, valueLine⟩ := proper field inside
      simp [headerLine, keyLine, valueLine]
    · obtain ⟨header, inside, part⟩ := List.mem_flatMap.mp extra
      rcases List.mem_cons.mp part with rfl | part
      · simp [headerLine, header.solid.2, header.oneLine]
      · obtain ⟨further, among, rfl⟩ := List.mem_map.mp part
        simp [header.eachOneLine further among]
  have starts : ∀ line ∈ fieldLines fields, line.head? ≠ some 0x20 := by
    intro line member
    obtain ⟨field, inside, rfl⟩ := List.mem_map.mp member
    obtain ⟨keyed, solid, -⟩ := proper field inside
    exact head?_headerLine keyed solid _
  unfold splitObjectBody
  rw [splitLines_lines format [] oneLine, List.foldl_append, foldl_joinLine_fields starts,
    foldl_joinLine_extras, List.nil_append]
  simp [fieldLines, extraFields]

theorem solid_fields (proper : ProperFields fields) (extras : List ExtraHeader) :
    ∀ field ∈ fields ++ extraFields extras, (0x20 : UInt8) ∉ field.1 := by
  intro field member
  rcases List.mem_append.mp member with fixed | extra
  · exact (proper field fixed).2.1
  · obtain ⟨header, inside, rfl⟩ := List.mem_map.mp extra
    exact header.solid.1

theorem find?_extra {extras : List ExtraHeader} {key : String}
    (other : ∀ field ∈ fields, field.1 ≠ asciiBytes key) :
    ((fields ++ extraFields extras).find? fun field => field.1 = asciiBytes key).map Prod.snd =
      extraValue extras key := by
  have none_fixed : fields.find? (fun field => field.1 = asciiBytes key) = none := by
    rw [List.find?_eq_none]
    intro field member
    simpa using other field member
  rw [List.find?_append, none_fixed, Option.none_or]
  unfold extraFields extraValue
  rw [List.find?_map, Option.map_map]
  rfl

theorem find?_fixed {front rest : List (Bytes × Bytes)} {key : String} {value : Bytes}
    (other : ∀ field ∈ front, field.1 ≠ asciiBytes key) :
    ((front ++ (asciiBytes key, value) :: rest).find? fun field => field.1 = asciiBytes key).map
      Prod.snd = some value := by
  have none_front : front.find? (fun field => field.1 = asciiBytes key) = none := by
    rw [List.find?_eq_none]
    intro field member
    simpa using other field member
  rw [List.find?_append, none_front, Option.none_or, List.find?_cons_of_pos (by simp),
    Option.map_some]

theorem newline_notMem_signature : (0x0a : UInt8) ∉ signature.render := by
  have tail := not_mem_tail signature (show '\n'.toNat < 128 by decide) (by decide)
  rw [show charByte '\n' = 0x0a from rfl] at tail
  simp [Signature.render, signature.nameOneLine, signature.emailOneLine, tail]

theorem mapM_parseObjectName (oids : List ObjectName) (format what : String) :
    (oids.map Subtype.val).mapM (fun oid => parseObjectName oid format what) =
      .ok (oids.map ObjectName.text) := by
  induction oids with
  | nil => rfl
  | cons oid oids ih =>
    rw [List.map_cons, List.mapM_cons, parseObjectName_name, ih]
    rfl

theorem proper_field {key : String}
    (proper : asciiBytes key ≠ [] ∧ (0x20 : UInt8) ∉ asciiBytes key ∧ (0x0a : UInt8) ∉ asciiBytes key)
    (oneLine : (0x0a : UInt8) ∉ value) :
    (asciiBytes key, value).1 ≠ [] ∧ (0x20 : UInt8) ∉ (asciiBytes key, value).1 ∧
      (0x0a : UInt8) ∉ (asciiBytes key, value).1 ∧ (0x0a : UInt8) ∉ (asciiBytes key, value).2 :=
  ⟨proper.1, proper.2.1, proper.2.2, oneLine⟩

namespace GitCommit

theorem mem_opening {commit : GitCommit} {field : Bytes × Bytes} (member : field ∈ commit.opening) :
    field = (asciiBytes "tree", commit.tree.1) ∨
      ∃ parent ∈ commit.parents, field = (asciiBytes "parent", parent.1) := by
  rcases List.mem_cons.mp member with tree | parent
  · exact .inl tree
  · obtain ⟨oid, inside, rfl⟩ := List.mem_map.mp parent
    exact .inr ⟨oid, inside, rfl⟩

variable (commit : GitCommit)

theorem proper_fixed : ProperFields commit.fixed := by
  intro field member
  rcases List.mem_append.mp member with opening | ends
  · rcases mem_opening opening with rfl | ⟨parent, -, rfl⟩
    · exact proper_field (by decide) (notMem_objectName _ (by decide))
    · exact proper_field (by decide) (notMem_objectName _ (by decide))
  · simp only [List.mem_cons, List.not_mem_nil, or_false] at ends
    rcases ends with rfl | rfl
    · exact proper_field (by decide) (newline_notMem_signature _)
    · exact proper_field (by decide) (newline_notMem_signature _)

theorem opening_keys {key : String}
    (other : asciiBytes "tree" ≠ asciiBytes key ∧ asciiBytes "parent" ≠ asciiBytes key) :
    ∀ field ∈ commit.opening, field.1 ≠ asciiBytes key := by
  intro field member
  rcases mem_opening member with rfl | ⟨parent, -, rfl⟩
  · exact other.1
  · exact other.2

theorem fixed_keys {key : String}
    (other : asciiBytes "tree" ≠ asciiBytes key ∧ asciiBytes "parent" ≠ asciiBytes key)
    (another : asciiBytes "author" ≠ asciiBytes key ∧ asciiBytes "committer" ≠ asciiBytes key) :
    ∀ field ∈ commit.fixed, field.1 ≠ asciiBytes key := by
  intro field member
  rcases List.mem_append.mp member with opening | ends
  · exact commit.opening_keys other field opening
  · simp only [List.mem_cons, List.not_mem_nil, or_false] at ends
    rcases ends with rfl | rfl
    · exact another.1
    · exact another.2

theorem filter_parents : ((commit.fixed ++ extraFields commit.extras).filter fun field =>
      field.1 = asciiBytes "parent").map Prod.snd = commit.parents.map Subtype.val := by
  have parents : (commit.parents.map fun parent => (asciiBytes "parent", parent.1)).filter
      (fun field => field.1 = asciiBytes "parent") =
        commit.parents.map fun parent => (asciiBytes "parent", parent.1) := by
    rw [List.filter_eq_self]
    intro field member
    obtain ⟨parent, -, rfl⟩ := List.mem_map.mp member
    simp
  have extras : (extraFields commit.extras).filter (fun field => field.1 = asciiBytes "parent") =
      [] := by
    rw [List.filter_eq_nil_iff]
    intro field member
    obtain ⟨extra, inside, rfl⟩ := List.mem_map.mp member
    have differs := commit.additional extra inside
    simp only [List.mem_cons, not_or] at differs
    simpa using differs.2.1
  have tree : asciiBytes "tree" ≠ asciiBytes "parent" := by decide
  have author : asciiBytes "author" ≠ asciiBytes "parent" := by decide
  have committer : asciiBytes "committer" ≠ asciiBytes "parent" := by decide
  unfold fixed opening
  rw [List.filter_append, List.filter_append, List.filter_cons_of_neg (by simpa using tree), parents,
    extras, List.filter_cons_of_neg (by simpa using author),
    List.filter_cons_of_neg (by simpa using committer), List.filter_nil, List.append_nil,
    List.append_nil, List.map_map]
  rfl

theorem header_values (commit : GitCommit) :
    let headers := fieldLines (commit.fixed ++ extraFields commit.extras)
    headerValue headers "tree" = some commit.tree.1 ∧
      headerValue headers "author" = some commit.author.render ∧
      headerValue headers "committer" = some commit.committer.render ∧
      headerValues headers "parent" = commit.parents.map Subtype.val ∧
      headerValue headers "encoding" = extraValue commit.extras "encoding" ∧
      headerValue headers "gpgsig" = extraValue commit.extras "gpgsig" := by
  have solid := solid_fields commit.proper_fixed commit.extras
  refine ⟨?_, ?_, ?_, ?_, ?_, ?_⟩
  · rw [headerValue_fieldLines solid (by decide)]
    exact @find?_fixed [] _ _ _ (by simp)
  · rw [headerValue_fieldLines solid (by decide), fixed, List.append_assoc]
    exact find?_fixed (commit.opening_keys (by decide))
  · rw [headerValue_fieldLines solid (by decide), fixed, ← List.singleton_append,
      ← List.append_assoc, List.append_assoc]
    apply find?_fixed
    intro field member
    rcases List.mem_append.mp member with opening | author
    · exact commit.opening_keys (by decide) field opening
    · rw [List.mem_singleton.mp author]
      exact show asciiBytes "author" ≠ asciiBytes "committer" by decide
  · rw [headerValues_fieldLines solid (by decide), commit.filter_parents]
  · rw [headerValue_fieldLines solid (by decide)]
    exact find?_extra (commit.fixed_keys (by decide) (by decide))
  · rw [headerValue_fieldLines solid (by decide)]
    exact find?_extra (commit.fixed_keys (by decide) (by decide))

structure Decodable (commit : GitCommit) : Prop where
  encoding : ∀ value, extraValue commit.extras "encoding" = some value → ∀ byte ∈ value, byte ≤ 0x7f
  author : commit.author.seconds < 2 ^ 63
  committer : commit.committer.seconds < 2 ^ 63

variable {headers : List Bytes} {found : Option Bytes}

theorem parseEncoding_of_ascii (value : headerValue headers "encoding" = found)
    (ascii : ∀ bytes, found = some bytes → ∀ byte ∈ bytes, byte ≤ 0x7f) :
    parseEncoding headers = .ok (found.map asciiText) := by
  unfold parseEncoding
  rw [value]
  cases found with
  | none => rfl
  | some bytes =>
    simp only
    rw [decodeAscii_of_le (ascii bytes rfl)]
    rfl

theorem parseEncoding_of_not_ascii (value : headerValue headers "encoding" = found)
    (foreign : ¬∀ bytes, found = some bytes → ∀ byte ∈ bytes, byte ≤ 0x7f) :
    ∃ error, parseEncoding headers = .error error := by
  push Not at foreign
  obtain ⟨bytes, rfl, byte, member, above⟩ := foreign
  obtain ⟨detail, refused⟩ := decodeAscii_of_gt member (UInt8.not_le.mp above) commitFormat
  unfold parseEncoding
  rw [value]
  simp only
  rw [refused]
  exact ⟨_, rfl⟩

theorem parse_render : parseCommitObject commit.render = (do
        let encoding ← parseEncoding (fieldLines (commit.fixed ++ extraFields commit.extras))
        let author ← parseIdentity commit.author.render commitFormat
        let committer ← parseIdentity commit.committer.render commitFormat
        .ok { commit.object with encoding, author, committer }) := by
  obtain ⟨tree, author, committer, parents, -, signature⟩ := commit.header_values
  unfold parseCommitObject render
  rw [splitObjectBody_render commit.proper_fixed]
  simp only [bind, Except.bind, tree, author, committer, parents, parseObjectName_name,
    mapM_parseObjectName, hasHeader, signature]
  rfl

theorem parse_render_iff :
    parseCommitObject commit.render = .ok commit.object ↔ commit.Decodable := by
  obtain ⟨-, -, -, -, encoding, -⟩ := commit.header_values
  rw [commit.parse_render, parseIdentity_render, parseIdentity_render]
  by_cases ascii : ∀ bytes, extraValue commit.extras "encoding" = some bytes →
      ∀ byte ∈ bytes, byte ≤ 0x7f
  · rw [parseEncoding_of_ascii encoding ascii]
    by_cases author : commit.author.seconds < 2 ^ 63
    · by_cases committer : commit.committer.seconds < 2 ^ 63
      · rw [if_neg (Nat.not_le.mpr author), if_neg (Nat.not_le.mpr committer)]
        exact iff_of_true rfl ⟨ascii, author, committer⟩
      · rw [if_neg (Nat.not_le.mpr author), if_pos (Nat.not_lt.mp committer)]
        exact iff_of_false (by simp [bind, Except.bind]) fun h => committer h.committer
    · rw [if_pos (Nat.not_lt.mp author)]
      exact iff_of_false (by simp [bind, Except.bind]) fun h => author h.author
  · obtain ⟨error, refused⟩ := parseEncoding_of_not_ascii encoding ascii
    rw [refused]
    exact iff_of_false (by simp [bind, Except.bind]) fun h => ascii h.encoding

end GitCommit

namespace GitTag

theorem mem_fixed {tag : GitTag} {field : Bytes × Bytes} (member : field ∈ tag.fixed) :
    field = (asciiBytes "object", tag.object.1) ∨
      field = (asciiBytes "type", asciiBytes tag.objectType.asStr) ∨
      field = (asciiBytes "tag", tag.name) ∨
      ∃ tagger, tag.tagger = some tagger ∧ field = (asciiBytes "tagger", tagger.render) := by
  simp only [fixed, List.cons_append, List.nil_append, List.mem_cons, List.mem_map,
    Option.mem_toList] at member
  rcases member with object | kind | name | ⟨tagger, held, rfl⟩
  · exact .inl object
  · exact .inr (.inl kind)
  · exact .inr (.inr (.inl name))
  · exact .inr (.inr (.inr ⟨tagger, held, rfl⟩))

variable (tag : GitTag)

theorem proper_fixed : ProperFields tag.fixed := by
  intro field member
  rcases mem_fixed member with rfl | rfl | rfl | ⟨tagger, -, rfl⟩
  · exact proper_field (by decide) (notMem_objectName _ (by decide))
  · refine proper_field (by decide) ?_
    cases tag.objectType <;> decide
  · exact proper_field (by decide) tag.nameOneLine
  · exact proper_field (by decide) (newline_notMem_signature _)

theorem header_values (tag : GitTag) :
    let headers := fieldLines (tag.fixed ++ extraFields tag.extras)
    headerValue headers "object" = some tag.object.1 ∧
      headerValue headers "type" = some (asciiBytes tag.objectType.asStr) ∧
      headerValue headers "tag" = some tag.name ∧
      headerValue headers "tagger" = tag.tagger.map Signature.render ∧
      headerValue headers "gpgsig" = extraValue tag.extras "gpgsig" := by
  have solid := solid_fields tag.proper_fixed tag.extras
  have object : asciiBytes "object" ≠ asciiBytes "type" ∧ asciiBytes "object" ≠ asciiBytes "tag" ∧
      asciiBytes "object" ≠ asciiBytes "tagger" := by decide
  have kind : asciiBytes "type" ≠ asciiBytes "tag" ∧ asciiBytes "type" ≠ asciiBytes "tagger" := by
    decide
  refine ⟨?_, ?_, ?_, ?_, ?_⟩
  · rw [headerValue_fieldLines solid (by decide)]
    exact @find?_fixed [] _ _ _ (by simp)
  · rw [headerValue_fieldLines solid (by decide)]
    exact @find?_fixed [(asciiBytes "object", _)] _ _ _ (by simpa using object.1)
  · rw [headerValue_fieldLines solid (by decide)]
    exact @find?_fixed [(asciiBytes "object", _), (asciiBytes "type", _)] _ _ _
      (by simpa using ⟨object.2.1, kind.1⟩)
  · have front : ∀ field ∈ [(asciiBytes "object", tag.object.1),
        (asciiBytes "type", asciiBytes tag.objectType.asStr), (asciiBytes "tag", tag.name)],
        field.1 ≠ asciiBytes "tagger" := by
      have name : asciiBytes "tag" ≠ asciiBytes "tagger" := by decide
      simpa using ⟨object.2.2, kind.2, name⟩
    rw [headerValue_fieldLines solid (by decide)]
    unfold fixed
    cases tag.tagger with
    | some tagger =>
      exact find?_fixed front
    | none =>
      rw [Option.toList_none, List.map_nil, List.append_nil, find?_extra front]
      unfold extraValue
      rw [List.find?_eq_none.mpr, Option.map_none, Option.map_none]
      intro extra inside
      have differs := tag.additional extra inside
      simp only [List.mem_cons, not_or] at differs
      simpa using differs.2.2.2.1
  · rw [headerValue_fieldLines solid (by decide)]
    apply find?_extra
    intro field member
    rcases mem_fixed member with rfl | rfl | rfl | ⟨tagger, -, rfl⟩
    · exact show asciiBytes "object" ≠ asciiBytes "gpgsig" by decide
    · exact show asciiBytes "type" ≠ asciiBytes "gpgsig" by decide
    · exact show asciiBytes "tag" ≠ asciiBytes "gpgsig" by decide
    · exact show asciiBytes "tagger" ≠ asciiBytes "gpgsig" by decide

structure Decodable (tag : GitTag) : Prop where
  name : ∀ byte ∈ tag.name, byte ≤ 0x7f
  tagger : ∀ tagger, tag.tagger = some tagger → tagger.seconds < 2 ^ 63
  signature : carriesSignature tag.message = true → tag.hasSignatureHeader = true

theorem parse_render : parseTagObject tag.render = (do
        let tagger ← parseTagger (fieldLines (tag.fixed ++ extraFields tag.extras))
        let tagName ← decodeAscii tag.name tagFormat
        .ok { tag.tagObject with tagName, tagger, signed := tag.hasSignatureHeader }) := by
  obtain ⟨object, kind, name, -, signature⟩ := tag.header_values
  have ascii := (isToken_asStr tag.objectType).ascii
  unfold parseTagObject render
  rw [splitObjectBody_render tag.proper_fixed]
  simp only [bind, Except.bind, object, kind, name, parseObjectName_name,
    decodeAscii_asciiBytes ascii, hasHeader, signature]
  rfl

theorem parseTagger_eq :
    parseTagger (fieldLines (tag.fixed ++ extraFields tag.extras)) = match tag.tagger with
      | none => .ok none
      | some tagger => (parseIdentity tagger.render tagFormat).map some := by
  obtain ⟨-, -, -, tagger, -⟩ := tag.header_values
  unfold parseTagger
  rw [tagger]
  cases tag.tagger <;> rfl

theorem parse_render_iff : parseTagObject tag.render = .ok tag.tagObject ↔ tag.Decodable := by
  have signed : tag.hasSignatureHeader = (tag.hasSignatureHeader || carriesSignature tag.message) ↔
      (carriesSignature tag.message = true → tag.hasSignatureHeader = true) := by
    cases tag.hasSignatureHeader <;> cases carriesSignature tag.message <;> decide
  rw [tag.parse_render, tag.parseTagger_eq]
  by_cases name : ∀ byte ∈ tag.name, byte ≤ 0x7f
  · rw [decodeAscii_of_le name]
    cases held : tag.tagger with
    | none =>
      simp only [bind, Except.bind, tagObject, held, Option.map_none, Except.ok.injEq,
        TagObject.mk.injEq, true_and, and_true]
      exact signed.trans ⟨fun carried => ⟨name, by simp [held], carried⟩, Decodable.signature⟩
    | some tagger =>
      simp only [parseIdentity_render]
      by_cases small : tagger.seconds < 2 ^ 63
      · rw [if_neg (Nat.not_le.mpr small)]
        simp only [bind, Except.bind, Except.map, tagObject, held, Option.map_some,
          Except.ok.injEq, TagObject.mk.injEq, true_and, and_true]
        exact signed.trans
          ⟨fun carried => ⟨name, by simpa [held] using small, carried⟩, Decodable.signature⟩
      · rw [if_pos (Nat.not_lt.mp small)]
        exact iff_of_false (by simp [bind, Except.bind, Except.map]) fun h =>
          small (h.tagger tagger held)
  · refine iff_of_false ?_ fun h => name h.name
    push Not at name
    obtain ⟨byte, member, above⟩ := name
    obtain ⟨detail, refused⟩ := decodeAscii_of_gt member (UInt8.not_le.mp above) tagFormat
    rw [refused]
    split
    · simp [bind, Except.bind]
    · simp only [bind, Except.bind]
      split <;> simp

end GitTag

/-- The parsers return exactly what was written, unless the encoding or the tag name is not ASCII, a
timestamp is beyond an `i64`, or a tag is signed behind its message alone. -/
theorem objects_round_trip (commit : GitCommit) (tag : GitTag) :
    (parseCommitObject commit.render = .ok commit.object ↔ commit.Decodable) ∧
      (parseTagObject tag.render = .ok tag.tagObject ↔ tag.Decodable) :=
  ⟨commit.parse_render_iff, tag.parse_render_iff⟩

def releaseTag (name message : Bytes) (oneLine : (0x0a : UInt8) ∉ name) : GitTag where
  object := ⟨List.replicate 40 0x65, by decide⟩
  objectType := .commit
  name := name
  tagger := none
  extras := []
  message := message
  nameOneLine := oneLine
  additional := by simp

/-- A tag named `v1-é`, and one that is signed as Git signs tags: it is read as an unsigned one. -/
theorem tags_not_read_back :
    (∃ tag : GitTag, tag.name = [0x76, 0x31, 0x2d, 0xc3, 0xa9] ∧
        parseTagObject tag.render ≠ .ok tag.tagObject) ∧
      ∃ tag : GitTag, tag.message = asciiBytes "v1\n-----BEGIN PGP SIGNATURE-----\n" ∧
        parseTagObject tag.render = .ok { tag.tagObject with signed := false } ∧
        tag.tagObject.signed = true := by
  refine ⟨⟨releaseTag _ (asciiBytes "release\n") (by decide), rfl, by decide⟩, ?_⟩
  refine ⟨releaseTag (asciiBytes "v1") _ (by decide), rfl, ?_, ?_⟩ <;> decide

end Refyard
