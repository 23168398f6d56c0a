import Refyard.Foundation.Fallible
import Refyard.Writes.Facts

/-! `git for-each-ref` with eight fields a line. The last separator stands before the peeled
object, so that an ordinary branch arrives as seven fields that end with their NUL. -/
namespace Refyard

/-- What `%(upstream:track)` said. -/
structure UpstreamTrack where
  ahead : Nat
  behind : Nat
  gone : Bool
  deriving DecidableEq

structure RefRecord where
  refName : String
  oid : String
  objectType : String
  symref : Option String
  upstream : Option String
  upstreamTrack : Option UpstreamTrack
  isHead : Bool
  peeledOid : Option String

def forEachRef : String := "for-each-ref"

def refListMaxEntries : Nat := 5000

/-- `%(refname)` to `%(*objectname)`, a NUL between each two. -/
def planForEachRef : GitPlan :=
  .read ["for-each-ref",
    "--format=%(refname)%00%(objectname)%00%(objecttype)%00%(symref)%00%(upstream)%00%(upstream:track)%00%(HEAD)%00%(*objectname)",
    "--sort=refname"]

/-- The loop over the parts of a track: what was found of the commits ahead and behind. -/
def readTrackPart (found : Nat × Nat) (part : List Char) : Option (Nat × Nat) :=
  let part := trim part
  match stripPrefix "ahead ".toList part with
  | some value => (parseUnsigned 64 (trim value)).map fun ahead => (ahead, found.2)
  | none =>
      match stripPrefix "behind ".toList part with
      | some value => (parseUnsigned 64 (trim value)).map fun behind => (found.1, behind)
      | none => none

def parseUpstreamTrack (text : String) : Option UpstreamTrack :=
  match trim text.toList with
  | '[' :: rest =>
      if rest.getLast? ≠ some ']' then none
      else if rest.dropLast = "gone".toList then some { ahead := 0, behind := 0, gone := true }
      else
        ((rest.dropLast.splitOn ',').foldlM readTrackPart (0, 0)).map fun (ahead, behind) =>
          { ahead, behind, gone := false }
  | _ => none

def normalizeLine (line : Bytes) : Bytes :=
  if line.getLast? = some 0 then line else line ++ [0]

def endsWithNul (line : Bytes) : Bool := line.getLast? == some 0

def optionalField (field : Bytes) : Except CoreError (Option String) :=
  if field.isEmpty then .ok none else (decodeAscii field forEachRef).map some

def peeledField (fields : List Bytes) : Except CoreError (Option String) :=
  if fields.length = 8 then optionalField (fields.getD 7 []) else .ok none

def parseRefLine (line : Bytes) : Except CoreError RefRecord := do
  let fields ← splitNulFrames (normalizeLine line) forEachRef
  if fields.length = 8 ∨ (fields.length = 7 ∧ endsWithNul line) then do
    let field (index : Nat) : Bytes := fields.getD index []
    let objectType ← decodeAscii (field 2) forEachRef
    let refName ← decodeAscii (field 0) forEachRef
    let oid ← decodeAscii (field 1) forEachRef
    let symref ← optionalField (field 3)
    let upstream ← optionalField (field 4)
    let track ← decodeAscii (field 5) forEachRef
    let head ← decodeAscii (field 6) forEachRef
    let peeledOid ← peeledField fields
    pure
      { refName
        oid
        objectType := if objectType.isEmpty then "unknown" else objectType
        symref
        upstream
        upstreamTrack := parseUpstreamTrack track
        isHead := head == "*"
        peeledOid }
  else
    .error (.outputUnparsable forEachRef s!"expected 8 fields per ref but found {fields.length}")

def readRefLine (maxEntries : Nat) (records : List RefRecord) (line : Bytes) :
    Except CoreError (List RefRecord) :=
  if line.isEmpty then .ok records
  else if maxEntries ≤ records.length then
    .error (.outputUnparsable forEachRef s!"ref listing exceeded {maxEntries} entries")
  else (parseRefLine line).map fun record => records ++ [record]

def parseForEachRef (bytes : Bytes) (maxEntries : Nat) : Except CoreError (List RefRecord) :=
  (bytes.splitOn 0x0a).foldlM (readRefLine maxEntries) []

/-! The listing as Git writes it. -/

abbrev RefBytes := { name : Bytes // name ≠ [] ∧ (0 : UInt8) ∉ name ∧ (0x0a : UInt8) ∉ name }

def RefBytes.text (name : RefBytes) : String := String.ofList (Utf8.decode name.1)

inductive GitObjectType where
  | commit
  | tree
  | blob
  | tag

def GitObjectType.text : GitObjectType → String
  | .commit => "commit"
  | .tree => "tree"
  | .blob => "blob"
  | .tag => "tag"

inductive UpstreamDistance where
  | level
  | gone
  | ahead (commits : UInt64)
  | behind (commits : UInt64)
  | diverged (ours theirs : UInt64)

namespace UpstreamDistance

def text : UpstreamDistance → String
  | .level => ""
  | .gone => "[gone]"
  | .ahead commits => "[ahead " ++ decimalText commits.toNat ++ "]"
  | .behind commits => "[behind " ++ decimalText commits.toNat ++ "]"
  | .diverged ours theirs =>
      "[ahead " ++ decimalText ours.toNat ++ ", behind " ++ decimalText theirs.toNat ++ "]"

def track : UpstreamDistance → Option UpstreamTrack
  | .level => none
  | .gone => some { ahead := 0, behind := 0, gone := true }
  | .ahead commits => some { ahead := commits.toNat, behind := 0, gone := false }
  | .behind commits => some { ahead := 0, behind := commits.toNat, gone := false }
  | .diverged ours theirs => some { ahead := ours.toNat, behind := theirs.toNat, gone := false }

end UpstreamDistance

structure GitRef where
  name : RefBytes
  oid : ObjectName
  objectType : GitObjectType
  symref : Option RefBytes
  upstream : Option RefBytes
  distance : UpstreamDistance
  isHead : Bool
  peeled : Option ObjectName

namespace GitRef

def optionalBytes (name : Option RefBytes) : Bytes :=
  match name with
  | some name => name.1
  | none => []

def fields (ref : GitRef) : List Bytes :=
  [ref.name.1, ref.oid.1, asciiBytes ref.objectType.text, optionalBytes ref.symref,
    optionalBytes ref.upstream, asciiBytes ref.distance.text, if ref.isHead then [0x2a] else [0x20]]

def line (ref : GitRef) : Bytes :=
  match ref.peeled with
  | some oid => nulFrames ref.fields ++ oid.1
  | none => nulFrames ref.fields

def render (refs : List GitRef) : Bytes := refs.flatMap fun ref => ref.line ++ [0x0a]

def record (ref : GitRef) : RefRecord where
  refName := RefBytes.text ref.name
  oid := ref.oid.text
  objectType := ref.objectType.text
  symref := ref.symref.map RefBytes.text
  upstream := ref.upstream.map RefBytes.text
  upstreamTrack := ref.distance.track
  isHead := ref.isHead
  peeledOid := ref.peeled.map ObjectName.text

def names (ref : GitRef) : List RefBytes := ref.name :: (ref.symref.toList ++ ref.upstream.toList)

def Ascii (name : RefBytes) : Prop := ∀ byte ∈ name.1, byte ≤ 0x7f

end GitRef

/-! The distance is read back. -/

theorem trim_of_ends {text : List Char} (first : ∀ char ∈ text.head?, isWhitespace char = false)
    (last : ∀ char ∈ text.getLast?, isWhitespace char = false) : trim text = text := by
  have front : text.dropWhile isWhitespace = text := by
    cases text with
    | nil => rfl
    | cons char rest => rw [List.dropWhile_cons_of_neg (by simp [first char rfl])]
  rw [trim, front, trimEnd, List.rdropWhile_eq_self_iff]
  intro some_char
  simp [last _ (List.getLast_mem_getLast? some_char)]

variable {word : List Char} (count : UInt64) (rest : List Char)

theorem trim_word (first : ∀ char ∈ word.head?, isWhitespace char = false) (value : Nat)
    (some_char : word ≠ []) :
    trim (word ++ (decimalText value).toList) = word ++ (decimalText value).toList := by
  apply trim_of_ends
  · intro char head
    rw [List.head?_append_of_ne_nil _ some_char] at head
    exact first char head
  · intro char last
    rw [List.getLast?_append_of_ne_nil _ (decimalText_ne value)] at last
    exact isWhitespace_digit (isDigit_decimalText value char (List.mem_of_getLast? last))

theorem trim_decimal (value : Nat) :
    trim (decimalText value).toList = (decimalText value).toList := by
  apply trim_of_ends
  · intro char head
    exact isWhitespace_digit (isDigit_decimalText value char (List.mem_of_head? head))
  · intro char last
    exact isWhitespace_digit (isDigit_decimalText value char (List.mem_of_getLast? last))

variable (found : Nat × Nat)

theorem readTrackPart_ahead :
    readTrackPart found ("ahead ".toList ++ (decimalText count.toNat).toList) =
      some (count.toNat, found.2) := by
  unfold readTrackPart
  rw [trim_word (fun _ given => by cases given; rfl) _ (by decide)]
  dsimp only
  rw [stripPrefix_append]
  dsimp only
  rw [trim_decimal, parseUnsigned_decimalText count.toNat_lt]
  rfl

theorem readTrackPart_behind :
    readTrackPart found ("behind ".toList ++ (decimalText count.toNat).toList) =
      some (found.1, count.toNat) := by
  have other : stripPrefix "ahead ".toList
      ("behind ".toList ++ (decimalText count.toNat).toList) = none := rfl
  unfold readTrackPart
  rw [trim_word (fun _ given => by cases given; rfl) _ (by decide)]
  dsimp only
  rw [stripPrefix_append]
  dsimp only
  rw [trim_decimal, parseUnsigned_decimalText count.toNat_lt]
  rfl

theorem parseUpstreamTrack_bracketed {text : String} (inner : List Char)
    (shape : text.toList = '[' :: (inner ++ [']'])) : parseUpstreamTrack text =
      if inner = "gone".toList then some { ahead := 0, behind := 0, gone := true }
      else ((inner.splitOn ',').foldlM readTrackPart (0, 0)).map fun (ahead, behind) =>
        { ahead, behind, gone := false } := by
  have whole : trim ('[' :: (inner ++ [']'])) = '[' :: (inner ++ [']']) := by
    apply trim_of_ends
    · simp only [List.head?_cons, Option.mem_some_iff, forall_eq']
      rfl
    · rw [← List.cons_append, List.getLast?_concat]
      simp only [Option.mem_some_iff, forall_eq']
      rfl
  unfold parseUpstreamTrack
  rw [shape, whole]
  change (if (inner ++ [']']).getLast? ≠ some ']' then none
    else if (inner ++ [']']).dropLast = "gone".toList then _ else _) = _
  rw [List.getLast?_concat, List.dropLast_concat, if_neg (by simp)]

theorem comma_free_count (free : ',' ∉ word) (count : UInt64) :
    ',' ∉ word ++ (decimalText count.toNat).toList := by
  rw [List.mem_append, not_or]
  exact ⟨free, not_mem_decimalText (by decide) _⟩

theorem ahead_ne_gone : "ahead ".toList ++ rest ≠ "gone".toList := fun same =>
  absurd (List.cons.inj same).1 (by decide)

theorem behind_ne_gone : "behind ".toList ++ rest ≠ "gone".toList := fun same =>
  absurd (List.cons.inj same).1 (by decide)

theorem readTrackPart_spaced (part : List Char) :
    readTrackPart found (' ' :: part) = readTrackPart found part := by
  unfold readTrackPart
  rw [show trim (' ' :: part) = trim part from rfl]

theorem parseUpstreamTrack_text (distance : UpstreamDistance) :
    parseUpstreamTrack distance.text = distance.track := by
  cases distance with
  | level => decide
  | gone => decide
  | ahead commits =>
    rw [parseUpstreamTrack_bracketed ("ahead ".toList ++ (decimalText commits.toNat).toList)
        (by simp [UpstreamDistance.text]),
      if_neg (ahead_ne_gone _), List.splitOn_eq_singleton (comma_free_count (by decide) _),
      List.foldlM_cons, readTrackPart_ahead]
    rfl
  | behind commits =>
    rw [parseUpstreamTrack_bracketed ("behind ".toList ++ (decimalText commits.toNat).toList)
        (by simp [UpstreamDistance.text]),
      if_neg (behind_ne_gone _), List.splitOn_eq_singleton (comma_free_count (by decide) _),
      List.foldlM_cons, readTrackPart_behind]
    rfl
  | diverged ours theirs =>
    rw [parseUpstreamTrack_bracketed ("ahead ".toList ++ (decimalText ours.toNat).toList ++
          ',' :: ' ' :: ("behind ".toList ++ (decimalText theirs.toNat).toList))
        (by simp [UpstreamDistance.text]),
      List.append_assoc, if_neg (ahead_ne_gone _), ← List.append_assoc,
      List.splitOn_append_cons_self_of_not_mem (comma_free_count (by decide) _),
      List.splitOn_eq_singleton (by simp [not_mem_decimalText]),
      List.foldlM_cons, readTrackPart_ahead]
    rw [Option.bind_eq_bind, Option.bind_some, List.foldlM_cons, readTrackPart_spaced,
      readTrackPart_behind]
    rfl

/-! So is the line. -/

theorem decodeAscii_eq_ok {bytes : Bytes} {format text : String} :
    decodeAscii bytes format = .ok text ↔
      (∀ byte ∈ bytes, byte ≤ 0x7f) ∧ text = asciiText bytes := by
  constructor
  · intro decoded
    have ascii : ∀ byte ∈ bytes, byte ≤ 0x7f := by
      intro byte member
      by_contra above
      obtain ⟨detail, failed⟩ := decodeAscii_of_gt member (UInt8.not_le.mp above) format
      rw [failed] at decoded
      cases decoded
    rw [decodeAscii_of_le ascii] at decoded
    exact ⟨ascii, (Except.ok.inj decoded).symm⟩
  · rintro ⟨ascii, rfl⟩
    exact decodeAscii_of_le ascii format

namespace GitRef

variable (ref : GitRef)
variable (objectType : GitObjectType) (distance : UpstreamDistance) (name : Option RefBytes)
  (refs : List GitRef) {maxEntries : Nat} {records : List RefRecord}

theorem isAscii_objectType : IsAscii objectType.text := by
  cases objectType <;> decide

theorem isAscii_distance : IsAscii distance.text := by
  have count (value : UInt64) : IsAscii (decimalText value.toNat) := isAscii_decimalText _
  cases distance with
  | level => decide
  | gone => decide
  | ahead commits =>
    exact .append (.append (by decide) (count commits)) (by decide)
  | behind commits =>
    exact .append (.append (by decide) (count commits)) (by decide)
  | diverged ours theirs =>
    exact .append (.append (.append (.append (by decide) (count ours)) (by decide))
      (count theirs)) (by decide)

def Plain (bytes : Bytes) : Prop := (0 : UInt8) ∉ bytes ∧ (0x0a : UInt8) ∉ bytes

theorem Plain.append {front back : Bytes} (left : Plain front) (right : Plain back) :
    Plain (front ++ back) := by
  unfold Plain
  rw [List.mem_append, List.mem_append, not_or, not_or]
  exact ⟨⟨left.1, right.1⟩, ⟨left.2, right.2⟩⟩

theorem plain_decimal (count : UInt64) : Plain (asciiBytes (decimalText count.toNat)) :=
  ⟨notMem_decimalBytes (by decide) _, notMem_decimalBytes (by decide) _⟩

theorem plain_objectName (oid : ObjectName) : Plain oid.1 :=
  ⟨notMem_objectName oid (by decide), notMem_objectName oid (by decide)⟩

theorem plain_objectType : Plain (asciiBytes objectType.text) := by
  cases objectType <;> exact ⟨by decide, by decide⟩

theorem plain_distance : Plain (asciiBytes distance.text) := by
  cases distance with
  | level => exact ⟨by decide, by decide⟩
  | gone => exact ⟨by decide, by decide⟩
  | ahead commits =>
    simp only [UpstreamDistance.text, asciiBytes_append]
    exact .append (.append ⟨by decide, by decide⟩ (plain_decimal commits)) ⟨by decide, by decide⟩
  | behind commits =>
    simp only [UpstreamDistance.text, asciiBytes_append]
    exact .append (.append ⟨by decide, by decide⟩ (plain_decimal commits)) ⟨by decide, by decide⟩
  | diverged ours theirs =>
    simp only [UpstreamDistance.text, asciiBytes_append]
    exact .append (.append (.append (.append ⟨by decide, by decide⟩ (plain_decimal ours))
      ⟨by decide, by decide⟩) (plain_decimal theirs)) ⟨by decide, by decide⟩

theorem plain_optional : Plain (optionalBytes name) := by
  cases name with
  | none => exact ⟨List.not_mem_nil, List.not_mem_nil⟩
  | some name => exact name.2.2

theorem plain_fields : ∀ field ∈ ref.fields, Plain field := by
  unfold fields
  simp only [List.mem_cons, List.not_mem_nil, or_false, forall_eq_or_imp, forall_eq]
  refine ⟨ref.name.2.2, plain_objectName _, plain_objectType _, plain_optional _,
    plain_optional _, plain_distance _, ?_⟩
  cases ref.isHead <;> exact ⟨by decide, by decide⟩

def present : List Bytes := ref.fields ++ ref.peeled.toList.map fun oid => oid.1

theorem plain_present : ∀ field ∈ ref.present, Plain field := by
  intro field member
  rw [present, List.mem_append, List.mem_map] at member
  cases member with
  | inl fixed => exact ref.plain_fields field fixed
  | inr peeled =>
    obtain ⟨oid, -, rfl⟩ := peeled
    exact plain_objectName oid

theorem getLast?_fields : (nulFrames ref.fields).getLast? = some 0 := by
  have last (front : List Bytes) (frame : Bytes) :
      (nulFrames (front ++ [frame])).getLast? = some 0 := by
    simp [nulFrames]
  exact last (ref.fields.take 6) (if ref.isHead then [0x2a] else [0x20])

theorem normalizeLine_line : normalizeLine ref.line = nulFrames ref.present := by
  unfold line present normalizeLine
  cases ref.peeled with
  | none =>
    rw [if_pos ref.getLast?_fields, Option.toList_none, List.map_nil, List.append_nil]
  | some oid =>
    have last : (nulFrames ref.fields ++ oid.1).getLast? ≠ some 0 := by
      rw [List.getLast?_append_of_ne_nil _ (objectName_ne oid)]
      exact fun found => (plain_objectName oid).1 (List.mem_of_getLast? found)
    rw [if_neg last]
    simp [nulFrames]

theorem complete_line : ref.present.length = 8 ∨
    (ref.present.length = 7 ∧ endsWithNul ref.line = true) := by
  unfold present line endsWithNul
  cases ref.peeled with
  | none =>
    right
    rw [ref.getLast?_fields]
    exact ⟨rfl, rfl⟩
  | some oid => exact .inl rfl

theorem optionalField_optional : optionalField (optionalBytes name) = match name with
      | none => .ok none
      | some name => (decodeAscii name.1 forEachRef).map some := by
  cases name with
  | none => rfl
  | some name =>
    unfold optionalField
    rw [if_neg (by simpa [optionalBytes] using name.2.1)]
    rfl

theorem text_name {name : RefBytes} (ascii : Ascii name) :
    RefBytes.text name = asciiText name.1 := by
  rw [RefBytes.text, Utf8.decode_ascii ascii, asciiText]

theorem parseRefLine_line : parseRefLine ref.line = (do
    let refName ← decodeAscii ref.name.1 forEachRef
    let symref ← optionalField (optionalBytes ref.symref)
    let upstream ← optionalField (optionalBytes ref.upstream)
    pure { ref.record with refName, symref, upstream }) := by
  have frames : splitNulFrames (normalizeLine ref.line) forEachRef = .ok ref.present := by
    rw [ref.normalizeLine_line]
    exact splitNulFrames_nulFrames (fun field member => (ref.plain_present field member).1) _
  have head : decodeAscii (if ref.isHead then [0x2a] else [0x20]) forEachRef =
      .ok (if ref.isHead then "*" else " ") := by
    cases ref.isHead <;> rfl
  have peeled : peeledField ref.present = .ok (ref.peeled.map ObjectName.text) := by
    unfold peeledField present
    cases ref.peeled with
    | none => rfl
    | some oid =>
      change optionalField oid.1 = _
      rw [optionalField, if_neg (by simpa using objectName_ne oid), decodeAscii_objectName]
      rfl
  have kind : (if ref.objectType.text.isEmpty then "unknown" else ref.objectType.text) =
      ref.objectType.text := by
    cases ref.objectType <;> rfl
  have current : ((if ref.isHead then "*" else " ") == "*") = ref.isHead := by
    cases ref.isHead <;> rfl
  unfold parseRefLine
  rw [frames]
  change (if ref.present.length = 8 ∨ _ then _ else _) = _
  rw [if_pos ref.complete_line]
  change (do
    let objectType ← decodeAscii (asciiBytes ref.objectType.text) forEachRef
    let refName ← decodeAscii ref.name.1 forEachRef
    let oid ← decodeAscii ref.oid.1 forEachRef
    let symref ← optionalField (optionalBytes ref.symref)
    let upstream ← optionalField (optionalBytes ref.upstream)
    let track ← decodeAscii (asciiBytes ref.distance.text) forEachRef
    let head ← decodeAscii (if ref.isHead then [0x2a] else [0x20]) forEachRef
    let peeledOid ← peeledField ref.present
    pure (RefRecord.mk refName oid (if objectType.isEmpty then "unknown" else objectType) symref
      upstream (parseUpstreamTrack track) (head == "*") peeledOid)) = _
  rw [decodeAscii_asciiBytes (isAscii_objectType _), decodeAscii_objectName,
    decodeAscii_asciiBytes (isAscii_distance _), head, peeled]
  change (do
    let refName ← decodeAscii ref.name.1 forEachRef
    let symref ← optionalField (optionalBytes ref.symref)
    let upstream ← optionalField (optionalBytes ref.upstream)
    pure (RefRecord.mk refName ref.oid.text _ symref upstream
      (parseUpstreamTrack ref.distance.text) _ (ref.peeled.map ObjectName.text))) = _
  rw [kind, current, parseUpstreamTrack_text]
  rfl

theorem optionalField_eq_ok {name : Option RefBytes} {text : Option String} :
    optionalField (optionalBytes name) = .ok text ↔
      (∀ given ∈ name, Ascii given) ∧ text = name.map RefBytes.text := by
  rw [optionalField_optional]
  cases name with
  | none => simp [eq_comm]
  | some name =>
    simp only [Option.mem_some_iff, forall_eq', Option.map_some]
    constructor
    · intro decoded
      cases found : decodeAscii name.1 forEachRef with
      | error error =>
        rw [found] at decoded
        cases decoded
      | ok shown =>
        obtain ⟨ascii, rfl⟩ := decodeAscii_eq_ok.mp found
        rw [found] at decoded
        exact ⟨ascii, (Except.ok.inj decoded).symm.trans (congrArg some (text_name ascii).symm)⟩
    · rintro ⟨ascii, rfl⟩
      rw [decodeAscii_of_le ascii, text_name ascii]
      rfl

theorem parseRefLine_eq_ok {ref : GitRef} {record : RefRecord} :
    parseRefLine ref.line = .ok record ↔
      (∀ name ∈ ref.names, Ascii name) ∧ record = ref.record := by
  rw [parseRefLine_line]
  constructor
  · intro parsed
    obtain ⟨refName, named, parsed⟩ := bind_eq_ok.mp parsed
    obtain ⟨symref, pointed, parsed⟩ := bind_eq_ok.mp parsed
    obtain ⟨upstream, followed, parsed⟩ := bind_eq_ok.mp parsed
    obtain ⟨ascii, rfl⟩ := decodeAscii_eq_ok.mp named
    obtain ⟨symrefAscii, rfl⟩ := optionalField_eq_ok.mp pointed
    obtain ⟨upstreamAscii, rfl⟩ := optionalField_eq_ok.mp followed
    refine ⟨?_, ?_⟩
    · intro name member
      simp only [names, List.mem_cons, List.mem_append, Option.mem_toList] at member
      rcases member with rfl | pointed | followed
      · exact ascii
      · exact symrefAscii name pointed
      · exact upstreamAscii name followed
    · rw [← text_name ascii] at parsed
      exact (Except.ok.inj parsed).symm
  · rintro ⟨ascii, rfl⟩
    have symref : optionalField (optionalBytes ref.symref) = .ok (ref.symref.map RefBytes.text) :=
      optionalField_eq_ok.mpr
        ⟨fun name given => ascii name (by simp [names, Option.mem_def.mp given]), rfl⟩
    have upstream : optionalField (optionalBytes ref.upstream) =
        .ok (ref.upstream.map RefBytes.text) :=
      optionalField_eq_ok.mpr
        ⟨fun name given => ascii name (by simp [names, Option.mem_def.mp given]), rfl⟩
    have own : Ascii ref.name := ascii _ List.mem_cons_self
    rw [decodeAscii_of_le own, symref, upstream, ← text_name own]
    rfl

theorem plain_line : (0x0a : UInt8) ∉ ref.line := by
  have frames (fields : List Bytes) (plain : ∀ field ∈ fields, Plain field) :
      (0x0a : UInt8) ∉ nulFrames fields := by
    intro member
    obtain ⟨field, given, inside⟩ := List.mem_flatMap.mp member
    rw [List.mem_append, List.mem_singleton] at inside
    exact inside.elim (plain field given).2 (by decide)
  unfold line
  cases ref.peeled with
  | none => exact frames _ ref.plain_fields
  | some oid =>
    rw [List.mem_append, not_or]
    exact ⟨frames _ ref.plain_fields, (plain_objectName oid).2⟩

theorem splitOn_render : (render refs).splitOn 0x0a = refs.map line ++ [[]] := by
  induction refs with
  | nil => rfl
  | cons ref rest ih =>
    rw [render, List.flatMap_cons, List.append_assoc, List.singleton_append,
      List.splitOn_append_cons_self_of_not_mem ref.plain_line, List.map_cons, List.cons_append]
    exact congrArg _ ih

theorem line_ne : ref.line.isEmpty = false := by
  unfold line fields nulFrames
  cases ref.peeled <;> simp [ref.name.2.1]

theorem readRefLines_eq_ok {result : List RefRecord} (bound : records.length ≤ maxEntries) :
    (refs.map line ++ [[]]).foldlM (readRefLine maxEntries) records = .ok result ↔
      (∀ ref ∈ refs, ∀ name ∈ ref.names, Ascii name) ∧
        records.length + refs.length ≤ maxEntries ∧ result = records ++ refs.map record := by
  induction refs generalizing records with
  | nil =>
    change Except.ok records = .ok result ↔ _
    simp [bound, eq_comm]
  | cons ref rest ih =>
    rw [List.map_cons, List.cons_append, List.foldlM_cons, bind_eq_ok]
    have step (next : List RefRecord) : readRefLine maxEntries records ref.line = .ok next ↔
        records.length < maxEntries ∧ (∀ name ∈ ref.names, Ascii name) ∧
          next = records ++ [ref.record] := by
      unfold readRefLine
      rw [ref.line_ne, if_neg Bool.false_ne_true]
      by_cases full : maxEntries ≤ records.length
      · rw [if_pos full]
        exact iff_of_false (fun failed => by cases failed) (fun fits => by omega)
      · rw [if_neg full, map_eq_ok]
        constructor
        · rintro ⟨found, parsed, rfl⟩
          obtain ⟨ascii, rfl⟩ := parseRefLine_eq_ok.mp parsed
          exact ⟨by omega, ascii, rfl⟩
        · rintro ⟨-, ascii, rfl⟩
          exact ⟨ref.record, parseRefLine_eq_ok.mpr ⟨ascii, rfl⟩, rfl⟩
    constructor
    · rintro ⟨next, read, rest_read⟩
      obtain ⟨fits, ascii, rfl⟩ := (step next).mp read
      have grown : (records ++ [ref.record]).length ≤ maxEntries := by
        rw [List.length_append, List.length_singleton]
        exact fits
      obtain ⟨all, within, rfl⟩ := (ih grown).mp rest_read
      rw [List.length_append, List.length_singleton] at within
      refine ⟨List.forall_mem_cons.mpr ⟨ascii, all⟩, ?_, ?_⟩
      · rw [List.length_cons]
        omega
      · rw [List.append_assoc, List.singleton_append, List.map_cons]
    · rintro ⟨all, within, rfl⟩
      rw [List.forall_mem_cons] at all
      rw [List.length_cons] at within
      have grown : (records ++ [ref.record]).length ≤ maxEntries := by
        rw [List.length_append, List.length_singleton]
        omega
      refine ⟨records ++ [ref.record], (step _).mpr ⟨by omega, all.1, rfl⟩, (ih grown).mpr ?_⟩
      refine ⟨all.2, ?_, ?_⟩
      · rw [List.length_append, List.length_singleton]
        omega
      · rw [List.append_assoc, List.singleton_append, List.map_cons]

theorem parseForEachRef_render {refs : List GitRef} :
    parseForEachRef (render refs) maxEntries = .ok records ↔
      (∀ ref ∈ refs, ∀ name ∈ ref.names, Ascii name) ∧ refs.length ≤ maxEntries ∧
        records = refs.map record := by
  rw [parseForEachRef, splitOn_render, readRefLines_eq_ok refs (Nat.zero_le _)]
  rw [List.length_nil, Nat.zero_add, List.nil_append]

end GitRef

end Refyard
