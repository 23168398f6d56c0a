import Refyard.Core.CatFile
import Refyard.Foundation.Fallible

/-! What the decoder makes of a stream, wherever the stream is cut. -/
namespace Refyard

structure IsToken (text : String) : Prop where
  ascii : IsAscii text
  solid : ' ' ∉ text.toList
  oneLine : '\n' ∉ text.toList

instance (text : String) : Decidable (IsToken text) :=
  decidable_of_iff (IsAscii text ∧ ' ' ∉ text.toList ∧ '\n' ∉ text.toList)
    ⟨fun h => ⟨h.1, h.2.1, h.2.2⟩, fun h => ⟨h.ascii, h.solid, h.oneLine⟩⟩

namespace CatFileEntry

def headerText : CatFileEntry → String
  | .object oid objectType body =>
      oid ++ " " ++ objectType.asStr ++ " " ++ decimalText body.length
  | .missing input => input ++ " missing"

/-- The answer as `git cat-file --batch` writes it. -/
def render : CatFileEntry → Bytes
  | .object oid objectType body =>
      asciiBytes (headerText (.object oid objectType body)) ++ [0x0a] ++ body ++ [0x0a]
  | .missing input => asciiBytes (headerText (.missing input)) ++ [0x0a]

def Framed : CatFileEntry → Prop
  | .object oid _ body => IsToken oid ∧ body.length ≤ objectMaxBytes
  | .missing input => IsToken input

instance (entry : CatFileEntry) : Decidable entry.Framed :=
  match entry with
  | .object .. => inferInstanceAs (Decidable (_ ∧ _))
  | .missing _ => inferInstanceAs (Decidable (IsToken _))

end CatFileEntry

theorem isToken_asStr (objectType : CatFileObjectType) : IsToken objectType.asStr := by
  cases objectType <;> decide

theorem fromName_asStr (objectType : CatFileObjectType) :
    CatFileObjectType.fromName objectType.asStr = some objectType := by
  cases objectType <;> decide

theorem isToken_decimalText (value : Nat) : IsToken (decimalText value) :=
  ⟨isAscii_decimalText value, not_mem_decimalText (by decide) value,
    not_mem_decimalText (by decide) value⟩

theorem parseHeaderLine_missing {input : String} (token : IsToken input) :
    parseHeaderLine (asciiBytes (input ++ " missing")) = .ok (.missing input) := by
  have ascii : IsAscii (input ++ " missing") := token.ascii.append (by decide)
  have cut := splitOnce_append token.solid "missing".toList
  have chars : (input ++ " missing").toList = input.toList ++ ' ' :: "missing".toList := by
    rw [String.toList_append]
    rfl
  unfold parseHeaderLine
  rw [decodeAscii_asciiBytes ascii]
  simp only [bind, Except.bind, chars, cut, decide_true, Bool.true_or, if_true,
    String.ofList_toList]

variable {oid : String} {objectType : CatFileObjectType} {size : Nat} {body line : Bytes}
  {entries : List CatFileEntry}

theorem parseTypeAndSize_decimal (small : size < 2 ^ 64) :
    parseTypeAndSize oid objectType.asStr.toList (decimalText size).toList =
      if size > objectMaxBytes then
        .error (catFileUnparsable
          s!"object of {size} bytes exceeds the {objectMaxBytes} byte limit")
      else .ok (.object oid objectType size) := by
  have digits : (decimalText size).toList.all Char.isDigit = true :=
    List.all_eq_true.mpr (isDigit_decimalText size)
  have some_digit : (decimalText size).toList.isEmpty = false := by
    simpa using decimalText_ne size
  unfold parseTypeAndSize
  simp only [some_digit, digits, String.ofList_toList, fromName_asStr, decimalValue_decimalText,
    Bool.not_true, Bool.or_self, Bool.false_eq_true, if_false, if_neg (Nat.not_le.mpr small)]

theorem object_header (token : IsToken oid) (objectType : CatFileObjectType) (body : Bytes) :
    IsAscii (CatFileEntry.headerText (.object oid objectType body)) ∧
      '\n' ∉ (CatFileEntry.headerText (.object oid objectType body)).toList := by
  have size := isToken_decimalText body.length
  have kind := isToken_asStr objectType
  constructor
  · exact (((token.ascii.append (by decide)).append kind.ascii).append (by decide)).append
      size.ascii
  · simp only [CatFileEntry.headerText, String.toList_append, List.mem_append, not_or]
    exact ⟨⟨⟨⟨token.oneLine, by decide⟩, kind.oneLine⟩, by decide⟩, size.oneLine⟩

theorem parseTypeAndSize_wide (wide : 2 ^ 64 ≤ size) :
    parseTypeAndSize oid objectType.asStr.toList (decimalText size).toList =
      .error (catFileUnparsable
        s!"object of {String.ofList (decimalText size).toList} bytes exceeds the {objectMaxBytes} byte limit") := by
  have digits : (decimalText size).toList.all Char.isDigit = true :=
    List.all_eq_true.mpr (isDigit_decimalText size)
  have some_digit : (decimalText size).toList.isEmpty = false := by
    simpa using decimalText_ne size
  unfold parseTypeAndSize
  rw [some_digit, digits]
  simp only [String.ofList_toList, fromName_asStr, decimalValue_decimalText, Bool.not_true,
    Bool.or_self, Bool.false_eq_true, if_false, if_pos wide]

theorem parseHeaderLine_words (token : IsToken oid) (objectType : CatFileObjectType) (body : Bytes) :
    parseHeaderLine (asciiBytes (CatFileEntry.headerText (.object oid objectType body))) =
      parseTypeAndSize oid objectType.asStr.toList (decimalText body.length).toList := by
  have size := isToken_decimalText body.length
  obtain ⟨ascii, -⟩ := object_header token objectType body
  have cut := splitOnce_append token.solid
    (objectType.asStr.toList ++ ' ' :: (decimalText body.length).toList)
  have chars : (CatFileEntry.headerText (.object oid objectType body)).toList =
      oid.toList ++ ' ' :: (objectType.asStr.toList ++ ' ' :: (decimalText body.length).toList) := by
    simp [CatFileEntry.headerText]
  have words : (objectType.asStr.toList ++ ' ' :: (decimalText body.length).toList).splitOn ' ' =
      [objectType.asStr.toList, (decimalText body.length).toList] := by
    rw [List.splitOn_append_cons_self_of_not_mem (isToken_asStr objectType).solid,
      List.splitOn_eq_singleton size.solid]
  have kinds :
      (objectType.asStr.toList ++ ' ' :: (decimalText body.length).toList = "missing".toList ||
        "missing ".toList.isPrefixOf
          (objectType.asStr.toList ++ ' ' :: (decimalText body.length).toList)) = false ∧
      "ambiguous".toList.isPrefixOf
        (objectType.asStr.toList ++ ' ' :: (decimalText body.length).toList) = false := by
    cases objectType <;> simp [CatFileObjectType.asStr, List.isPrefixOf]
  unfold parseHeaderLine
  rw [decodeAscii_asciiBytes ascii]
  simp only [bind, Except.bind, chars, cut, kinds.1, kinds.2, words, Bool.false_eq_true,
    if_false, String.ofList_toList]

theorem parseHeaderLine_object (token : IsToken oid) (objectType : CatFileObjectType)
    (small : body.length < 2 ^ 64) :
    parseHeaderLine (asciiBytes (CatFileEntry.headerText (.object oid objectType body))) =
      if body.length > objectMaxBytes then
        .error (catFileUnparsable
          s!"object of {body.length} bytes exceeds the {objectMaxBytes} byte limit")
      else .ok (.object oid objectType body.length) := by
  rw [parseHeaderLine_words token, parseTypeAndSize_decimal small]

theorem parseHeaderLine_oversized (token : IsToken oid) (objectType : CatFileObjectType)
    (large : body.length > objectMaxBytes) :
    ∃ error, parseHeaderLine (asciiBytes (CatFileEntry.headerText (.object oid objectType body))) =
        .error error := by
  by_cases small : body.length < 2 ^ 64
  · rw [parseHeaderLine_object token objectType small, if_pos large]
    exact ⟨_, rfl⟩
  · rw [parseHeaderLine_words token, parseTypeAndSize_wide (Nat.not_lt.mp small)]
    exact ⟨_, rfl⟩

theorem findIdx?_newline (oneLine : 0x0a ∉ line) (rest : Bytes) :
    (line ++ 0x0a :: rest).findIdx? (fun byte => byte = 0x0a) = some line.length := by
  have absent : line.findIdx? (fun byte => byte = 0x0a) = none := by
    rw [List.findIdx?_eq_none_iff]
    intro byte member
    rw [decide_eq_false_iff_not]
    rintro rfl
    exact oneLine member
  rw [List.findIdx?_append, absent, List.findIdx?_cons]
  simp

theorem drop_newline (line rest : Bytes) : (line ++ 0x0a :: rest).drop (line.length + 1) = rest := by
  rw [← List.drop_drop, List.drop_left, List.drop_one, List.tail_cons]

theorem readHeader_cut (oneLine : 0x0a ∉ line) (rest : Bytes) :
    readHeader [] (line ++ 0x0a :: rest) = match parseHeaderLine line with
      | .error error => .fail error
      | .ok (.missing input) => .advance {} [.missing input] rest
      | .ok (.object _ _ size) =>
          .advance { expectedBody := some size, headerLine := line } [] rest := by
  cases parsed : parseHeaderLine line with
  | error error =>
    simp only [readHeader, findIdx?_newline oneLine, List.nil_append, List.take_left, parsed]
  | ok header =>
    cases header <;>
      simp only [readHeader, findIdx?_newline oneLine, List.nil_append, List.take_left, parsed,
        drop_newline]

theorem readHeader_line {text : String} (ascii : IsAscii text) (oneLine : '\n' ∉ text.toList)
    (rest : Bytes) :
    readHeader [] (asciiBytes text ++ 0x0a :: rest) = match parseHeaderLine (asciiBytes text) with
      | .error error => .fail error
      | .ok (.missing input) => .advance {} [.missing input] rest
      | .ok (.object _ _ size) =>
          .advance { expectedBody := some size, headerLine := asciiBytes text } [] rest :=
  readHeader_cut (fun member => oneLine ((charByte_mem ascii (by decide)).mp member)) rest

variable {header buffer stream : Bytes} {entry : CatFileEntry} {name : String}

theorem materialize_object (parsed : parseHeaderLine header = .ok (.object oid objectType size)) :
    materialize header body = .ok (.object oid objectType body) := by
  unfold materialize
  rw [parsed]
  rfl

theorem readBody_whole (parsed : parseHeaderLine header = .ok (.object oid objectType size))
    (fits : body.length ≤ objectMaxBytes) (rest : Bytes) :
    readBody header body.length (body ++ 0x0a :: rest) =
      .advance {} [.object oid objectType body] rest := by
  have whole : ¬(body ++ 0x0a :: rest).length < body.length + 1 := by
    rw [List.length_append, List.length_cons]
    omega
  unfold readBody
  simp only [if_neg whole, List.getElem?_append_right (Nat.le_refl _), Nat.sub_self,
    List.getElem?_cons_zero, ne_eq, not_true_eq_false, if_false, List.take_left,
    if_neg (Nat.not_lt.mpr fits), materialize_object parsed, drop_past]

theorem headerText_oneLine (framed : entry.Framed) :
    IsAscii entry.headerText ∧ '\n' ∉ entry.headerText.toList := by
  cases entry with
  | object oid objectType body => exact object_header framed.1 objectType body
  | missing input =>
    constructor
    · exact framed.ascii.append (by decide)
    · simp only [CatFileEntry.headerText, String.toList_append, List.mem_append, not_or]
      exact ⟨framed.oneLine, by decide⟩

theorem drain_entry (framed : entry.Framed) (rest : Bytes) :
    catFile.drain ⟨{}, entry.render ++ rest⟩ = Decoded.after [entry] (catFile.drain ⟨{}, rest⟩) := by
  obtain ⟨ascii, oneLine⟩ := headerText_oneLine framed
  cases entry with
  | missing input =>
    have parsed := readHeader_line ascii oneLine rest
    rw [CatFileEntry.headerText, parseHeaderLine_missing framed] at parsed
    refine Framing.drain_of_advance ?_
    simpa [CatFileEntry.render, CatFileEntry.headerText, catFile, readCatFile] using parsed
  | object oid objectType body =>
    have small : body.length < 2 ^ 64 := Nat.lt_of_le_of_lt framed.2 (by decide)
    have header := parseHeaderLine_object framed.1 objectType small
    rw [if_neg (Nat.not_lt.mpr framed.2)] at header
    have promised := readHeader_line ascii oneLine (body ++ 0x0a :: rest)
    rw [header] at promised
    have whole := readBody_whole header framed.2 rest
    have first : catFile.drain ⟨{}, CatFileEntry.render (.object oid objectType body) ++ rest⟩ = _ :=
      Framing.drain_of_advance (by simpa [CatFileEntry.render, catFile, readCatFile] using promised)
    rw [first, Framing.drain_of_advance (by simpa [catFile, readCatFile] using whole),
      Decoded.after_nil]

theorem drain_entries (framed : ∀ entry ∈ entries, entry.Framed) :
    catFile.drain ⟨{}, entries.flatMap CatFileEntry.render⟩ = .ok (entries, CatFileDecoder.new) := by
  induction entries with
  | nil => rfl
  | cons entry rest ih =>
    rw [List.flatMap_cons, drain_entry (framed entry List.mem_cons_self),
      ih fun other member => framed other (List.mem_cons_of_mem _ member)]
    rfl

theorem pushAll_new (chunks : List Bytes) :
    catFile.pushAll CatFileDecoder.new chunks = catFile.drain ⟨{}, chunks.flatten⟩ := by
  have settled : catFile.Settled CatFileDecoder.new := rfl
  rw [Framing.pushAll_eq_drain settled]
  rfl

theorem decodeChunks_entries {chunks : List Bytes} (framed : ∀ entry ∈ entries, entry.Framed)
    (stream : chunks.flatten = entries.flatMap CatFileEntry.render) :
    decodeChunks chunks = .ok entries := by
  unfold decodeChunks
  rw [pushAll_new, stream, drain_entries framed]
  rfl

/-- Framed answers come back as they were, and no stream is decoded differently because
it was cut elsewhere. -/
theorem cat_file_decoder :
    (∀ (entries : List CatFileEntry) (chunks : List Bytes), (∀ entry ∈ entries, entry.Framed) →
        chunks.flatten = entries.flatMap CatFileEntry.render → decodeChunks chunks = .ok entries) ∧
      ∀ chunks others : List Bytes, chunks.flatten = others.flatten →
        catFile.pushAll CatFileDecoder.new chunks = catFile.pushAll CatFileDecoder.new others ∧
          decodeChunks chunks = decodeChunks others := by
  constructor
  · intro entries chunks framed stream
    exact decodeChunks_entries framed stream
  · intro chunks others same
    have pushed : catFile.pushAll CatFileDecoder.new chunks =
        catFile.pushAll CatFileDecoder.new others := by
      rw [pushAll_new, pushAll_new, same]
    refine ⟨pushed, ?_⟩
    unfold decodeChunks
    rw [pushed]

theorem cat_file_decoder_cut_in_body :
    decodeChunks [asciiBytes "ab ta", asciiBytes "g 3\nx\n", asciiBytes "y\ncd missing\n"] =
      .ok [.object "ab" .tag (asciiBytes "x\ny"), .missing "cd"] :=
  cat_file_decoder.1 _ _ (by decide) (by decide)

theorem drain_oversized (token : IsToken oid) (objectType : CatFileObjectType)
    (large : body.length > objectMaxBytes) (rest : Bytes) :
    ∃ error, catFile.drain ⟨{}, CatFileEntry.render (.object oid objectType body) ++ rest⟩ =
      .error error := by
  obtain ⟨error, header⟩ := parseHeaderLine_oversized token objectType large
  obtain ⟨ascii, oneLine⟩ := object_header token objectType body
  have refused := readHeader_line ascii oneLine (body ++ 0x0a :: rest)
  rw [header] at refused
  refine ⟨error, Framing.drain_of_fail ?_⟩
  simpa [CatFileEntry.render, catFile, readCatFile] using refused

theorem decodeChunks_oversized (token : IsToken oid) (objectType : CatFileObjectType)
    (large : body.length > objectMaxBytes) :
    ∃ error, decodeChunks [CatFileEntry.render (.object oid objectType body)] = .error error := by
  obtain ⟨error, fails⟩ := drain_oversized token objectType large []
  rw [List.append_nil] at fails
  unfold decodeChunks
  rw [pushAll_new, List.flatten_singleton, fails]
  exact ⟨error, rfl⟩

def CatFileEntry.Named : CatFileEntry → Prop
  | .object oid _ _ => IsToken oid
  | .missing input => IsToken input

theorem framed_of_drain (named : ∀ entry ∈ entries, entry.Named)
    {found : List CatFileEntry × CatFileDecoder}
    (drained : catFile.drain ⟨{}, entries.flatMap CatFileEntry.render⟩ = .ok found) :
    ∀ entry ∈ entries, entry.Framed := by
  induction entries generalizing found with
  | nil => exact List.forall_mem_nil _
  | cons entry rest ih =>
    rw [List.forall_mem_cons] at named
    rw [List.flatMap_cons] at drained
    have framed : entry.Framed := by
      cases entry with
      | missing input => exact named.1
      | object oid objectType body =>
        refine ⟨named.1, Nat.not_lt.mp fun large => ?_⟩
        obtain ⟨error, fails⟩ :=
          drain_oversized named.1 objectType large (rest.flatMap CatFileEntry.render)
        rw [fails] at drained
        cases drained
    rw [drain_entry framed] at drained
    cases later : catFile.drain ⟨{}, rest.flatMap CatFileEntry.render⟩ with
    | error error =>
      rw [later] at drained
      cases drained
    | ok others => exact List.forall_mem_cons.mpr ⟨framed, ih named.2 later⟩

theorem decodeChunks_eq_ok {found : List CatFileEntry} (named : ∀ entry ∈ entries, entry.Named) :
    decodeChunks [entries.flatMap CatFileEntry.render] = .ok found ↔
      (∀ entry ∈ entries, entry.Framed) ∧ found = entries := by
  constructor
  · intro decoded
    have framed : ∀ entry ∈ entries, entry.Framed := by
      cases drained : catFile.drain ⟨{}, entries.flatMap CatFileEntry.render⟩ with
      | error error =>
        rw [decodeChunks, pushAll_new, List.flatten_singleton, drained] at decoded
        cases decoded
      | ok result => exact framed_of_drain named drained
    rw [decodeChunks_entries framed (List.append_nil _)] at decoded
    exact ⟨framed, (Except.ok.inj decoded).symm⟩
  · rintro ⟨framed, rfl⟩
    exact decodeChunks_entries framed (List.append_nil _)

/-- A blob of one byte more than the bound. -/
theorem oversized_blob_is_refused :
    ∃ blob : CatFileEntry, ∃ body, blob = .object "5b3f0e0e1a5b3f0e0e1a5b3f0e0e1a5b3f0e0e1a" .blob body ∧
      body = List.replicate 16777217 0 ∧ decodeChunks [blob.render] ≠ .ok [blob] := by
  have token : IsToken "5b3f0e0e1a5b3f0e0e1a5b3f0e0e1a5b3f0e0e1a" := by decide
  refine ⟨_, List.replicate 16777217 0, rfl, rfl, fun decoded => ?_⟩
  generalize same : List.replicate 16777217 (0 : UInt8) = body at decoded
  have length : body.length = 16777217 := by rw [← same, List.length_replicate]
  obtain ⟨error, refused⟩ := decodeChunks_oversized token .blob
    (show body.length > 16 * 1024 * 1024 by omega)
  rw [refused] at decoded
  contradiction

/-- A line read as a header does not parse, and everything before it was in step. -/
inductive MalformedHeader : Bytes → Prop
  | here {line rest : Bytes} {error : CoreError} (oneLine : 0x0a ∉ line)
      (malformed : parseHeaderLine line = .error error) : MalformedHeader (line ++ 0x0a :: rest)
  | afterMissing {line rest : Bytes} {input : String} (oneLine : 0x0a ∉ line)
      (header : parseHeaderLine line = .ok (.missing input)) (later : MalformedHeader rest) :
      MalformedHeader (line ++ 0x0a :: rest)
  | afterObject {line body rest : Bytes} {oid : String} {objectType : CatFileObjectType}
      (oneLine : 0x0a ∉ line)
      (header : parseHeaderLine line = .ok (.object oid objectType body.length))
      (later : MalformedHeader rest) :
      MalformedHeader (line ++ 0x0a :: (body ++ 0x0a :: rest))

inductive MalformedAfter : CatFileMode → Bytes → Prop
  | header {bytes : Bytes} (later : MalformedHeader bytes) : MalformedAfter {} bytes
  | body {line body rest : Bytes} (later : MalformedHeader rest) :
      MalformedAfter ⟨some body.length, line⟩ (body ++ 0x0a :: rest)

structure StaysFailed (chunks : List Bytes) : Prop where
  pushes : (CatFileDecoder.new.answers chunks).1.Pairwise fun earlier later =>
    earlier.isOk = false → later.isOk = false
  finish : ∀ answer ∈ (CatFileDecoder.new.answers chunks).1, answer.isOk = false →
    (CatFileDecoder.new.answers chunks).2.finish.isOk = false

namespace CatFileDecoder

def Stuck (decoder : CatFileDecoder) : Prop :=
  ∃ expected, decoder.mode.expectedBody = some expected ∧ expected < decoder.buffer.length ∧
    (decoder.buffer[expected]? ≠ some 0x0a ∨ (decoder.buffer.take expected).length > objectMaxBytes)

variable {decoder : CatFileDecoder}

theorem Stuck.feed (stuck : decoder.Stuck) (chunk : Bytes) :
    Stuck (Pending.feed decoder chunk) := by
  obtain ⟨expected, waits, arrived, wrong⟩ := stuck
  refine ⟨expected, waits, ?_, ?_⟩
  · simp only [Pending.feed, List.length_append]
    omega
  · simp only [Pending.feed]
    rw [List.getElem?_append_left arrived, List.take_append_of_le_length (by omega)]
    exact wrong

theorem Stuck.leave (stuck : decoder.Stuck) : decoder.leave = decoder := by
  obtain ⟨expected, waits, -, wrong⟩ := stuck
  unfold CatFileDecoder.leave
  rw [waits]
  exact if_pos wrong

theorem Stuck.read (stuck : decoder.Stuck) :
    ∃ error, catFile.read decoder.mode decoder.buffer = .fail error := by
  obtain ⟨expected, waits, arrived, wrong⟩ := stuck
  change ∃ error, readCatFile _ _ = _
  unfold readCatFile readBody
  rw [waits]
  dsimp only
  rw [if_neg (by omega)]
  by_cases newline : decoder.buffer[expected]? ≠ some 0x0a
  · exact ⟨_, if_pos newline⟩
  · rw [if_neg newline, if_pos (wrong.resolve_left newline)]
    exact ⟨_, rfl⟩

theorem Stuck.pushKept (stuck : decoder.Stuck) (chunk : Bytes) :
    ∃ error, decoder.pushKept chunk = (.error error, Pending.feed decoder chunk) := by
  obtain ⟨error, fails⟩ := (stuck.feed chunk).read
  refine ⟨error, ?_⟩
  unfold CatFileDecoder.pushKept
  rw [Framing.drainLeft_of_fail fails, (stuck.feed chunk).leave]

theorem Stuck.answers (stuck : decoder.Stuck) (chunks : List Bytes) :
    (∀ answer ∈ (decoder.answers chunks).1, answer.isOk = false) ∧
      (decoder.answers chunks).2.Stuck := by
  induction chunks generalizing decoder with
  | nil => exact ⟨by simp [CatFileDecoder.answers], stuck⟩
  | cons chunk chunks ih =>
    obtain ⟨error, pushed⟩ := stuck.pushKept chunk
    unfold CatFileDecoder.answers
    rw [pushed]
    obtain ⟨fails, stays⟩ := ih (stuck.feed chunk)
    exact ⟨List.forall_mem_cons.mpr ⟨rfl, fails⟩, stays⟩

theorem Stuck.finish (stuck : decoder.Stuck) : decoder.finish.isOk = false := by
  obtain ⟨expected, waits, -, -⟩ := stuck
  unfold CatFileDecoder.finish
  rw [waits]
  rfl

def InStep (decoder : CatFileDecoder) : Prop :=
  decoder.mode = {} ∨ ∃ oid objectType expected, decoder.mode.expectedBody = some expected ∧
    parseHeaderLine decoder.mode.headerLine = .ok (.object oid objectType expected)

def Sane (more : Bytes) (decoder : CatFileDecoder) : Prop :=
  decoder.InStep ∧ ¬MalformedAfter decoder.mode (decoder.buffer ++ more)

end CatFileDecoder

theorem cut_at_newline {lineEnd : Nat}
    (found : (buffer.findIdx? fun byte => byte = 0x0a) = some lineEnd) :
    buffer = buffer.take lineEnd ++ 0x0a :: buffer.drop (lineEnd + 1) ∧
      0x0a ∉ buffer.take lineEnd := by
  obtain ⟨inside, newline, before⟩ := List.findIdx?_eq_some_iff_getElem.mp found
  simp only [decide_eq_true_eq] at newline before
  refine ⟨?_, fun member => ?_⟩
  · rw [← newline, ← List.drop_eq_getElem_cons inside, List.take_append_drop]
  · obtain ⟨index, bound, same⟩ := List.mem_take_iff_getElem.mp member
    exact before index (by omega) same

theorem cut_behind_body {expected : Nat} (newline : buffer[expected]? = some 0x0a) :
    ∃ body, body.length = expected ∧ buffer = body ++ 0x0a :: buffer.drop (expected + 1) := by
  obtain ⟨inside, same⟩ := List.getElem?_eq_some_iff.mp newline
  refine ⟨buffer.take expected, List.length_take_of_le (by omega), ?_⟩
  rw [← same, ← List.drop_eq_getElem_cons inside, List.take_append_drop]

namespace CatFileDecoder

section Sane

variable {more : Bytes} {decoder : CatFileDecoder}
variable {buffer rest : Bytes} {expected : Nat} {mode : CatFileMode} {out : List CatFileEntry}
  {error : CoreError}

theorem readBody_advance (advances : readBody line expected buffer = .advance mode out rest) :
    mode = {} ∧ buffer[expected]? = some 0x0a ∧ rest = buffer.drop (expected + 1) := by
  unfold readBody at advances
  dsimp only at advances
  split at advances
  · contradiction
  · split at advances
    · contradiction
    · rename_i newline
      split at advances
      · contradiction
      · split at advances
        · contradiction
        · cases advances
          exact ⟨rfl, not_not.mp newline, rfl⟩

theorem readBody_fail (header : parseHeaderLine line = .ok (.object oid objectType expected))
    (fails : readBody line expected buffer = .fail error) : expected < buffer.length ∧
      (buffer[expected]? ≠ some 0x0a ∨ (buffer.take expected).length > objectMaxBytes) := by
  unfold readBody at fails
  dsimp only at fails
  split at fails
  · contradiction
  · rename_i arrived
    refine ⟨by omega, ?_⟩
    split at fails
    · exact .inl ‹_›
    · split at fails
      · exact .inr ‹_›
      · rw [materialize_object header] at fails
        contradiction

theorem Sane.advance (advances : catFile.read decoder.mode decoder.buffer = .advance mode out rest)
    (sane : Sane more decoder) : Sane more ⟨mode, rest⟩ := by
  obtain ⟨inStep, sound⟩ := sane
  obtain ⟨current, buffer⟩ := decoder
  obtain rfl | ⟨oid, objectType, expected, waits, header⟩ := inStep
  · change readHeader [] buffer = _ at advances
    unfold readHeader at advances
    cases found : buffer.findIdx? fun byte => byte = 0x0a with
    | none =>
      rw [found] at advances
      contradiction
    | some lineEnd =>
      obtain ⟨cut, oneLine⟩ := cut_at_newline found
      rw [found] at advances
      dsimp only at advances
      split at advances
      · contradiction
      · rename_i header
        cases advances
        refine ⟨.inl rfl, fun later => sound ?_⟩
        cases later with
        | header later =>
          rw [cut, List.append_assoc]
          exact .header (.afterMissing oneLine header later)
      · rename_i oid objectType size header
        cases advances
        refine ⟨.inr ⟨oid, objectType, size, rfl, header⟩, fun later => sound ?_⟩
        generalize same : buffer.drop (lineEnd + 1) ++ more = following at later
        cases later with
        | body later =>
          rw [cut, List.append_assoc, List.cons_append, same]
          exact .header (.afterObject oneLine header later)
  · obtain ⟨_, line⟩ := current
    cases waits
    obtain ⟨rfl, newline, rfl⟩ := readBody_advance advances
    obtain ⟨body, rfl, cut⟩ := cut_behind_body newline
    refine ⟨.inl rfl, fun later => sound ?_⟩
    cases later with
    | header later =>
      rw [cut, List.append_assoc]
      exact .body later

theorem Sane.stuck (fails : catFile.read decoder.mode decoder.buffer = .fail error)
    (sane : Sane more decoder) : decoder.Stuck := by
  obtain ⟨inStep, sound⟩ := sane
  obtain ⟨current, buffer⟩ := decoder
  obtain rfl | ⟨oid, objectType, expected, waits, header⟩ := inStep
  · change readHeader [] buffer = _ at fails
    unfold readHeader at fails
    cases found : buffer.findIdx? fun byte => byte = 0x0a with
    | none =>
      rw [found] at fails
      contradiction
    | some lineEnd =>
      obtain ⟨cut, oneLine⟩ := cut_at_newline found
      rw [found] at fails
      dsimp only at fails
      split at fails
      · rename_i malformed
        refine absurd ?_ sound
        rw [cut, List.append_assoc]
        exact .header (.here oneLine malformed)
      · contradiction
      · contradiction
  · obtain ⟨_, line⟩ := current
    cases waits
    obtain ⟨arrived, wrong⟩ := readBody_fail header fails
    exact ⟨expected, rfl, arrived, wrong⟩

theorem Sane.pushKept {chunk : Bytes} (sane : Sane (chunk ++ more) decoder) :
    (∃ entries next, decoder.pushKept chunk = (.ok entries, next) ∧ Sane more next) ∨
      ∃ error next, decoder.pushKept chunk = (.error error, next) ∧ Stuck next := by
  have fed : Sane more (decoder.feed chunk) := by
    refine ⟨sane.1, ?_⟩
    simp only [Pending.feed, List.append_assoc]
    exact sane.2
  obtain ⟨entries, next, drained, held⟩ | ⟨failing, error, drained, held, fails⟩ :=
    Framing.drainLeft_cases CatFileDecoder.leave Sane.advance fed
  · exact .inl ⟨entries, next, drained, held⟩
  · have stuck := held.stuck fails
    rw [stuck.leave] at drained
    exact .inr ⟨error, failing, drained, stuck⟩

end Sane

theorem answers_after_failure (chunks : List Bytes) {decoder : CatFileDecoder}
    (sane : Sane chunks.flatten decoder) : (decoder.answers chunks).1.Pairwise (fun earlier later =>
      earlier.isOk = false → later.isOk = false) ∧
    ∀ answer ∈ (decoder.answers chunks).1, answer.isOk = false →
      (decoder.answers chunks).2.finish.isOk = false := by
  induction chunks generalizing decoder with
  | nil => simp [answers]
  | cons chunk chunks ih =>
    unfold answers
    obtain ⟨entries, next, pushed, held⟩ | ⟨error, next, pushed, stuck⟩ := sane.pushKept
    · obtain ⟨pushes, finish⟩ := ih held
      rw [pushed]
      refine ⟨List.pairwise_cons.mpr ⟨fun _ _ failed => ?_, pushes⟩,
        List.forall_mem_cons.mpr ⟨fun failed => ?_, finish⟩⟩ <;> cases failed
    · obtain ⟨fails, stays⟩ := stuck.answers chunks
      rw [pushed]
      refine ⟨List.pairwise_cons.mpr ⟨fun later member _ => fails later member, ?_⟩,
        fun _ _ _ => stays.finish⟩
      exact List.pairwise_of_forall_mem_list fun _ _ later member _ => fails later member

theorem staysFailed_of_sound {chunks : List Bytes} (sound : ¬MalformedHeader chunks.flatten) :
    StaysFailed chunks := by
  have sane : CatFileDecoder.Sane chunks.flatten CatFileDecoder.new := by
    refine ⟨.inl rfl, fun later => sound ?_⟩
    cases later with
    | header later => exact later
  obtain ⟨pushes, finish⟩ := CatFileDecoder.answers_after_failure chunks sane
  exact ⟨pushes, finish⟩

end CatFileDecoder

theorem MalformedHeader.append (malformed : MalformedHeader stream) (more : Bytes) :
    MalformedHeader (stream ++ more) := by
  induction malformed with
  | here oneLine malformed =>
    rw [List.append_assoc]
    exact .here oneLine malformed
  | afterMissing oneLine header _ ih =>
    rw [List.append_assoc]
    exact .afterMissing oneLine header ih
  | afterObject oneLine header _ ih =>
    rw [List.append_assoc, List.cons_append, List.append_assoc]
    exact .afterObject oneLine header ih

theorem parseTypeAndSize_bounded {typeText sizeText : List Char}
    (parsed : parseTypeAndSize oid typeText sizeText = .ok (.object name objectType size)) :
    size ≤ objectMaxBytes := by
  unfold parseTypeAndSize at parsed
  dsimp only at parsed
  split at parsed
  · contradiction
  · split at parsed
    · contradiction
    · split at parsed
      · contradiction
      · split at parsed
        · contradiction
        · cases parsed
          omega

theorem parseHeaderLine_bounded (parsed : parseHeaderLine line = .ok (.object name objectType size)) :
    size ≤ objectMaxBytes := by
  obtain ⟨text, -, parsed⟩ := bind_eq_ok.mp parsed
  split at parsed
  · contradiction
  · dsimp only at parsed
    split at parsed
    · cases parsed
    · split at parsed
      · contradiction
      · split at parsed
        · exact parseTypeAndSize_bounded parsed
        · contradiction

theorem MalformedHeader.resumes (malformed : MalformedHeader stream) :
    ∃ taken, taken <+: stream ∧ ∃ error,
      catFile.drainLeft CatFileDecoder.leave ⟨{}, taken⟩ = (.error error, CatFileDecoder.new) := by
  induction malformed with
  | @here line rest error oneLine malformed =>
    have fails : catFile.read {} (line ++ [0x0a]) = .fail error := by
      refine (readHeader_cut oneLine []).trans ?_
      rw [malformed]
    refine ⟨line ++ [0x0a], ⟨rest, by simp⟩, error, ?_⟩
    rw [Framing.drainLeft_of_fail fails]
    unfold CatFileDecoder.leave
    rw [findIdx?_newline oneLine]
    dsimp only
    rw [drop_newline]
    rfl
  | @afterMissing line rest input oneLine header _ ih =>
    obtain ⟨taken, part, error, drained⟩ := ih
    have advances : catFile.read {} (line ++ 0x0a :: taken) =
        .advance {} [.missing input] taken := by
      refine (readHeader_cut oneLine taken).trans ?_
      rw [header]
    refine ⟨line ++ 0x0a :: taken, ?_, error, ?_⟩
    · exact (List.prefix_append_right_inj line).mpr (List.cons_prefix_cons.mpr ⟨rfl, part⟩)
    · rw [Framing.drainLeft_of_advance advances, drained]
      rfl
  | @afterObject line body rest oid objectType oneLine header _ ih =>
    obtain ⟨taken, part, error, drained⟩ := ih
    have advances : catFile.read {} (line ++ 0x0a :: (body ++ 0x0a :: taken)) =
        .advance { expectedBody := some body.length, headerLine := line } []
          (body ++ 0x0a :: taken) := by
      refine (readHeader_cut oneLine (body ++ 0x0a :: taken)).trans ?_
      rw [header]
    have whole : catFile.read { expectedBody := some body.length, headerLine := line }
        (body ++ 0x0a :: taken) = .advance {} [.object oid objectType body] taken :=
      readBody_whole header (parseHeaderLine_bounded header) taken
    refine ⟨line ++ 0x0a :: (body ++ 0x0a :: taken), ?_, error, ?_⟩
    · refine (List.prefix_append_right_inj line).mpr (List.cons_prefix_cons.mpr ⟨rfl, ?_⟩)
      exact (List.prefix_append_right_inj body).mpr (List.cons_prefix_cons.mpr ⟨rfl, part⟩)
    · rw [Framing.drainLeft_of_advance advances, Framing.drainLeft_of_advance whole, drained]
      rfl

/-- The decoder stays failed on every part of a stream, however it is cut, unless a header of the
stream is malformed. -/
theorem staysFailed_iff (stream : Bytes) :
    (∀ chunks : List Bytes, chunks.flatten <+: stream → StaysFailed chunks) ↔
      ¬MalformedHeader stream := by
  constructor
  · intro stays malformed
    obtain ⟨taken, part, error, drained⟩ := malformed.resumes
    have answers : CatFileDecoder.new.answers [taken, []] =
        ([.error error, .ok []], CatFileDecoder.new) := by
      have pushed : CatFileDecoder.new.pushKept taken = _ := drained
      simp only [CatFileDecoder.answers, pushed]
      rfl
    have again := (stays [taken, []] (by simpa using part)).pushes
    rw [answers, List.pairwise_pair] at again
    exact Bool.noConfusion (again rfl)
  · intro sound chunks part
    obtain ⟨more, rfl⟩ := part
    exact CatFileDecoder.staysFailed_of_sound fun malformed => sound (malformed.append more)

/-- The header of a blob that is too long, and then its body, whose text is a header. -/
def resumedChunks : List Bytes :=
  [asciiBytes "dead blob 99999999\n", asciiBytes "evil missing\n"]

theorem not_staysFailed_resumed :
    (CatFileDecoder.new.answers resumedChunks).1.getLast? = some (.ok [.missing "evil"]) ∧
      ¬StaysFailed resumedChunks := by
  have answers : (CatFileDecoder.new.answers resumedChunks).1 =
      [.error (catFileUnparsable "object of 99999999 bytes exceeds the 16777216 byte limit"),
        .ok [.missing "evil"]] := by
    decide +kernel
  refine ⟨by rw [answers]; rfl, fun stays => ?_⟩
  have again := stays.pushes
  rw [answers, List.pairwise_pair] at again
  exact Bool.noConfusion (again rfl)

end Refyard
