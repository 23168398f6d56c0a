import Refyard.Foundation.JsonRoundTrip
import Refyard.HostNode.Journal

/-! What stands in the journal file, whole or cut off, and what loading makes of it. -/
namespace Refyard.HostNode

structure Row where
  entry : JournalEntry
  acceptedAt : Timestamp
  dated : entry.acceptedAtMs = some acceptedAt

namespace Row

def text (row : Row) : List Char := Json.stringify (.object (row.entry.members row.acceptedAt))

def line (row : Row) : List Char := row.text ++ ['\n']

def bytes (row : Row) : Bytes := Utf8.encode row.text

variable (row : Row)

@[simp] theorem serialize_entry : serialize row.entry = some row.line := by
  unfold serialize
  rw [row.dated]
  rfl

theorem newline_notMem_text : '\n' ∉ row.text := by
  intro member
  exact absurd (Json.printable_stringify _ _ member) (by decide)

theorem newline_notMem_bytes : (0x0a : UInt8) ∉ row.bytes :=
  Utf8.newline_notMem_encode row.newline_notMem_text

theorem encode_line : Utf8.encode row.line = row.bytes ++ [0x0a] := by
  unfold line
  rw [Utf8.encode_append]
  rfl

theorem text_ne_nil : row.text ≠ [] := by
  obtain ⟨front, ends⟩ := Json.stringify_object_ends (row.entry.members row.acceptedAt)
  unfold text
  rw [ends]
  simp

theorem bytes_ne_nil : row.bytes ≠ [] := by
  intro empty
  have read := Utf8.decode_encode row.text
  rw [show Utf8.encode row.text = [] from empty] at read
  exact row.text_ne_nil read.symm

end Row

theorem row_of_serialize {entry : JournalEntry} {line : List Char}
    (written : serialize entry = some line) : ∃ row : Row, row.entry = entry ∧ row.line = line := by
  obtain ⟨acceptedAt, dated, same⟩ := Option.map_eq_some_iff.mp written
  exact ⟨⟨entry, acceptedAt, dated⟩, rfl, same⟩

theorem rows_of_serialize {entries : List JournalEntry} {lines : List (List Char)}
    (written : entries.mapM serialize = some lines) :
    ∃ rows : List Row, rows.map Row.entry = entries ∧ rows.map Row.line = lines := by
  induction entries generalizing lines with
  | nil =>
    cases written
    exact ⟨[], rfl, rfl⟩
  | cons entry entries ih =>
    rw [List.mapM_cons] at written
    obtain ⟨line, first, written⟩ := Option.bind_eq_some_iff.mp written
    obtain ⟨rest, others, written⟩ := Option.bind_eq_some_iff.mp written
    cases written
    obtain ⟨row, rfl, rfl⟩ := row_of_serialize first
    obtain ⟨rows, rfl, rfl⟩ := ih others
    exact ⟨row :: rows, rfl, rfl⟩

@[simp] theorem jsObject_json (target : JsObject) : jsObject (some target.json) = some target := by
  cases target <;> rfl

theorem parseTime_eq {members : List (String × Json)} {name : String} {time : Option Timestamp}
    (stands : field members name = some (time.elim .null dateJson)) :
    parseTime members name = time := by
  unfold parseTime stringField
  rw [stands]
  cases time with
  | none => rfl
  | some time =>
    unfold dateJson
    rw [Option.elim_some]
    rw [Option.bind_some, String.toList_ofList, IsoDate.parse_toISOString]

variable (row : Row) (filePath : String)

theorem deserialize_text : deserialize row.text = some row.entry := by
  obtain ⟨entry, acceptedAt, dated⟩ := row
  have started : parseTime (entry.members acceptedAt) "startedAt" = entry.startedAtMs :=
    parseTime_eq rfl
  have finished : parseTime (entry.members acceptedAt) "finishedAt" = entry.finishedAtMs :=
    parseTime_eq rfl
  have reason : stringField (entry.members acceptedAt) "unknownReason" = entry.unknownReason := by
    have stands : field (entry.members acceptedAt) "unknownReason" =
        some (entry.unknownReason.elim .null .string) := rfl
    unfold stringField
    rw [stands]
    cases entry.unknownReason <;> rfl
  have target : jsObject (field (entry.members acceptedAt) "target") = some entry.target :=
    jsObject_json entry.target
  have accepted : IsoDate.parse (String.ofList (IsoDate.toISOString acceptedAt)).toList =
      entry.acceptedAtMs := by
    rw [String.toList_ofList, IsoDate.parse_toISOString, dated]
  unfold deserialize Row.text
  rw [Json.parse_stringify]
  dsimp only [Option.bind_eq_bind, Option.bind_some]
  rw [target, started, finished, reason]
  exact congrArg (fun time => some { entry with acceptedAtMs := time }) accepted

def fileText (rows : List Row) : List Char := rows.flatMap Row.line

def fileBytes (rows : List Row) : Bytes := Utf8.encode (fileText rows)

@[simp] theorem fileBytes_nil : fileBytes [] = [] := rfl

theorem fileText_cons (rows : List Row) :
    fileText (row :: rows) = row.text ++ '\n' :: fileText rows := by
  simp [fileText, Row.line]

theorem fileBytes_cons (rows : List Row) :
    fileBytes (row :: rows) = row.bytes ++ 0x0a :: fileBytes rows := by
  unfold fileBytes
  rw [fileText_cons, Utf8.encode_append, Utf8.encode_cons]
  rfl

theorem fileBytes_append (front back : List Row) :
    fileBytes (front ++ back) = fileBytes front ++ fileBytes back := by
  simp [fileBytes, fileText]

theorem splitOn_fileText (rows : List Row) {tail : List Char} (one : '\n' ∉ tail) :
    (fileText rows ++ tail).splitOn '\n' = rows.map Row.text ++ [tail] := by
  induction rows with
  | nil => exact List.splitOn_eq_singleton one
  | cons row rows ih =>
    rw [fileText_cons, List.append_assoc, List.cons_append,
      List.splitOn_append_cons_self_of_not_mem row.newline_notMem_text, ih]
    rfl

/-- What stands behind the last line break: nothing, a record cut short, or a record that
lacks only its line break. -/
inductive Tail : Bytes → Option JournalEntry → Prop where
  | empty : Tail [] none
  | torn (row : Row) (count : Nat) (short : count < row.bytes.length) :
      Tail (row.bytes.take count) none
  | unended (row : Row) : Tail row.bytes (some row.entry)

theorem Tail.decode {part : Bytes} {last : Option JournalEntry} (tail : Tail part last) :
    '\n' ∉ Utf8.decode part ∧ deserialize (Utf8.decode part) = last := by
  cases tail with
  | empty => exact ⟨List.not_mem_nil, rfl⟩
  | torn row count short =>
    obtain ⟨kept, lost, broken, parts, reads, loses, replaced⟩ :=
      Utf8.decode_take_encode row.text count
    rw [Row.bytes, reads]
    constructor
    · rw [List.mem_append]
      rintro (member | member)
      · exact row.newline_notMem_text (parts ▸ List.mem_append_left lost member)
      · exact absurd (replaced _ member) (by decide)
    · unfold deserialize
      have garbled : ∀ char ∈ broken, 0x80 ≤ char.toNat := by
        intro char member
        rw [replaced char member]
        decide
      rw [Json.parse_cut parts (loses short) garbled]
  | unended row =>
    rw [Row.bytes, Utf8.decode_encode]
    exact ⟨row.newline_notMem_text, deserialize_text row⟩

theorem loadLines_rows (count index : Nat) (entries : Entries) (rows : List Row)
    (rest : List (List Char)) : loadLines filePath count index entries (rows.map Row.text ++ rest) =
      loadLines filePath count (index + rows.length)
        ((rows.map Row.entry).foldl InsertionMap.set entries) rest := by
  induction rows generalizing index entries with
  | nil => rfl
  | cons row rows ih =>
    rw [List.map_cons, List.cons_append, loadLines, if_neg row.text_ne_nil, deserialize_text]
    dsimp only
    rw [ih, List.length_cons, Nat.add_assoc, Nat.add_comm 1]
    rfl

theorem loadLines_last (count : Nat) (entries : Entries) (line : List Char) :
    loadLines filePath (count + 1) count entries [line] =
      .ok ((deserialize line).toList.foldl InsertionMap.set entries) := by
  unfold loadLines
  split
  · rename_i empty
    rw [empty]
    rfl
  · cases deserialize line with
    | some entry => rfl
    | none =>
      rw [if_neg (by omega)]
      rfl

theorem load_tail (rows : List Row) {part : Bytes} {last : Option JournalEntry}
    (tail : Tail part last) : load filePath {} (some (fileBytes rows ++ part)) =
      .ok { entries := .ofList (rows.map Row.entry ++ last.toList),
            bytes := byteLength (Utf8.decode (fileBytes rows ++ part)) } := by
  obtain ⟨one, read⟩ := tail.decode
  have text : Utf8.decode (fileBytes rows ++ part) = fileText rows ++ Utf8.decode part :=
    Utf8.decode_encode_append (fileText rows) part
  unfold load
  dsimp only
  rw [text, splitOn_fileText rows one, loadLines_rows, List.length_append, List.length_map,
    List.length_singleton, Nat.zero_add, loadLines_last, read]
  unfold InsertionMap.ofList
  rw [List.foldl_append]
  rfl

theorem rows_of_plan {entries : Entries} {nowMs : Int} {policy : RetentionPolicy}
    {plan : CompactionPlan} (planned : planCompaction entries nowMs policy = some plan) :
    ∃ rows : List Row, plan.kept = rows.map Row.entry ∧ plan.kept = keptEntries entries nowMs policy ∧
      plan.content = fileBytes rows := by
  obtain ⟨_, -, planned⟩ := Option.bind_eq_some_iff.mp planned
  obtain ⟨lines, serialized, planned⟩ := Option.bind_eq_some_iff.mp planned
  cases planned
  obtain ⟨rows, entries, rfl⟩ := rows_of_serialize serialized
  refine ⟨rows, entries.symm, rfl, ?_⟩
  unfold CompactionPlan.content fileBytes fileText
  rw [List.flatMap_def]

theorem mem_keptEntries {entries : Entries} {nowMs : Int} {policy : RetentionPolicy}
    {entry : JournalEntry} : entry ∈ keptEntries entries nowMs policy ↔
      entry ∈ entries.values ∧ mayPruneRecord entry nowMs policy = false := by
  unfold keptEntries
  rw [List.mem_filter, List.mem_insertionSort, Bool.not_eq_true']

theorem keptEntries_nodup (entries : Entries) (nowMs : Int) (policy : RetentionPolicy) :
    ((keptEntries entries nowMs policy).map JournalEntry.operationId).Nodup := by
  apply List.Nodup.sublist (List.filter_sublist.map _)
  exact ((List.perm_insertionSort _ _).map _).nodup_iff.mpr entries.distinct

theorem lastOf_keptEntries (entries : Entries) (nowMs : Int) (policy : RetentionPolicy)
    (operationId : String) :
    lastOf JournalEntry.operationId (keptEntries entries nowMs policy) operationId =
      (entries.get? operationId).filter fun entry => !mayPruneRecord entry nowMs policy := by
  ext entry
  rw [Option.filter_eq_some_iff, InsertionMap.get?_eq_some, Bool.not_eq_true']
  constructor
  · intro found
    obtain ⟨member, same⟩ := lastOf_eq_some found
    rw [mem_keptEntries] at member
    exact ⟨⟨member.1, same⟩, member.2⟩
  · rintro ⟨⟨member, rfl⟩, stays⟩
    exact lastOf_of_nodup (keptEntries_nodup entries nowMs policy) (mem_keptEntries.mpr ⟨member, stays⟩)

def epoch : Timestamp := ⟨0, by decide, by decide⟩

def sampleEntry (operationId : String) : JournalEntry where
  operationId
  clientRequestId := "request"
  actor := "user"
  kind := "commit"
  target := .record [("repositoryId", .string "repository")]
  status := "accepted"
  sequence := 1
  acceptedAtMs := some epoch
  startedAtMs := none
  finishedAtMs := none
  payloadDigest := "digest"
  repositoryId := "repository"
  result := .null
  problem := .null
  unknownReason := none

end Refyard.HostNode
