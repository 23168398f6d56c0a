import Refyard.Foundation.Machine
import Refyard.HostNode.JournalFile

/-! The journal file over crashes: what is loaded after a crash has cut the file anywhere, and
after any number of appends, compactions and further crashes. -/
namespace Refyard.HostNode

structure JournalConfig where
  filePath : String
  retention : RetentionPolicy

/-- The file, and the store of the process that is running, if one is. `completed` is not
part of the program: it is the records whose text stands in the file as a whole, in the order
in which they were appended, each with the place where its text ends. -/
structure JournalHost where
  file : Bytes := []
  store : Option JournalStore := none
  completed : List (JournalEntry × Nat) := []

inductive JournalInput where
  | append (entry : JournalEntry) (nowMs : Int)
  | compact (nowMs : Int)
  /-- The process ends, and of the file this many bytes are left. -/
  | crash (length : Nat)
  | reopen

inductive JournalAnswer where
  | appended
  | full
  | compacted (dropped : Nat)
  | loaded (entries : List JournalEntry)
  | failed
  | crashed

/-- Records of these sizes behind one another. A text ends where its line break stands. -/
def placed (start : Nat) : List JournalEntry → List (JournalEntry × Nat)
  | [] => []
  | entry :: rest =>
      let size := ((serialize entry).map byteLength).getD 0
      (entry, start + size - 1) :: placed (start + size) rest

namespace JournalHost

def survivors (host : JournalHost) (nowMs : Int) (policy : RetentionPolicy) : List JournalEntry :=
  keptEntries (.ofList (host.completed.map Prod.fst)) nowMs policy

/-- The file is replaced in one step, so a crash leaves the old one or the new one. -/
def compact (host : JournalHost) (store : JournalStore) (nowMs : Int) (policy : RetentionPolicy) :
    Option (JournalHost × JournalStore × Nat) :=
  (planCompaction store.entries nowMs policy).map fun plan =>
    if plan.dropped = 0 then (host, store, 0)
    else
      ({ file := plan.content, store := some plan.store
         completed := placed 0 (host.survivors nowMs policy) }, plan.store, plan.dropped)

def write (host : JournalHost) (store : JournalStore) (entry : JournalEntry) (line : List Char) :
    JournalHost where
  file := host.file ++ Utf8.encode line
  store := some { entries := store.entries.set entry, bytes := store.bytes + byteLength line }
  completed := host.completed ++ [(entry, host.file.length + byteLength line - 1)]

def append (config : JournalConfig) (host : JournalHost) (store : JournalStore)
    (entry : JournalEntry) (nowMs : Int) : JournalHost × JournalAnswer :=
  match serialize entry with
  | none => (host, .failed)
  | some line =>
      if store.bytes + byteLength line > config.retention.maxBytes then
        match host.compact store nowMs config.retention with
        | none => (host, .failed)
        | some (compacted, after, pruned) =>
            if pruned = 0 ∨ after.bytes + byteLength line > config.retention.maxBytes then
              (compacted, .full)
            else (compacted.write after entry line, .appended)
      else (host.write store entry line, .appended)

def crash (host : JournalHost) (length : Nat) : JournalHost where
  file := host.file.take length
  store := none
  completed := host.completed.filter fun record => record.2 ≤ length

def reopen (config : JournalConfig) (host : JournalHost) : JournalHost × JournalAnswer :=
  match load config.filePath {} (some host.file) with
  | .ok store => ({ host with store := some store }, .loaded store.entries.values)
  | .error _ => ({ host with store := none }, .failed)

def step (config : JournalConfig) (host : JournalHost) : JournalInput → JournalHost × JournalAnswer
  | .append entry nowMs =>
      match host.store with
      | none => (host, .failed)
      | some store => host.append config store entry nowMs
  | .compact nowMs =>
      match host.store with
      | none => (host, .failed)
      | some store =>
          match host.compact store nowMs config.retention with
          | none => (host, .failed)
          | some (compacted, _, dropped) => (compacted, .compacted dropped)
  | .crash length => (host.crash length, .crashed)
  | .reopen => host.reopen config

def machine (config : JournalConfig) : Machine JournalHost JournalInput JournalAnswer where
  step := step config

/-- Loading succeeds, and has for each operation the last record whose append completed. -/
def Tolerant (config : JournalConfig) (host : JournalHost) : Prop :=
  ∃ store, load config.filePath {} (some host.file) = .ok store ∧
    ∀ operationId, store.entries.get? operationId =
      lastOf JournalEntry.operationId (host.completed.map Prod.fst) operationId

/-- A record is appended to a file that ends with a line break, or is too large for the file
as it stands. -/
def AppendsToLine (config : JournalConfig) (host : JournalHost) : JournalInput → Prop
  | .append entry _ =>
      ∀ store ∈ host.store, ∀ line ∈ serialize entry, host.file.getLast?.all (· = 0x0a) = true ∨
          store.bytes + byteLength line > config.retention.maxBytes
  | _ => True

instance (config : JournalConfig) (host : JournalHost) (input : JournalInput) :
    Decidable (host.AppendsToLine config input) := by
  unfold AppendsToLine
  split <;> infer_instance

structure Written (host : JournalHost) : Prop where
  cut : ∃ (rows : List Row) (length : Nat), host.file = (fileBytes rows).take length ∧
    host.completed = (placed 0 (rows.map Row.entry)).filter fun record => record.2 ≤ length
  memory : ∀ store ∈ host.store, store.entries = .ofList (host.completed.map Prod.fst)

end JournalHost

theorem map_fst_placed (start : Nat) (entries : List JournalEntry) :
    (placed start entries).map Prod.fst = entries := by
  induction entries generalizing start with
  | nil => rfl
  | cons entry entries ih =>
    unfold placed
    rw [List.map_cons, ih]

theorem length_encode_line (row : Row) : byteLength row.line = row.bytes.length + 1 := by
  unfold byteLength
  rw [row.encode_line, List.length_append, List.length_singleton]

theorem placed_cons (start : Nat) (row : Row) (rest : List JournalEntry) :
    placed start (row.entry :: rest) =
      (row.entry, start + row.bytes.length) :: placed (start + row.bytes.length + 1) rest := by
  rw [placed, row.serialize_entry, Option.map_some, Option.getD_some, length_encode_line]
  rfl

theorem placed_append (start : Nat) (front : List Row) (back : List JournalEntry) :
    placed start (front.map Row.entry ++ back) = placed start (front.map Row.entry) ++
      placed (start + (fileBytes front).length) back := by
  induction front generalizing start with
  | nil => rfl
  | cons row front ih =>
    have same : start + row.bytes.length + 1 + (fileBytes front).length =
        start + (fileBytes (row :: front)).length := by
      rw [fileBytes_cons, List.length_append, List.length_cons]
      omega
    rw [List.map_cons, List.cons_append, placed_cons, placed_cons, ih, same, List.cons_append]

theorem placed_lt {start : Nat} {rows : List Row} {record : JournalEntry × Nat}
    (member : record ∈ placed start (rows.map Row.entry)) :
    start ≤ record.2 ∧ record.2 < start + (fileBytes rows).length := by
  induction rows generalizing start with
  | nil => cases member
  | cons row rows ih =>
    rw [List.map_cons, placed_cons, List.mem_cons] at member
    rw [fileBytes_cons, List.length_append, List.length_cons]
    rcases member with rfl | later
    · dsimp only
      omega
    · have behind := ih later
      omega

variable (rows : List Row) {part : Bytes} {last : Option JournalEntry}

theorem take_fileBytes (start length : Nat) :
    ∃ whole part last, (fileBytes rows).take length = fileBytes whole ++ part ∧ Tail part last ∧
      ((placed start (rows.map Row.entry)).filter fun record => record.2 ≤ start + length) =
        placed start (whole.map Row.entry) ++
          last.toList.map fun entry => (entry, start + (fileBytes whole).length + part.length) := by
  induction rows generalizing start length with
  | nil => exact ⟨[], [], none, by simp, .empty, rfl⟩
  | cons row rows ih =>
    -- what stands behind the first record is beyond a cut that does not reach its line break
    have beyond (short : length ≤ row.bytes.length) :
        (placed (start + row.bytes.length + 1) (rows.map Row.entry)).filter
          (fun record => record.2 ≤ start + length) = [] := by
      rw [List.filter_eq_nil_iff]
      intro record member
      have behind := (placed_lt member).1
      rw [decide_eq_true_eq]
      omega
    rw [List.map_cons, placed_cons, fileBytes_cons]
    rcases Nat.lt_trichotomy length row.bytes.length with short | exactly | long
    · refine ⟨[], row.bytes.take length, none, ?_, .torn row length short, ?_⟩
      · rw [List.take_append_of_le_length (Nat.le_of_lt short)]
        rfl
      · rw [List.filter_cons_of_neg (by simp [short]), beyond (Nat.le_of_lt short)]
        rfl
    · refine ⟨[], row.bytes, some row.entry, ?_, .unended row, ?_⟩
      · rw [exactly, List.take_left]
        rfl
      · rw [List.filter_cons_of_pos (by simp [exactly]), beyond (Nat.le_of_eq exactly)]
        rfl
    · obtain ⟨whole, part, last, cut, tail, complete⟩ :=
        ih (start + row.bytes.length + 1) (length - (row.bytes.length + 1))
      have sum : start + row.bytes.length + 1 + (length - (row.bytes.length + 1)) = start + length := by
        omega
      have ends : start + row.bytes.length + 1 + (fileBytes whole).length =
          start + (fileBytes (row :: whole)).length := by
        rw [fileBytes_cons, List.length_append, List.length_cons]
        omega
      rw [sum, ends] at complete
      refine ⟨row :: whole, part, last, ?_, tail, ?_⟩
      · have behind : length - row.bytes.length = (length - (row.bytes.length + 1)) + 1 := by omega
        rw [List.take_append, List.take_of_length_le (Nat.le_of_lt long), behind, List.take_succ_cons,
          cut, fileBytes_cons, List.append_assoc, List.cons_append]
      · rw [List.filter_cons_of_pos (by simp; omega), complete, List.map_cons, placed_cons,
          List.cons_append]

theorem Tail.newline_notMem (tail : Tail part last) : (0x0a : UInt8) ∉ part := by
  cases tail with
  | empty => exact List.not_mem_nil
  | torn row count short => exact fun member => row.newline_notMem_bytes (List.mem_of_mem_take member)
  | unended row => exact row.newline_notMem_bytes

theorem Tail.eq_nil {front : Bytes} (tail : Tail part last)
    (ends : (front ++ part).getLast?.all (· = 0x0a) = true) : part = [] ∧ last = none := by
  have empty : part = [] := by
    rcases List.eq_nil_or_concat part with empty | ⟨before, byte, rfl⟩
    · exact empty
    · rw [List.concat_eq_append, ← List.append_assoc, List.getLast?_concat] at ends
      have newline : byte = 0x0a := by simpa using ends
      exact absurd (by simp [newline]) tail.newline_notMem
  refine ⟨empty, ?_⟩
  cases tail with
  | empty => rfl
  | torn row count short => rfl
  | unended row => exact absurd empty row.bytes_ne_nil

theorem getLast?_fileBytes : (fileBytes rows).getLast?.all (· = 0x0a) = true := by
  rcases List.eq_nil_or_concat rows with rfl | ⟨front, row, rfl⟩
  · rfl
  · have ends : fileBytes (front ++ [row]) = fileBytes front ++ row.bytes ++ [0x0a] := by
      rw [fileBytes_append, fileBytes_cons, List.append_assoc]
      rfl
    rw [List.concat_eq_append, ends, List.getLast?_concat]
    rfl

namespace JournalHost

variable {config : JournalConfig} {host : JournalHost}

theorem written_start : Written {} where
  cut := ⟨[], 0, rfl, rfl⟩
  memory := by simp

theorem Written.ends (written : host.Written) :
    ∃ whole part last, host.file = fileBytes whole ++ part ∧ Tail part last ∧
      host.completed = placed 0 (whole.map Row.entry) ++
        last.toList.map fun entry => (entry, (fileBytes whole).length + part.length) := by
  obtain ⟨rows, length, file, completed⟩ := written.cut
  obtain ⟨whole, part, last, cut, tail, complete⟩ := take_fileBytes rows 0 length
  simp only [Nat.zero_add] at complete
  exact ⟨whole, part, last, file.trans cut, tail, completed.trans complete⟩

theorem Written.load (written : host.Written) (filePath : String) :
    ∃ bytes, load filePath {} (some host.file) =
      .ok { entries := .ofList (host.completed.map Prod.fst), bytes } := by
  obtain ⟨whole, part, last, file, tail, completed⟩ := written.ends
  have entries : host.completed.map Prod.fst = whole.map Row.entry ++ last.toList := by
    rw [completed, List.map_append, map_fst_placed]
    cases last <;> rfl
  rw [file, load_tail filePath whole tail, entries]
  exact ⟨_, rfl⟩

theorem Written.tolerant (written : host.Written) : host.Tolerant config := by
  obtain ⟨bytes, loaded⟩ := written.load config.filePath
  exact ⟨_, loaded, InsertionMap.get?_ofList _⟩

theorem written_of_rows (rows : List Row) {store : Option JournalStore}
    (memory : ∀ inside ∈ store, inside.entries = .ofList (rows.map Row.entry)) :
    Written ⟨fileBytes rows, store, placed 0 (rows.map Row.entry)⟩ where
  cut := by
    refine ⟨rows, (fileBytes rows).length, (List.take_length).symm, ?_⟩
    have all : ∀ record ∈ placed 0 (rows.map Row.entry), record.2 ≤ (fileBytes rows).length := by
      intro record member
      have bound := (placed_lt member).2
      omega
    exact (List.filter_eq_self.mpr (by simpa using all)).symm
  memory := by rwa [map_fst_placed]

variable {store : JournalStore}

theorem Written.write (written : host.Written) (held : host.store = some store)
    (ends : host.file.getLast?.all (· = 0x0a) = true) (row : Row) :
    (host.write store row.entry row.line).Written := by
  obtain ⟨whole, part, last, file, tail, completed⟩ := written.ends
  have entries := written.memory store held
  rw [file] at ends
  obtain ⟨rfl, rfl⟩ := tail.eq_nil ends
  have file : host.file = fileBytes whole := by rw [file, List.append_nil]
  have completed : host.completed = placed 0 (whole.map Row.entry) := by
    rw [completed]
    exact List.append_nil _
  rw [completed, map_fst_placed] at entries
  have one : fileBytes [row] = Utf8.encode row.line := by
    rw [fileBytes_cons, row.encode_line]
    rfl
  have place : 0 + (fileBytes whole).length + row.bytes.length =
      (fileBytes whole).length + byteLength row.line - 1 := by
    rw [length_encode_line]
    omega
  have whole' : host.write store row.entry row.line = ⟨fileBytes (whole ++ [row]),
        some { entries := store.entries.set row.entry, bytes := store.bytes + byteLength row.line },
        placed 0 ((whole ++ [row]).map Row.entry)⟩ := by
    unfold JournalHost.write
    rw [fileBytes_append, one, List.map_append, placed_append, List.map_singleton, placed_cons, place,
      file, completed]
    rfl
  rw [whole']
  apply written_of_rows
  intro inside same
  cases same
  rw [entries, List.map_append, List.map_singleton, InsertionMap.ofList_concat]

theorem Written.compact (written : host.Written) (held : host.store = some store) {nowMs : Int}
    {policy : RetentionPolicy} {compacted : JournalHost} {after : JournalStore} {dropped : Nat}
    (done : host.compact store nowMs policy = some (compacted, after, dropped)) :
    compacted.Written ∧ compacted.store = some after ∧
      (dropped ≠ 0 → compacted.file.getLast?.all (· = 0x0a) = true) := by
  obtain ⟨plan, planned, done⟩ := Option.map_eq_some_iff.mp done
  split at done
  · cases done
    exact ⟨written, held, fun differs => absurd rfl differs⟩
  · cases done
    obtain ⟨rows, kept, same, content⟩ := rows_of_plan planned
    rw [written.memory store held] at same
    have survivors : host.survivors nowMs policy = rows.map Row.entry := same.symm.trans kept
    rw [survivors, content]
    refine ⟨?_, rfl, fun _ => getLast?_fileBytes rows⟩
    apply written_of_rows
    intro inside same
    cases same
    unfold CompactionPlan.store
    rw [kept]

theorem Written.crash (written : host.Written) (length : Nat) : (host.crash length).Written := by
  obtain ⟨rows, before, file, completed⟩ := written.cut
  refine ⟨⟨rows, min length before, ?_, ?_⟩, ?_⟩
  · unfold JournalHost.crash
    rw [file, List.take_take]
  · unfold JournalHost.crash
    rw [completed, List.filter_filter]
    apply List.filter_congr
    intro record _
    simp
  · intro store closed
    cases closed

theorem Written.reopen (written : host.Written) (config : JournalConfig) :
    (host.reopen config).1.Written := by
  obtain ⟨bytes, loaded⟩ := written.load config.filePath
  unfold JournalHost.reopen
  rw [loaded]
  refine ⟨written.cut, ?_⟩
  intro store same
  cases same
  rfl

theorem Written.step (written : host.Written) {input : JournalInput}
    (careful : host.AppendsToLine config input) : (host.step config input).1.Written := by
  cases input with
  | append entry nowMs =>
    unfold JournalHost.step
    cases held : host.store with
    | none => exact written
    | some store =>
      dsimp only
      unfold JournalHost.append
      cases serialized : serialize entry with
      | none => exact written
      | some line =>
        obtain ⟨row, rfl, rfl⟩ := row_of_serialize serialized
        have place := careful store held row.line serialized
        dsimp only
        split
        · cases done : host.compact store nowMs config.retention with
          | none => exact written
          | some result =>
            obtain ⟨compacted, after, pruned⟩ := result
            obtain ⟨still, holds, ends⟩ := written.compact held done
            dsimp only
            split
            · exact still
            · rename_i fits
              rw [not_or] at fits
              exact still.write holds (ends fits.1) row
        · rename_i fits
          exact written.write held (place.resolve_right fits) row
  | compact nowMs =>
    unfold JournalHost.step
    cases held : host.store with
    | none => exact written
    | some store =>
      dsimp only
      cases done : host.compact store nowMs config.retention with
      | none => exact written
      | some result =>
        obtain ⟨compacted, after, dropped⟩ := result
        exact (written.compact held done).1
  | crash length => exact written.crash length
  | reopen => exact written.reopen config

theorem written_run (inputs : List JournalInput)
    (careful : (machine config).Meets (AppendsToLine config) {} inputs) :
    ((machine config).after {} inputs).Written :=
  (machine config).invariant_of_step Written (fun _ _ written meets => written.step meets)
    written_start careful

/-- Over any run of appends, compactions, crashes that cut the file anywhere, and reopenings:
while no record is appended to an unfinished line, loading succeeds and has for each operation
the last record whose append completed. -/
theorem tolerant_run (config : JournalConfig) (inputs : List JournalInput)
    (careful : (machine config).Meets (AppendsToLine config) {} inputs) :
    ((machine config).after {} inputs).Tolerant config :=
  (written_run inputs careful).tolerant

def sampleConfig : JournalConfig where
  filePath := "journal.jsonl"
  retention := { ttlMs := 1000, maxBytes := 1000000 }

/-- A crash that leaves seven bytes of the second line, and no append behind them. -/
theorem tolerant_run_torn : ((machine sampleConfig).after {} [.reopen, .append (sampleEntry "a") 0,
      .append (sampleEntry "b") 0, .crash 336, .reopen, .compact 5]).Tolerant sampleConfig :=
  tolerant_run sampleConfig _ (by decide +kernel)

def tornRun : List JournalInput :=
  [.reopen, .append (sampleEntry "a") 0, .crash 7, .reopen, .append (sampleEntry "b") 0]

/-- The record behind a torn line is lost, and with one more the journal is refused. -/
theorem torn_line_swallows_next :
    ¬ ((machine sampleConfig).after {} tornRun).Tolerant sampleConfig ∧
      (load sampleConfig.filePath {} (some ((machine sampleConfig).after {}
        (tornRun ++ [.append (sampleEntry "c") 0])).file)).toOption.isNone = true := by
  have run : ((load sampleConfig.filePath {}
        (some ((machine sampleConfig).after {} tornRun).file)).toOption.map
          (fun store => (store.entries.get? "b").isSome) = some false ∧
      (lastOf JournalEntry.operationId
        (((machine sampleConfig).after {} tornRun).completed.map Prod.fst) "b").isSome = true) ∧
      (load sampleConfig.filePath {} (some ((machine sampleConfig).after {}
        (tornRun ++ [.append (sampleEntry "c") 0])).file)).toOption.isNone = true := by
    decide +kernel
  obtain ⟨⟨missing, completed⟩, refused⟩ := run
  refine ⟨?_, refused⟩
  rintro ⟨store, loaded, latest⟩
  rw [← latest "b"] at completed
  rw [loaded] at missing
  exact absurd completed (by simpa [Except.toOption] using missing)

end JournalHost
end Refyard.HostNode
