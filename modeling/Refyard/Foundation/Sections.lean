import Mathlib.Data.List.Basic
import Mathlib.Algebra.Ring.Nat

/-! Texts that are read in sections. A line opens a section, tells something of the open one,
begins a group of lines in it, goes into that group, or ends it. -/
namespace Refyard.Sections

variable {α η γ φ : Type}

/-- What a line does to the groups of a section. The section may refuse it, and so may the group
it goes into. -/
inductive Inner (γ : Type) where
  | group (empty : γ)
  | line (change : γ → Option γ)
  | ends
  | refused

/-- What a line does. One that fails cannot be read at all. -/
inductive Act (η γ : Type) where
  | fails
  | opens
  | header (value : η)
  | inner (act : Inner γ)

/-- The groups of a section, and the one in progress. -/
structure Groups (γ : Type) where
  done : List γ
  growing : Option γ

namespace Groups

def start : Groups γ := ⟨[], none⟩

def all (groups : Groups γ) : List γ := groups.done ++ groups.growing.toList

def step (groups : Groups γ) : Inner γ → Option (Groups γ)
  | .group empty => some ⟨groups.all, some empty⟩
  | .line change =>
      match groups.growing with
      | none => some groups
      | some group => (change group).map fun group => ⟨groups.done, some group⟩
  | .ends => some ⟨groups.all, none⟩
  | .refused => none

end Groups

/-- What is known of a section at first, what a header tells of it, and what it is in the end. -/
structure Reading (α η γ φ : Type) where
  new : α
  tell : α → η → α
  shut : α → List γ → φ

/-- The sections that are shut, and the one that is not. -/
structure State (α γ φ : Type) where
  closed : List φ
  current : Option (α × Groups γ)

/-- What a group in progress becomes before the rest of its section ends it. -/
def grown : γ → List (Act η γ) → Option γ
  | group, [] => some group
  | group, .opens :: _ => some group
  | _, .fails :: _ => none
  | group, .header _ :: acts => grown group acts
  | group, .inner (.line change) :: acts => (change group).bind fun group => grown group acts
  | group, .inner _ :: _ => some group

variable (reading : Reading α η γ φ)

def step (state : State α γ φ) (act : Act η γ) : Option (State α γ φ) :=
  match state.current, act with
  | _, .fails => none
  | none, .opens => some ⟨state.closed, some (reading.new, .start)⟩
  | none, _ => some state
  | some (known, groups), .opens =>
      some ⟨state.closed ++ [reading.shut known groups.all], some (reading.new, .start)⟩
  | some (known, groups), .header value =>
      some ⟨state.closed, some (reading.tell known value, groups)⟩
  | some (known, groups), .inner act =>
      (groups.step act).map fun groups => ⟨state.closed, some (known, groups)⟩

def run (state : State α γ φ) (acts : List (Act η γ)) : Option (State α γ φ) :=
  acts.foldlM (step reading) state

/-- All sections, the open one with what is left of its groups. -/
def leave (left : Groups γ → List γ) (state : State α γ φ) : List φ :=
  state.closed ++ (state.current.map fun last => reading.shut last.1 (left last.2)).toList

def finish (state : State α γ φ) : List φ := leave reading Groups.all state

def cutShort (state : State α γ φ) : List φ := leave reading Groups.done state

def told : α → List (Act η γ) → α
  | known, [] => known
  | known, .opens :: _ => known
  | known, .fails :: acts => told known acts
  | known, .header value :: acts => told (reading.tell known value) acts
  | known, .inner _ :: acts => told known acts

/-- The groups of a section in the end, read from a place in it. -/
def gathered : Groups γ → List (Act η γ) → Option (List γ)
  | groups, [] => some groups.all
  | groups, .opens :: _ => some groups.all
  | _, .fails :: _ => none
  | groups, .header _ :: acts => gathered groups acts
  | groups, .inner act :: acts => (groups.step act).bind fun groups => gathered groups acts

section
variable {reading : Reading α η γ φ} {state last : State α γ φ} {acts : List (Act η γ)}
variable {front back : List (Act η γ)} {known : α}

theorem run_append :
    run reading state (front ++ back) = (run reading state front).bind fun between =>
      run reading between back :=
  List.foldlM_append

/-- A step changes no section that is shut. -/
theorem closed_step {act : Act η γ} {next : State α γ φ}
    (stepped : step reading state act = some next) : state.closed <+: next.closed := by
  obtain ⟨closed, _ | ⟨known, groups⟩⟩ := state
  · cases act <;> cases stepped <;> exact List.prefix_refl _
  · cases act with
    | fails => cases stepped
    | opens =>
      cases stepped
      exact List.prefix_append _ _
    | header value =>
      cases stepped
      exact List.prefix_refl _
    | inner act =>
      obtain ⟨_, -, rfl⟩ := Option.map_eq_some_iff.mp stepped
      exact List.prefix_refl _

theorem closed_run (ran : run reading state acts = some last) : state.closed <+: last.closed := by
  induction acts generalizing state with
  | nil =>
    cases ran
    exact List.prefix_refl _
  | cons act acts ih =>
    obtain ⟨next, stepped, later⟩ := Option.bind_eq_some_iff.mp ran
    exact (closed_step stepped).trans (ih later)

theorem closed_finish (ran : run reading state acts = some last) :
    state.closed <+: finish reading last :=
  (closed_run ran).trans (List.prefix_append _ _)

variable {groups : Groups γ}

/-- What becomes of the open section is its own affair, whatever is read behind it. -/
theorem run_open {closed : List φ}
    (ran : run reading ⟨closed, some (known, groups)⟩ acts = some last) :
    ∃ whole more, gathered groups acts = some whole ∧
      finish reading last = closed ++ reading.shut (told reading known acts) whole :: more := by
  induction acts generalizing known groups with
  | nil =>
    cases ran
    exact ⟨_, [], rfl, rfl⟩
  | cons act acts ih =>
    obtain ⟨next, stepped, later⟩ := Option.bind_eq_some_iff.mp ran
    cases act with
    | fails => cases stepped
    | opens =>
      cases stepped
      obtain ⟨more, shown⟩ := closed_finish later
      refine ⟨_, more, rfl, ?_⟩
      rw [← shown, List.append_assoc]
      rfl
    | header value =>
      cases stepped
      exact ih later
    | inner act =>
      obtain ⟨changed, grew, rfl⟩ := Option.map_eq_some_iff.mp stepped
      obtain ⟨whole, more, gathers, shown⟩ := ih later
      exact ⟨whole, more, (congrArg (Option.bind · _) grew).trans gathers, shown⟩

theorem exists_gathered (current : state.current = some (known, groups))
    (ran : run reading state acts = some last) : ∃ whole, gathered groups acts = some whole := by
  obtain ⟨closed, _⟩ := state
  cases current
  obtain ⟨whole, _, gathers, -⟩ := run_open ran
  exact ⟨whole, gathers⟩

/-- The groups that are done stay, and the one in progress grows to its end behind them. -/
theorem gathered_keeps {whole : List γ} (gathers : gathered groups acts = some whole) :
    groups.done <+: whole ∧ ∀ group, groups.growing = some group →
      ∃ full, grown group acts = some full ∧ groups.done ++ [full] <+: whole := by
  induction acts generalizing groups with
  | nil =>
    cases gathers
    refine ⟨List.prefix_append _ _, fun group growing => ⟨group, rfl, ?_⟩⟩
    rw [Groups.all, growing]
    exact List.prefix_refl _
  | cons act acts ih =>
    cases act with
    | fails => cases gathers
    | opens =>
      cases gathers
      refine ⟨List.prefix_append _ _, fun group growing => ⟨group, rfl, ?_⟩⟩
      rw [Groups.all, growing]
      exact List.prefix_refl _
    | header value => exact ih gathers
    | inner act =>
      obtain ⟨changed, stepped, later⟩ := Option.bind_eq_some_iff.mp gathers
      obtain ⟨kept, grows⟩ := ih later
      cases act with
      | group empty =>
        cases stepped
        refine ⟨(List.prefix_append _ _).trans kept, fun group growing => ⟨group, rfl, ?_⟩⟩
        rwa [Groups.all, growing] at kept
      | ends =>
        cases stepped
        refine ⟨(List.prefix_append _ _).trans kept, fun group growing => ⟨group, rfl, ?_⟩⟩
        rwa [Groups.all, growing] at kept
      | refused => cases stepped
      | line change =>
        obtain ⟨done, _ | group⟩ := groups
        · cases stepped
          exact ⟨kept, fun group growing => by cases growing⟩
        · obtain ⟨next, changes, rfl⟩ := Option.map_eq_some_iff.mp stepped
          refine ⟨kept, fun other growing => ?_⟩
          cases growing
          obtain ⟨full, grew, stays⟩ := grows next rfl
          exact ⟨full, (congrArg (Option.bind · _) changes).trans grew, stays⟩

/-- A group that is begun in these acts, and what it becomes before its section ends. -/
def Begins (acts : List (Act η γ)) (group : γ) : Prop :=
  ∃ inside empty behind, acts = inside ++ .inner (.group empty) :: behind ∧ .opens ∉ inside ∧
    grown empty behind = some group

theorem not_begins_nil {group : γ} : ¬Begins ([] : List (Act η γ)) group := by
  rintro ⟨_ | ⟨_, _⟩, _, _, cut, -⟩ <;> cases cut

theorem begins_cons {act : Act η γ} {group : γ} : Begins (act :: acts) group ↔
    (∃ empty, act = .inner (.group empty) ∧ grown empty acts = some group) ∨
      act ≠ .opens ∧ Begins acts group := by
  constructor
  · rintro ⟨_ | ⟨first, inside⟩, empty, behind, cut, closed, grew⟩
    · cases cut
      exact .inl ⟨empty, rfl, grew⟩
    · cases cut
      obtain ⟨other, closed⟩ := not_or.mp (mt List.mem_cons.mpr closed)
      exact .inr ⟨Ne.symm other, inside, empty, behind, rfl, closed, grew⟩
  · rintro (⟨empty, rfl, grew⟩ | ⟨other, inside, empty, behind, rfl, closed, grew⟩)
    · exact ⟨[], empty, acts, rfl, List.not_mem_nil, grew⟩
    · exact ⟨act :: inside, empty, behind, rfl,
        mt List.mem_cons.mp (not_or.mpr ⟨Ne.symm other, closed⟩), grew⟩

/-- The groups of a section were done before, or are the one in progress, or begin later. -/
theorem mem_gathered {whole : List γ} (gathers : gathered groups acts = some whole) {group : γ} :
    group ∈ whole ↔ group ∈ groups.done ∨
      (∃ begun, groups.growing = some begun ∧ grown begun acts = some group) ∨
        Begins acts group := by
  induction acts generalizing groups with
  | nil =>
    cases gathers
    simp [Groups.all, grown, not_begins_nil]
  | cons act acts ih =>
    cases act with
    | fails => cases gathers
    | opens =>
      cases gathers
      simp [Groups.all, grown, begins_cons]
    | header value =>
      rw [ih gathers, begins_cons]
      simp [grown]
    | inner act =>
      obtain ⟨changed, stepped, later⟩ := Option.bind_eq_some_iff.mp gathers
      rw [ih later, begins_cons]
      cases act with
      | group empty =>
        cases stepped
        simp [Groups.all, grown, or_assoc]
      | ends =>
        cases stepped
        simp [Groups.all, grown, or_assoc]
      | refused => cases stepped
      | line change =>
        obtain ⟨done, _ | begun⟩ := groups
        · cases stepped
          simp
        · obtain ⟨next, changes, rfl⟩ := Option.map_eq_some_iff.mp stepped
          simp [grown, changes]

theorem exists_grown {whole : List γ} {inside behind : List (Act η γ)} {empty : γ}
    (gathers : gathered groups (inside ++ .inner (.group empty) :: behind) = some whole)
    (closed : .opens ∉ inside) : ∃ full, grown empty behind = some full := by
  induction inside generalizing groups with
  | nil =>
    obtain ⟨changed, stepped, later⟩ := Option.bind_eq_some_iff.mp gathers
    cases stepped
    obtain ⟨full, grew, -⟩ := (gathered_keeps later).2 empty rfl
    exact ⟨full, grew⟩
  | cons act inside ih =>
    obtain ⟨other, inner⟩ := not_or.mp (mt List.mem_cons.mpr closed)
    cases act with
    | fails => cases gathers
    | opens => exact absurd rfl other
    | header value => exact ih gathers inner
    | inner act =>
      obtain ⟨changed, stepped, later⟩ := Option.bind_eq_some_iff.mp gathers
      exact ih later inner

/-- Every section stands behind the line that opens it. -/
theorem finish_of_opens (ran : run reading state (front ++ .opens :: back) = some last) :
    ∃ closed whole more, gathered .start back = some whole ∧
      finish reading last = closed ++ reading.shut (told reading reading.new back) whole :: more := by
  rw [run_append] at ran
  obtain ⟨⟨closed, current⟩, -, behind⟩ := Option.bind_eq_some_iff.mp ran
  obtain ⟨next, stepped, later⟩ := Option.bind_eq_some_iff.mp behind
  have opened : ∃ shut, next = ⟨shut, some (reading.new, .start)⟩ := by
    cases current <;> cases stepped <;> exact ⟨_, rfl⟩
  obtain ⟨shut, rfl⟩ := opened
  obtain ⟨whole, more, gathers, shown⟩ := run_open later
  exact ⟨shut, whole, more, gathers, shown⟩

/-- What is there in the end was shut before, or is the open section, or was opened later. -/
theorem mem_finish (ran : run reading state acts = some last) {result : φ}
    (member : result ∈ finish reading last) :
    result ∈ state.closed ∨ (∃ known groups whole, state.current = some (known, groups) ∧
        gathered groups acts = some whole ∧ result = reading.shut (told reading known acts) whole) ∨
      ∃ front back whole, acts = front ++ .opens :: back ∧ gathered .start back = some whole ∧
        result = reading.shut (told reading reading.new back) whole := by
  induction acts generalizing state with
  | nil =>
    obtain ⟨closed, _ | ⟨known, groups⟩⟩ := state
    · cases ran
      exact .inl (by simpa [finish, leave] using member)
    · cases ran
      obtain shut | now := List.mem_append.mp member
      · exact .inl shut
      · exact .inr (.inl ⟨known, groups, _, rfl, rfl, List.mem_singleton.mp now⟩)
  | cons act acts ih =>
    obtain ⟨next, stepped, later⟩ := Option.bind_eq_some_iff.mp ran
    have further {front back : List (Act η γ)} (cut : acts = front ++ .opens :: back) :
        act :: acts = (act :: front) ++ .opens :: back := congrArg (act :: ·) cut
    obtain shut | ⟨known, groups, whole, current, gathers, same⟩ |
      ⟨front, back, whole, cut, gathers, same⟩ := ih later
    · obtain ⟨closed, _ | ⟨known, groups⟩⟩ := state
      · cases act <;> cases stepped <;> exact .inl shut
      · cases act with
        | fails => cases stepped
        | opens =>
          cases stepped
          obtain before | now := List.mem_append.mp shut
          · exact .inl before
          · exact .inr (.inl ⟨known, groups, _, rfl, rfl, List.mem_singleton.mp now⟩)
        | header value =>
          cases stepped
          exact .inl shut
        | inner act =>
          obtain ⟨_, -, rfl⟩ := Option.map_eq_some_iff.mp stepped
          exact .inl shut
    · obtain ⟨closed, _ | ⟨before, begun⟩⟩ := state
      · cases act with
        | fails => cases stepped
        | opens =>
          cases stepped
          cases current
          exact .inr (.inr ⟨[], acts, whole, rfl, gathers, same⟩)
        | header value =>
          cases stepped
          cases current
        | inner act =>
          cases stepped
          cases current
      · cases act with
        | fails => cases stepped
        | opens =>
          cases stepped
          cases current
          exact .inr (.inr ⟨[], acts, whole, rfl, gathers, same⟩)
        | header value =>
          cases stepped
          cases current
          exact .inr (.inl ⟨_, _, whole, rfl, gathers, same⟩)
        | inner act =>
          obtain ⟨changed, grew, rfl⟩ := Option.map_eq_some_iff.mp stepped
          cases current
          exact .inr (.inl ⟨_, _, whole, rfl,
            (congrArg (Option.bind · _) grew).trans gathers, same⟩)
    · exact .inr (.inr ⟨act :: front, back, whole, further cut, gathers, same⟩)

end

/-! What goes into the groups of a section. -/
section
variable {ι : Type} (act : ι → Act η γ) (cost : ι → Nat)

/-- What the lines come to that go into groups, in the rest of a section. -/
def taken : Bool → List ι → Nat
  | _, [] => 0
  | inside, line :: lines =>
      match act line with
      | .opens => 0
      | .fails => taken inside lines
      | .header _ => taken inside lines
      | .inner (.group _) => taken true lines
      | .inner (.line _) => (if inside then cost line else 0) + taken inside lines
      | .inner .ends => taken false lines
      | .inner .refused => taken inside lines

variable {act cost}

theorem sum_gathered {weigh : γ → Nat}
    (nothing : ∀ line empty, act line = .inner (.group empty) → weigh empty = 0)
    (adds : ∀ line change group next, act line = .inner (.line change) → change group = some next →
      weigh next = weigh group + cost line)
    {lines : List ι} {groups : Groups γ} {whole : List γ}
    (gathers : gathered groups (lines.map act) = some whole) : (whole.map weigh).sum =
      (groups.all.map weigh).sum + taken act cost groups.growing.isSome lines := by
  induction lines generalizing groups with
  | nil =>
    cases gathers
    rfl
  | cons line lines ih =>
    rw [List.map_cons] at gathers
    unfold taken
    cases kind : act line with
    | fails =>
      rw [kind] at gathers
      cases gathers
    | opens =>
      rw [kind] at gathers
      cases gathers
      rfl
    | header value =>
      rw [kind] at gathers
      exact ih gathers
    | inner act =>
      rw [kind] at gathers
      obtain ⟨changed, stepped, later⟩ := Option.bind_eq_some_iff.mp gathers
      have rest := ih later
      cases act with
      | group empty =>
        cases stepped
        rw [rest]
        simp [Groups.all, nothing line empty kind]
      | ends =>
        cases stepped
        rw [rest]
        simp [Groups.all]
      | refused => cases stepped
      | line change =>
        obtain ⟨done, _ | group⟩ := groups
        · cases stepped
          rw [rest]
          simp
        · obtain ⟨next, changes, rfl⟩ := Option.map_eq_some_iff.mp stepped
          rw [rest]
          simp only [Groups.all, Option.toList_some, List.map_append, List.map_cons, List.map_nil,
            List.sum_append, List.sum_cons, List.sum_nil, Option.isSome_some, if_true,
            adds line change group next kind changes]
          omega

end

/-! Readings that stop at the first line over a bound. -/
section
variable {ι σ ε : Type}

/-- The lines before the first one that is beyond the bounds, and those that are left. -/
def cutLines (beyond : Nat → ι → Bool) (count : Nat) : List ι → List ι × List ι
  | [] => ([], [])
  | line :: lines =>
      if beyond (count + 1) line then ([], line :: lines)
      else
        let cut := cutLines beyond (count + 1) lines
        (line :: cut.1, cut.2)

/-- Reads the lines that are within the bounds, and tells whether some are left. -/
def loop (read : σ → ι → Except ε σ) (beyond : Nat → ι → Bool) (count : Nat) (state : σ) :
    List ι → Except ε (σ × Bool)
  | [] => .ok (state, false)
  | line :: lines =>
      if beyond (count + 1) line then .ok (state, true)
      else do loop read beyond (count + 1) (← read state line) lines

variable {reading : Reading α η γ φ} {beyond : Nat → ι → Bool} {act : ι → Act η γ}

theorem cutLines_append (count : Nat) (lines : List ι) :
    (cutLines beyond count lines).1 ++ (cutLines beyond count lines).2 = lines := by
  induction lines generalizing count with
  | nil => rfl
  | cons line lines ih =>
    unfold cutLines
    split
    · rfl
    · rw [List.cons_append, ih]

/-- Bounds that are wide enough cut nothing. -/
theorem cutLines_within {count : Nat} {lines : List ι}
    (within : ∀ place ≤ count + lines.length, ∀ line ∈ lines, beyond place line = false) :
    cutLines beyond count lines = (lines, []) := by
  induction lines generalizing count with
  | nil => rfl
  | cons line lines ih =>
    rw [List.length_cons] at within
    unfold cutLines
    rw [within (count + 1) (by omega) line List.mem_cons_self,
      ih fun place low later member => within place (by omega) later (List.mem_cons_of_mem _ member)]
    rfl

/-- A loop whose steps are the steps of sections reads the sections of the lines before the cut. -/
theorem loop_sections {read : σ → ι → Except ε σ} {view : σ → State α γ φ}
    (steps : ∀ state line, (read state line).toOption.map view = step reading (view state) (act line))
    (count : Nat) (state : σ) (lines : List ι) :
    (loop read beyond count state lines).toOption.map (fun result => (view result.1, result.2)) =
      (run reading (view state) ((cutLines beyond count lines).1.map act)).map fun last =>
        (last, !(cutLines beyond count lines).2.isEmpty) := by
  induction lines generalizing count state with
  | nil => rfl
  | cons line lines ih =>
    unfold loop cutLines
    split
    · rfl
    · have stepped := steps state line
      change Option.map _ (Except.toOption (read state line >>= _)) =
        ((step reading (view state) (act line)).bind fun next => run reading next _).map _
      rw [← stepped]
      cases read state line with
      | error error => rfl
      | ok next => exact ih (count + 1) next

variable (reveal : φ → List γ)

def groupAt (sections : List φ) (place inside : Nat) : Option γ :=
  sections[place]?.bind fun one => (reveal one)[inside]?

variable {reveal} {text : α → Bool} {state last : State α γ φ} {acts : List (Act η γ)}
  {left : Groups γ → List γ}

variable {whole : List γ}
variable {place : Nat} {groups : Groups γ}

theorem getElem?_of_prefix {front : List γ} (begins : front <+: whole) {item : γ}
    (there : front[place]? = some item) : whole[place]? = some item := by
  obtain ⟨more, rfl⟩ := begins
  obtain ⟨inside, -⟩ := List.getElem?_eq_some_iff.mp there
  rw [List.getElem?_append_left inside]
  exact there

/-- A section that shows its groups shows one at its place, whatever stands behind it. -/
theorem groupAt_shut
    (reveals : ∀ known groups, reveal (reading.shut known groups) = if text known then groups else [])
    {closed more : List φ} {known : α} {groups : List γ} (inside : Nat) :
    groupAt reveal (closed ++ reading.shut known groups :: more) closed.length inside =
      if text known then groups[inside]? else none := by
  unfold groupAt
  rw [List.getElem?_append_right (Nat.le_refl _), Nat.sub_self, List.getElem?_cons_zero,
    Option.bind_some, reveals]
  split
  · rfl
  · rfl

/-- The sections that are shut keep their groups. -/
theorem groupAt_closed (ran : run reading state acts = some last)
    (before : place < state.closed.length) (inside : Nat) :
    groupAt reveal (finish reading last) place inside = groupAt reveal state.closed place inside := by
  obtain ⟨more, shown⟩ := closed_finish ran
  unfold groupAt
  rw [← shown, List.getElem?_append_left before]

/-- What a state shows of its sections is there in the end exactly where the open one still shows
its groups, and has those that are left of it as its first ones. -/
theorem kept_iff
    (reveals : ∀ known groups, reveal (reading.shut known groups) = if text known then groups else [])
    (ran : run reading state acts = some last) :
    (∀ place inside group, groupAt reveal (leave reading left state) place inside = some group →
      groupAt reveal (finish reading last) place inside = some group) ↔
    ∀ known groups, state.current = some (known, groups) → text known = true → left groups ≠ [] →
      text (told reading known acts) = true ∧
        ∀ whole, gathered groups acts = some whole → left groups <+: whole := by
  obtain ⟨closed, _ | ⟨known, groups⟩⟩ := state
  · refine ⟨fun _ => nofun, fun _ place inside group there => ?_⟩
    have before : place < closed.length := by
      obtain ⟨one, member, -⟩ := Option.bind_eq_some_iff.mp there
      obtain ⟨low, -⟩ := List.getElem?_eq_some_iff.mp member
      simpa [leave] using low
    rw [groupAt_closed ran before]
    simpa [leave] using there
  · obtain ⟨whole, more, gathers, shown⟩ := run_open ran
    constructor
    · intro kept other others current shows some_left
      cases current
      have each (inside : Nat) (group : γ) (there : (left groups)[inside]? = some group) :
          text (told reading known acts) = true ∧ whole[inside]? = some group := by
        have here := kept closed.length inside group
          ((groupAt_shut reveals inside).trans (by rw [if_pos shows]; exact there))
        rwa [shown, groupAt_shut reveals, Option.ite_none_right_eq_some] at here
      obtain ⟨first, rest, some_left⟩ := List.exists_cons_of_ne_nil some_left
      refine ⟨(each 0 first (by rw [some_left]; rfl)).1, fun full same => ?_⟩
      cases gathers.symm.trans same
      rw [List.prefix_iff_getElem?]
      intro inside low
      exact (each inside _ (List.getElem?_eq_getElem low)).2
    · intro condition place inside group there
      by_cases before : place < closed.length
      · rw [groupAt_closed ran before]
        unfold groupAt leave at there
        rwa [List.getElem?_append_left before] at there
      · have same : place = closed.length := by
          obtain ⟨one, member, -⟩ := Option.bind_eq_some_iff.mp there
          obtain ⟨low, -⟩ := List.getElem?_eq_some_iff.mp member
          simp [leave] at low
          omega
        subst same
        change groupAt reveal (closed ++ reading.shut known (left groups) :: []) _ _ = _ at there
        rw [groupAt_shut reveals, Option.ite_none_right_eq_some] at there
        obtain ⟨shows, there⟩ := there
        have some_left : left groups ≠ [] := by
          intro none
          rw [none] at there
          cases there
        obtain ⟨still, begins⟩ := condition known groups rfl shows some_left
        rw [shown, groupAt_shut reveals, if_pos still]
        exact getElem?_of_prefix (begins whole gathers) there

/-- The groups that are done are always the first ones. -/
theorem done_prefix (gathers : gathered groups acts = some whole) : groups.done <+: whole :=
  (gathered_keeps gathers).1

/-- With the one in progress they are the first ones exactly where nothing is added to it. -/
theorem all_prefix_iff (gathers : gathered groups acts = some whole) :
    groups.all <+: whole ↔ ∀ group, groups.growing = some group → grown group acts = some group := by
  obtain ⟨kept, grows⟩ := gathered_keeps gathers
  obtain ⟨done, _ | group⟩ := groups
  · refine iff_of_true ?_ nofun
    rw [Groups.all, Option.toList_none, List.append_nil]
    exact kept
  · obtain ⟨full, grew, begins⟩ := grows group rfl
    change done ++ [group] <+: whole ↔ _
    have same : done ++ [group] <+: whole ↔ full = group := by
      constructor
      · intro also
        have both := List.prefix_of_prefix_length_le also begins (by simp)
        obtain ⟨-, tail⟩ := List.append_inj (both.eq_of_length (by simp)) rfl
        exact (List.singleton_inj.mp tail).symm
      · rintro rfl
        exact begins
    rw [same]
    constructor
    · rintro rfl other current
      cases current
      exact grew
    · intro stays
      exact Option.some.inj (grew.symm.trans (stays group rfl))

end

/-! Readings whose open section holds the groups that are done, with the one in progress beside
it. -/

/-- Sections that hold groups. What else is known of one does not depend on them. -/
structure Filing (μ η γ φ : Type) where
  new : μ
  tell : μ → η → μ
  held : μ → List γ
  holding : μ → List γ → μ
  shut : μ → φ
  held_new : held new = []
  held_tell : ∀ file value, held (tell file value) = held file
  tell_holding : ∀ file groups value, tell (holding file groups) value = holding (tell file value) groups
  held_holding : ∀ file groups, held (holding file groups) = groups
  holding_holding : ∀ file first second, holding (holding file first) second = holding file second
  holding_held : ∀ file, holding file (held file) = file

structure Flat (μ γ φ : Type) where
  files : List φ
  current : Option μ
  growing : Option γ

namespace Filing

variable {μ : Type} (filing : Filing μ η γ φ)

def asReading : Reading μ η γ φ where
  new := filing.holding filing.new []
  tell := filing.tell
  shut := fun known groups => filing.shut (filing.holding known groups)

def view (state : Flat μ γ φ) : State μ γ φ where
  closed := state.files
  current := state.current.map fun file =>
    (filing.holding file [], ⟨filing.held file, state.growing⟩)

def flushGroup (state : Flat μ γ φ) : Flat μ γ φ :=
  match state.current, state.growing with
  | some file, some group =>
      ⟨state.files, some (filing.holding file (filing.held file ++ [group])), none⟩
  | current, _ => ⟨state.files, current, none⟩

def shutFile (state : Flat μ γ φ) : Flat μ γ φ :=
  match state.current with
  | none => state
  | some file => ⟨state.files ++ [filing.shut file], none, state.growing⟩

def step (state : Flat μ γ φ) (act : Act η γ) : Option (Flat μ γ φ) :=
  match state.current, act with
  | _, .fails => none
  | _, .opens => some { filing.shutFile (filing.flushGroup state) with current := some filing.new }
  | none, _ => some state
  | some file, .header value => some { state with current := some (filing.tell file value) }
  | some _, .inner (.group empty) => some { filing.flushGroup state with growing := some empty }
  | some _, .inner (.line change) =>
      match state.growing with
      | none => some state
      | some group => (change group).map fun group => { state with growing := some group }
  | some _, .inner .ends => some (filing.flushGroup state)
  | some _, .inner .refused => none

theorem view_flushGroup (files : List φ) (file : μ) (growing : Option γ) :
    ∃ flushed, filing.flushGroup ⟨files, some file, growing⟩ = ⟨files, some flushed, none⟩ ∧
      filing.holding flushed [] = filing.holding file [] ∧
      filing.held flushed = filing.held file ++ growing.toList := by
  cases growing with
  | none => exact ⟨file, rfl, rfl, (List.append_nil _).symm⟩
  | some group => exact ⟨_, rfl, filing.holding_holding _ _ _, filing.held_holding _ _⟩

variable {filing}
variable (state : Flat μ γ φ)

/-- Each step is a step of the sections. -/
theorem view_step (act : Act η γ) :
    (filing.step state act).map filing.view = Sections.step filing.asReading (filing.view state) act := by
  obtain ⟨files, _ | file, growing⟩ := state
  · cases act with
    | opens =>
      change some (State.mk _ (some (_, Groups.mk (filing.held filing.new) _))) = _
      rw [filing.held_new]
      cases growing <;> rfl
    | _ => rfl
  · obtain ⟨flushed, flush, known, held⟩ := view_flushGroup filing files file growing
    have whole : filing.shut flushed =
        filing.asReading.shut (filing.holding file []) (filing.held file ++ growing.toList) := by
      rw [← known, ← held]
      change _ = filing.shut (filing.holding (filing.holding flushed []) (filing.held flushed))
      rw [filing.holding_holding, filing.holding_held]
    cases act with
    | fails => rfl
    | opens =>
      unfold step
      rw [flush]
      change some (State.mk (files ++ [filing.shut flushed])
        (some (_, Groups.mk (filing.held filing.new) _))) = _
      rw [filing.held_new, whole]
      rfl
    | header value =>
      change some (State.mk files (some (filing.holding (filing.tell file value) [],
        ⟨filing.held (filing.tell file value), growing⟩))) = _
      rw [filing.held_tell, ← filing.tell_holding]
      rfl
    | inner act =>
      cases act with
      | group empty =>
        unfold step
        rw [flush]
        change some (State.mk files (some (filing.holding flushed [], ⟨filing.held flushed, _⟩))) = _
        rw [known, held]
        rfl
      | line change =>
        cases growing with
        | none => rfl
        | some group =>
          change ((change group).map _).map _ = ((change group).map _).map _
          cases change group <;> rfl
      | ends =>
        unfold step
        rw [flush]
        change some (State.mk files (some (filing.holding flushed [], ⟨filing.held flushed, _⟩))) = _
        rw [known, held]
        rfl
      | refused => rfl

/-- At the end the group in progress goes into its section, or is lost. -/
theorem finish_view :
    finish filing.asReading (filing.view state) = (filing.shutFile (filing.flushGroup state)).files := by
  obtain ⟨files, _ | file, growing⟩ := state
  · exact List.append_nil _
  · obtain ⟨flushed, flush, known, held⟩ := view_flushGroup filing files file growing
    rw [flush]
    change files ++ [filing.shut (filing.holding (filing.holding file []) _)] =
      files ++ [filing.shut flushed]
    rw [← known, Groups.all, ← held, filing.holding_holding, filing.holding_held]

theorem cutShort_view :
    cutShort filing.asReading (filing.view state) = (filing.shutFile state).files := by
  obtain ⟨files, _ | file, growing⟩ := state
  · exact List.append_nil _
  · change files ++ [filing.shut (filing.holding (filing.holding file []) (filing.held file))] =
      files ++ [filing.shut file]
    rw [filing.holding_holding, filing.holding_held]

end Filing

end Refyard.Sections
