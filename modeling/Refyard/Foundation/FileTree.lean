import Refyard.Foundation.Utf8
import Mathlib.Data.List.Induction

/-! A file system of directories, files and symbolic links, and where a path leads in it. The
place of a node is the list of the names from the root to it, none of them a link. -/
namespace Refyard

/-- One part of a path that is not empty and not `.`. -/
inductive Component (Name : Type) where
  | parent
  | child (name : Name)
  deriving DecidableEq

inductive FileNode (Name : Type) where
  | directory
  | file
  | link (absolute : Bool) (target : List (Component Name))
  deriving DecidableEq

structure FileTree (Name : Type) where
  node : List Name → Option (FileNode Name)
  root : node [] = some .directory
  closed : ∀ path name, node (path ++ [name]) ≠ none → node path = some .directory

namespace FileTree
variable {Name : Type} (tree : FileTree Name)

/-- The directory a path leads to, seen from a directory. -/
inductive Resolves : List Name → List (Component Name) → List Name → Prop where
  | here (place : List Name) : Resolves place [] place
  | parent {place last : List Name} {rest : List (Component Name)}
      (behind : Resolves place.dropLast rest last) : Resolves place (.parent :: rest) last
  | enter {place last : List Name} {name : Name} {rest : List (Component Name)}
      (inside : tree.node (place ++ [name]) = some .directory)
      (behind : Resolves (place ++ [name]) rest last) : Resolves place (.child name :: rest) last
  | follow {place mid last : List Name} {name : Name} {absolute : Bool}
      {target rest : List (Component Name)}
      (linked : tree.node (place ++ [name]) = some (.link absolute target))
      (led : Resolves (if absolute then [] else place) target mid)
      (behind : Resolves mid rest last) : Resolves place (.child name :: rest) last

/-- The last directory on the way, and the names behind it of which the first is missing. -/
def Reaches (place : List Name) (path : List (Component Name)) (last missing : List Name) : Prop :=
  ∃ front, path = front ++ missing.map .child ∧ tree.Resolves place front last ∧
    ∀ name ∈ missing.head?, tree.node (last ++ [name]) = none

def Vacant (place : List Name) : Prop := ∀ name, tree.node (place ++ [name]) = none

/-- Where a directory that is made with the directories above it comes to stand. -/
def Makes (place : List Name) (path : List (Component Name)) (made : List Name) : Prop :=
  ∃ last missing, tree.Reaches place path last missing ∧ made = last ++ missing ∧ tree.Vacant made

variable {tree} {place last : List Name}

theorem resolves_append {front back : List (Component Name)} :
    tree.Resolves place (front ++ back) last ↔
      ∃ mid, tree.Resolves place front mid ∧ tree.Resolves mid back last := by
  constructor
  · intro h
    induction front generalizing place with
    | nil => exact ⟨place, .here place, h⟩
    | cons first front ih =>
      cases h with
      | parent behind =>
        obtain ⟨mid, before, after⟩ := ih behind
        exact ⟨mid, .parent before, after⟩
      | enter inside behind =>
        obtain ⟨mid, before, after⟩ := ih behind
        exact ⟨mid, .enter inside before, after⟩
      | follow linked led behind =>
        obtain ⟨mid, before, after⟩ := ih behind
        exact ⟨mid, .follow linked led before, after⟩
  · rintro ⟨mid, before, after⟩
    induction before with
    | here place => exact after
    | parent behind ih => exact .parent (ih after)
    | enter inside behind ih => exact .enter inside (ih after)
    | follow linked led behind _ ih => exact .follow linked led (ih after)

variable {path : List (Component Name)}

theorem Resolves.unique {other : List Name} (h : tree.Resolves place path last)
    (also : tree.Resolves place path other) : last = other := by
  induction h generalizing other with
  | here place =>
    cases also
    rfl
  | parent behind ih =>
    cases also with
    | parent again => exact ih again
  | enter inside behind ih =>
    cases also with
    | enter _ again => exact ih again
    | follow linked _ _ => exact absurd (inside.symm.trans linked) (by simp)
  | follow linked led behind leads ih =>
    cases also with
    | enter inside _ => exact absurd (inside.symm.trans linked) (by simp)
    | follow again ledAgain behindAgain =>
      obtain ⟨rfl, rfl⟩ := FileNode.link.inj (Option.some.inj (linked.symm.trans again))
      obtain rfl := leads ledAgain
      exact ih behindAgain

/-- Above a directory there are directories. -/
theorem directory_above {path : List Name} (above : path <+: place)
    (stands : tree.node place = some .directory) : tree.node path = some .directory := by
  obtain ⟨names, rfl⟩ := above
  induction names using List.reverseRecOn with
  | nil => rwa [List.append_nil] at stands
  | append_singleton names name ih =>
    rw [← List.append_assoc] at stands
    exact ih (tree.closed (path ++ names) name (by rw [stands]; simp))

theorem Resolves.directory (h : tree.Resolves place path last)
    (stands : tree.node place = some .directory) : tree.node last = some .directory := by
  induction h with
  | here place => exact stands
  | parent behind ih => exact ih (directory_above (List.dropLast_prefix _) stands)
  | enter inside behind ih => exact ih inside
  | @follow place mid last name absolute target rest linked led behind leads ih =>
    refine ih (leads ?_)
    cases absolute with
    | false => exact stands
    | true => exact tree.root

/-- Under an empty place there is nothing. -/
theorem node_eq_none {names : List Name} (missing : tree.node place = none) :
    tree.node (place ++ names) = none := by
  induction names using List.reverseRecOn with
  | nil => rwa [List.append_nil]
  | append_singleton names name ih =>
    by_contra stands
    rw [← List.append_assoc] at stands
    exact absurd (ih.symm.trans (tree.closed _ _ stands)) (by simp)

/-- A place behind a missing name is below a directory exactly when the last directory on the
way to it is. -/
theorem prefix_iff_of_missing {top missing : List Name} (stands : tree.node top = some .directory)
    (absent : ∀ name ∈ missing.head?, tree.node (last ++ [name]) = none) :
    top <+: last ++ missing ↔ top <+: last := by
  constructor
  · intro below
    rcases List.prefix_or_prefix_of_prefix below (List.prefix_append last missing) with
      inside | above
    · exact inside
    · obtain ⟨names, rfl⟩ := above
      cases names with
      | nil => exact (List.append_nil last).symm ▸ List.prefix_rfl
      | cons name names =>
        obtain ⟨rest, rfl⟩ := (List.prefix_append_right_inj last).mp below
        have gone : tree.node (last ++ [name] ++ names) = none := node_eq_none (absent name rfl)
        rw [List.append_assoc, List.singleton_append, stands] at gone
        cases gone
  · intro below
    exact below.trans (List.prefix_append last missing)

/-- Behind a path that leads to a directory, the way goes on from there. -/
theorem reaches_append {front back : List (Component Name)} {mid missing : List Name}
    (leads : tree.Resolves place front mid) :
    tree.Reaches place (front ++ back) last missing ↔ tree.Reaches mid back last missing := by
  constructor
  · rintro ⟨walked, spelled, walks, absent⟩
    rcases List.append_eq_append_iff.mp spelled with ⟨rest, rfl, whole⟩ | ⟨rest, rfl, whole⟩
    · obtain ⟨other, first, second⟩ := resolves_append.mp walks
      obtain rfl := first.unique leads
      exact ⟨rest, whole, second, absent⟩
    · obtain ⟨other, first, second⟩ := resolves_append.mp leads
      obtain rfl := first.unique walks
      cases rest with
      | nil =>
        cases second
        exact ⟨[], whole.symm, .here _, absent⟩
      | cons component rest =>
        -- the first of the missing names is on the way that leads on
        cases missing with
        | nil => cases whole
        | cons name missing =>
          obtain ⟨rfl, -⟩ := List.cons.inj whole
          have gone := absent name rfl
          cases second with
          | enter inside _ => rw [inside] at gone; cases gone
          | follow linked _ _ => rw [linked] at gone; cases gone
  · rintro ⟨walked, rfl, walks, absent⟩
    exact ⟨front ++ walked, (List.append_assoc ..).symm,
      resolves_append.mpr ⟨mid, leads, walks⟩, absent⟩

/-- What is made below a directory is not that directory, when the path begins with a name. -/
theorem Makes.ne {name : Name} {made : List Name} (h : tree.Makes place (.child name :: path) made) :
    made ≠ place := by
  rintro rfl
  obtain ⟨last, missing, ⟨front, spelled, leads, absent⟩, same, vacant⟩ := h
  cases front with
  | nil =>
    cases leads
    cases missing with
    | nil => cases spelled
    | cons first rest => simp at same
  | cons first front =>
    obtain ⟨rfl, -⟩ := List.cons.inj spelled
    have gone := vacant name
    cases leads with
    | enter inside behind => rw [inside] at gone; cases gone
    | follow linked led behind => rw [linked] at gone; cases gone

end FileTree

/-! Paths as bytes. -/

namespace Component

def ofName (name : Bytes) : Option (Component Bytes) :=
  if name = [] ∨ name = [0x2e] then none
  else if name = [0x2e, 0x2e] then some .parent
  else some (.child name)

def ofPath (path : Bytes) : List (Component Bytes) := (path.splitOn 0x2f).filterMap ofName

theorem ofPath_append_separator (front back : Bytes) :
    ofPath (front ++ 0x2f :: back) = ofPath front ++ ofPath back := by
  rw [ofPath, List.splitOn_append_cons_self, List.filterMap_append, ofPath, ofPath]

@[simp] theorem ofPath_nil : ofPath [] = [] := rfl

end Component

namespace Utf8

/-- A text and its bytes have the same parts between separators. -/
theorem splitOn_encode (chars : List Char) :
    (encode chars).splitOn 0x2f = (chars.splitOn '/').map encode := by
  induction chars with
  | nil => rfl
  | cons char chars ih =>
    rw [encode_cons, List.splitOn_cons_eq_if_modifyHead]
    by_cases same : char = '/'
    · subst same
      rw [if_pos (by rfl), List.map_cons, ← ih]
      exact List.splitOn_append_cons_self (a := 0x2f) ([] : Bytes) (encode chars)
    · have free : (0x2f : UInt8) ∉ String.utf8EncodeChar char :=
        charByte_notMem_encodeChar (show '/'.toNat < 0x80 by decide) same
      rw [if_neg (by simpa using same)]
      cases parts : chars.splitOn '/' with
      | nil => exact absurd parts (List.splitOn_ne_nil _ _)
      | cons first rest =>
        rw [parts, List.map_cons, Delimited.splitOn_eq_cons] at ih
        obtain ⟨spelled, firstFree, restFree⟩ := ih
        rw [List.modifyHead_cons, List.map_cons, Delimited.splitOn_eq_cons]
        refine ⟨by rw [spelled, encode_cons, List.append_assoc], ?_, restFree⟩
        rw [encode_cons, List.mem_append, not_or]
        exact ⟨free, firstFree⟩

end Utf8

/-- A name that does not stand for a directory seen from another. -/
def ProperName (name : List Char) : Prop := name ≠ [] ∧ name ≠ ['.'] ∧ name ≠ ['.', '.']

instance (name : List Char) : Decidable (ProperName name) :=
  inferInstanceAs (Decidable (_ ∧ _ ∧ _))

theorem Component.ofName_encode {name : List Char} (proper : ProperName name) :
    ofName (Utf8.encode name) = some (.child (Utf8.encode name)) := by
  obtain ⟨some_char, other, another⟩ := proper
  have dot : Utf8.encode name ≠ [0x2e] := fun same => other (Utf8.encode_injective same)
  have dots : Utf8.encode name ≠ [0x2e, 0x2e] := fun same => another (Utf8.encode_injective same)
  unfold ofName
  rw [if_neg (by simp [Utf8.encode_eq_nil, some_char, dot]), if_neg dots]

/-- Names with separators between them. -/
theorem Component.ofPath_encode {text : List Char} (proper : ∀ name ∈ text.splitOn '/', ProperName name) :
    ofPath (Utf8.encode text) = (text.splitOn '/').map fun name => .child (Utf8.encode name) := by
  rw [ofPath, Utf8.splitOn_encode, List.filterMap_map, ← List.filterMap_eq_map]
  apply List.filterMap_congr
  intro name member
  exact ofName_encode (proper name member)

/-- Names that no separator is in, written with separators between and before them. -/
theorem Component.ofPath_intercalate {names : List (List Char)}
    (proper : ∀ name ∈ names, ProperName name ∧ '/' ∉ name) :
    ofPath (Utf8.encode ('/' :: ['/'].intercalate names)) =
      names.map fun name => .child (Utf8.encode name) := by
  have rooted : ofPath (Utf8.encode ('/' :: ['/'].intercalate names)) =
      ofPath (Utf8.encode (['/'].intercalate names)) :=
    ofPath_append_separator [] _
  rw [rooted]
  by_cases none : names = []
  · rw [none]
    rfl
  · have parts : (['/'].intercalate names).splitOn '/' = names :=
      List.splitOn_intercalate '/' (fun name member => (proper name member).2) none
    rw [ofPath_encode, parts]
    rw [parts]
    exact fun name member => (proper name member).1

end Refyard
