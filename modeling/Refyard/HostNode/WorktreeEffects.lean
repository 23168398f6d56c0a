import Refyard.HostNode.NodePaths
import Refyard.Writes.Worktrees

/-! Where the two hosts let Git put a new worktree. Both decide on the text of the path; the
directory that Git makes stands where the links of the file system lead. -/
namespace Refyard.WorktreeEffects
open Approvals

inductive DestinationProblem where
  | shape
  | absolute
  | driveLetter
  | emptySegment
  | dotSegment
  | gitSegment

def DestinationProblem.message : DestinationProblem → Option String
  | .shape => none
  | .absolute => some "must be relative to the approved root, not absolute"
  | .driveLetter => some "must not start with a drive letter"
  | .emptySegment => some "must not contain empty path segments"
  | .dotSegment => some "must not contain \".\" or \"..\" segments"
  | .gitSegment => some "must not contain a \".git\" path segment"

def hasDriveLetter : List Char → Bool
  | letter :: ':' :: _ => letter.isAlpha
  | _ => false

def segmentProblem (segment : List Char) : Option DestinationProblem :=
  if segment = [] then some .emptySegment
  else if segment = ['.'] ∨ segment = ['.', '.'] then some .dotSegment
  else if segment = ".git".toList then some .gitSegment
  else none

/-- A destination in an approved root: relative, contained and not metadata of Git. -/
def validateRelativeDestination (value : String) : Option DestinationProblem :=
  if value.isEmpty || 1024 < (Utf16.encode value.toList).length then some .shape
  else if value.toList.head? = some '/' ∨ value.toList.head? = some '\\' then some .absolute
  else if hasDriveLetter value.toList then some .driveLetter
  else (value.toList.splitOn '/').findSome? segmentProblem

/-- Whether the candidate is inside the parent or the parent, by the text of the two. -/
def containedBy (parent candidate : String) : Bool :=
  let rel := relative parent candidate
  segments parent = segments candidate ||
    (!rel.isEmpty && !"../".toList.isPrefixOf rel.toList && rel ≠ ".." && !isAbsolute rel)

def resolveDestination (rootPath relativeDestination : String) : Except Problem String :=
  let candidate := join rootPath relativeDestination
  if containedBy rootPath candidate then .ok candidate
  else .error (.new .forbidden "the destination would be outside the approved root")

structure AcceptedByBoth (destination : String) : Prop where
  rust : validatedRelativePath destination = .ok ()
  typeScript : validateRelativeDestination destination = none

/-- What one of the hosts gives to `git worktree add`. A root is a real path in the
TypeScript host. -/
def Planned (root destination planned : String) : Prop :=
  worktreeDestination (textBytes root) destination = some planned ∨
    IsRealPath root ∧ resolveDestination root destination = .ok planned

/-- `git worktree add`, by where it makes a directory for a destination. It makes the ones
above as well, and refuses a place where something stands. -/
structure WorktreeAdd where
  makes : FileTree Bytes → String → Option (List Bytes)
  placed : ∀ tree destination made, makes tree destination = some made →
    tree.Makes [] (Component.ofPath (textBytes destination)) made

/-- The directory that Git makes is inside the root, and neither the root nor a worktree. -/
def StaysInside (tree : FileTree Bytes) (root : String) (top : List Bytes)
    (destination : String) : Prop :=
  ∀ (git : WorktreeAdd) (planned : String), Planned root destination planned →
    ∀ made, git.makes tree planned = some made →
      top <+: made ∧ made ≠ top ∧ tree.node (made ++ [asciiBytes ".git"]) = none

/-- The last directory on the way to the destination is inside the root, unless something
stands at the destination already. -/
def LedInside (tree : FileTree Bytes) (top : List Bytes) (destination : String) : Prop :=
  ∀ last missing, tree.Reaches top (Component.ofPath (textBytes destination)) last missing →
    tree.Vacant (last ++ missing) → top <+: last

open Classical in
noncomputable def WorktreeAdd.only {tree : FileTree Bytes} {destination : String}
    {made : List Bytes} (h : tree.Makes [] (Component.ofPath (textBytes destination)) made) :
    WorktreeAdd where
  makes other text := if other = tree ∧ text = destination then some made else none
  placed other text place found := by
    split at found
    · rename_i same
      obtain ⟨rfl, rfl⟩ := same
      exact Option.some.inj found ▸ h
    · cases found

@[simp] theorem WorktreeAdd.makes_only {tree : FileTree Bytes} {destination : String}
    {made : List Bytes} (h : tree.Makes [] (Component.ofPath (textBytes destination)) made) :
    (WorktreeAdd.only h).makes tree destination = some made := by
  simp [WorktreeAdd.only]

section
variable {root destination planned : String}

theorem AcceptedByBoth.proper (h : AcceptedByBoth destination) :
    ∀ name ∈ destination.toList.splitOn '/', ProperName name := by
  intro name member
  have sound := h.typeScript
  unfold validateRelativeDestination at sound
  split_ifs at sound
  have fine := List.findSome?_eq_none_iff.mp sound name member
  unfold segmentProblem at fine
  split_ifs at fine with empty dots git
  rw [not_or] at dots
  exact ⟨empty, dots⟩

theorem AcceptedByBoth.relative (h : AcceptedByBoth destination) :
    (textBytes destination).head? ≠ some 0x2f := by
  intro first
  have proper := h.proper
  cases chars : destination.toList with
  | nil =>
    rw [textBytes, chars] at first
    cases first
  | cons char rest =>
    by_cases slash : char = '/'
    · subst slash
      rw [chars] at proper
      refine (proper [] ?_).1 rfl
      rw [show '/' :: rest = [] ++ '/' :: rest from rfl, List.splitOn_append_cons_self]
      exact List.mem_append_left _ List.mem_cons_self
    · have free : (0x2f : UInt8) ∉ String.utf8EncodeChar char :=
        Utf8.charByte_notMem_encodeChar (show '/'.toNat < 0x80 by decide) slash
      rw [textBytes, chars, Utf8.encode_cons, List.head?_append_of_ne_nil _ (Utf8.encodeChar_ne char)]
        at first
      exact free (List.mem_of_mem_head? first)

theorem ofPath_joinPath {root relative : Bytes} (behind : relative.head? ≠ some 0x2f) :
    Component.ofPath (joinPath root relative) =
      Component.ofPath root ++ Component.ofPath relative := by
  unfold joinPath
  rw [if_neg behind]
  split
  · rename_i ends
    cases root using List.reverseRecOn with
    | nil => rfl
    | append_singleton front last =>
      obtain rfl : last = 0x2f := by simpa using ends
      rw [List.append_assoc, List.singleton_append, Component.ofPath_append_separator,
        Component.ofPath_append_separator, Component.ofPath_nil, List.append_nil]
  · exact Component.ofPath_append_separator root relative

theorem ofPath_worktreeDestination (h : AcceptedByBoth destination)
    (plans : worktreeDestination (textBytes root) destination = some planned) :
    Component.ofPath (textBytes planned) =
      Component.ofPath (textBytes root) ++ Component.ofPath (textBytes destination) := by
  obtain ⟨chars, decoded, rfl⟩ := Option.map_eq_some_iff.mp plans
  rw [textBytes, String.toList_ofList, ← Utf8.decodeStrict_eq_some.mp decoded]
  exact ofPath_joinPath h.relative

theorem ofPath_resolveDestination (h : AcceptedByBoth destination) (real : IsRealPath root)
    (plans : resolveDestination root destination = .ok planned) :
    Component.ofPath (textBytes planned) =
      Component.ofPath (textBytes root) ++ Component.ofPath (textBytes destination) := by
  obtain ⟨names, spelled, proper⟩ := real
  have joined : Component.ofPath (textBytes (join root destination)) =
      (names ++ destination.toList.splitOn '/').map fun name => .child (Utf8.encode name) := by
    rw [textBytes, toList_join spelled proper h.proper]
    exact Component.ofPath_intercalate (proper_behind proper h.proper)
  unfold resolveDestination at plans
  dsimp only at plans
  split at plans
  · obtain rfl := Except.ok.inj plans
    rw [joined, textBytes, spelled, Component.ofPath_intercalate proper, textBytes,
      Component.ofPath_encode h.proper, List.map_append]
  · cases plans

theorem ofPath_planned (h : AcceptedByBoth destination) (plans : Planned root destination planned) :
    Component.ofPath (textBytes planned) =
      Component.ofPath (textBytes root) ++ Component.ofPath (textBytes destination) := by
  rcases plans with rust | ⟨real, typeScript⟩
  · exact ofPath_worktreeDestination h rust
  · exact ofPath_resolveDestination h real typeScript

theorem exists_planned (root destination : String) :
    ∃ planned, Planned root destination planned := by
  have encoded : ∃ chars, joinPath (textBytes root) (textBytes destination) = Utf8.encode chars := by
    unfold joinPath textBytes
    split
    · exact ⟨_, rfl⟩
    · split
      · exact ⟨_, (Utf8.encode_append _ _).symm⟩
      · refine ⟨root.toList ++ '/' :: destination.toList, ?_⟩
        rw [Utf8.encode_append, Utf8.encode_cons]
        rfl
  obtain ⟨chars, spelled⟩ := encoded
  refine ⟨String.ofList chars, .inl ?_⟩
  rw [worktreeDestination, Utf8.decodeStrict_eq_some.mpr spelled, Option.map_some]

end

/-- Whatever links the file system holds: of a destination that both hosts accept, what Git
makes is inside the root exactly when the last directory on the way to it is. -/
theorem stays_inside_iff (tree : FileTree Bytes) {root : String} {top : List Bytes}
    (stands : tree.Resolves [] (Component.ofPath (textBytes root)) top) {destination : String}
    (accepted : AcceptedByBoth destination) :
    StaysInside tree root top destination ↔ LedInside tree top destination := by
  have directory := stands.directory tree.root
  constructor
  · intro inside last missing reaches vacant
    obtain ⟨planned, plans⟩ := exists_planned root destination
    have makes : tree.Makes [] (Component.ofPath (textBytes planned)) (last ++ missing) :=
      ⟨last, missing, by rwa [ofPath_planned accepted plans, FileTree.reaches_append stands], rfl,
        vacant⟩
    obtain ⟨below, -, -⟩ := inside (.only makes) planned plans _ (WorktreeAdd.makes_only makes)
    obtain ⟨-, -, -, absent⟩ := reaches
    exact (FileTree.prefix_iff_of_missing directory absent).mp below
  · intro led git planned plans made adds
    obtain ⟨last, missing, reaches, rfl, vacant⟩ := git.placed tree planned made adds
    rw [ofPath_planned accepted plans, FileTree.reaches_append stands] at reaches
    have below := led last missing reaches vacant
    refine ⟨below.trans (List.prefix_append last missing), ?_, vacant _⟩
    have proper := accepted.proper
    cases parts : destination.toList.splitOn '/' with
    | nil => exact absurd parts (List.splitOn_ne_nil _ _)
    | cons first rest =>
      have spelled : Component.ofPath (textBytes destination) =
          .child (Utf8.encode first) :: rest.map fun name => .child (Utf8.encode name) := by
        rw [textBytes, Component.ofPath_encode proper, parts, List.map_cons]
      have makes : tree.Makes top (Component.ofPath (textBytes destination)) (last ++ missing) :=
        ⟨last, missing, reaches, rfl, vacant⟩
      rw [spelled] at makes
      exact makes.ne

def linkedNode (path : List Bytes) : Option (FileNode Bytes) :=
  if path = [] ∨ path = [asciiBytes "root"] ∨ path = [asciiBytes "outside"] then some .directory
  else if path = [asciiBytes "root"] ++ [asciiBytes "link"] then
    some (.link true [.child (asciiBytes "outside")])
  else none

def linkedTree : FileTree Bytes where
  node := linkedNode
  root := rfl
  closed path name stands := by
    unfold linkedNode at stands
    split at stands
    · rename_i directory
      rcases directory with none | root | outside
      · simp at none
      · obtain ⟨rfl, -⟩ := List.append_eq_singleton_iff.mp root |>.resolve_right (by simp)
        rfl
      · obtain ⟨rfl, -⟩ := List.append_eq_singleton_iff.mp outside |>.resolve_right (by simp)
        rfl
    · split at stands
      · rename_i linked
        obtain ⟨rfl, -⟩ := List.append_inj' linked rfl
        rfl
      · exact absurd rfl stands

theorem resolves_linkedTree :
    linkedTree.Resolves [] (Component.ofPath (textBytes "/root")) [asciiBytes "root"] :=
  .enter (by decide +kernel) (.here _)

/-- A destination that no link is on the way to is inside. -/
theorem stays_inside_plain : StaysInside linkedTree "/root" [asciiBytes "root"] "wt" := by
  refine (stays_inside_iff linkedTree resolves_linkedTree ⟨by decide +kernel, by decide +kernel⟩).mpr ?_
  rintro last missing ⟨front, spelled, leads, -⟩ -
  cases leads with
  | here => exact List.prefix_rfl
  | parent behind => cases (List.cons.inj spelled).1
  | enter inside behind =>
    obtain ⟨same, -⟩ := List.cons.inj spelled
    obtain rfl := Component.child.inj same
    exact absurd inside (by decide +kernel)
  | follow linked led behind =>
    obtain ⟨same, -⟩ := List.cons.inj spelled
    obtain rfl := Component.child.inj same
    exact absurd linked (by
      rw [show linkedTree.node ([asciiBytes "root"] ++ [_]) = none from by decide +kernel]
      simp)

/-- A destination behind a link is accepted by both hosts and is made where the link leads. -/
theorem link_leads_outside : AcceptedByBoth "link/wt" ∧ IsRealPath "/root" ∧
      linkedTree.Resolves [] (Component.ofPath (textBytes "/root")) [asciiBytes "root"] ∧
      worktreeDestination (textBytes "/root") "link/wt" = some "/root/link/wt" ∧
      resolveDestination "/root" "link/wt" = .ok "/root/link/wt" ∧
      (∃ git : WorktreeAdd, git.makes linkedTree "/root/link/wt" =
        some [asciiBytes "outside", asciiBytes "wt"]) ∧
      ¬StaysInside linkedTree "/root" [asciiBytes "root"] "link/wt" := by
  have plans : worktreeDestination (textBytes "/root") "link/wt" = some "/root/link/wt" := by
    decide +kernel
  have real : IsRealPath "/root" := by
    refine ⟨["root".toList], by decide, fun name member => ?_⟩
    obtain rfl := List.mem_singleton.mp member
    exact ⟨⟨by decide, by decide, by decide⟩, by decide⟩
  have linked : linkedTree.node ([asciiBytes "root"] ++ [asciiBytes "link"]) =
      some (.link true [.child (asciiBytes "outside")]) := by decide +kernel
  have outside : linkedTree.node ([] ++ [asciiBytes "outside"]) = some .directory := by
    decide +kernel
  have led : linkedTree.Resolves [] [.child (asciiBytes "root"), .child (asciiBytes "link")]
      [asciiBytes "outside"] :=
    .enter (by decide +kernel) (.follow linked (.enter outside (.here _)) (.here _))
  have makes : linkedTree.Makes [] (Component.ofPath (textBytes "/root/link/wt"))
      [asciiBytes "outside", asciiBytes "wt"] := by
    refine ⟨[asciiBytes "outside"], [asciiBytes "wt"], ⟨_, by decide +kernel, led, ?_⟩, rfl, ?_⟩
    · rintro name ⟨⟩
      decide +kernel
    · exact fun name => FileTree.node_eq_none (by decide +kernel)
  refine ⟨⟨by decide +kernel, by decide +kernel⟩, real, resolves_linkedTree, plans, by rfl,
    ⟨.only makes, WorktreeAdd.makes_only makes⟩, fun inside => ?_⟩
  obtain ⟨below, -⟩ := inside (.only makes) _ (.inl plans) _ (WorktreeAdd.makes_only makes)
  exact absurd below (by decide +kernel)

end Refyard.WorktreeEffects
