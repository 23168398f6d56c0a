import Refyard.Foundation.Double
import Refyard.Foundation.Pattern
import Refyard.Foundation.Scan
import Refyard.Foundation.Utf16
import Refyard.Foundation.Utf8
import Refyard.Graph.Layout

/-! The colour of a ref, once in thirty-two bits that wrap and once in doubles that are cut to
thirty-two bits. -/
namespace Refyard
open Utf16

def stripRefNamespace (name : List Char) : List Char :=
  match stripPrefix "refs/".toList name with
  | none => name
  | some rest =>
      (["heads/", "remotes/", "tags/"].findSome? fun front =>
        stripPrefix front.toList rest).getD name

def refHash (name : List Char) : BitVec 32 :=
  (encode name).foldl (fun hash unit => hash * 31#32 + BitVec.ofNat 32 unit) 0#32

def notAfter (left right : String) : Bool :=
  List.compareLex compare (encode left.toList) (encode right.toList) != .gt

def refColorFor (refNames : List String) (palette : List LaneColor) : Option LaneColor :=
  if refNames.isEmpty || palette.isEmpty then none
  else
    (refNames.insertionSort fun left right => notAfter left right).head?.bind fun key =>
      palette[(refHash (stripRefNamespace key.toList)).toInt.natAbs % palette.length]?

namespace GitGraph

def literal : Char → List Char → Pattern Nat
  | char, [] => .one fun unit => unit == char.toNat
  | char, next :: rest => .both (.one fun unit => unit == char.toNat) (literal next rest)

/-- `/^refs\/(heads|remotes|tags)\//`. -/
def refNamespace : Pattern Nat :=
  .both (literal 'r' "efs/".toList)
    (.both (.either (literal 'h' "eads".toList)
        (.either (literal 'r' "emotes".toList) (literal 't' "ags".toList)))
      (literal '/' []))

def normalized (key : List Nat) : List Nat := (refNamespace.behind key).head?.getD key

def refHash (units : List Nat) : Int :=
  units.foldl (fun (hash : Int) (unit : Nat) => Double.toInt32 (Double.add (Double.mul hash 31) unit)) 0

/-- `left < right` on strings. -/
def isLess : List Nat → List Nat → Bool
  | _, [] => false
  | [], _ :: _ => true
  | left :: lefts, right :: rights =>
      if left = right then isLess lefts rights else decide (left < right)

/-- What `sort` compares by: below zero, zero or above zero. -/
def sortCompare (left right : String) : Int :=
  if isLess (encode left.toList) (encode right.toList) then -1
  else if isLess (encode right.toList) (encode left.toList) then 1
  else 0

def refColorFor (refNames : List String) (palette : List LaneColor) : Option LaneColor :=
  if refNames.length = 0 ∨ palette.length = 0 then none
  else
    let key := (refNames.insertionSort fun left right => sortCompare left right ≤ 0).head?.getD ""
    palette[(refHash (normalized (encode key.toList))).natAbs % palette.length]?

/-! The order of the names. -/

theorem isLess_iff (left right : List Nat) :
    isLess left right = true ↔ List.compareLex compare left right = .lt := by
  fun_induction isLess left right with
  | case1 left => cases left <;> simp [List.compareLex_nil_nil, List.compareLex_cons_nil]
  | case2 right rights => simp [List.compareLex_nil_cons]
  | case3 lefts rights right ih =>
    rw [ih, List.compareLex_cons_cons, Nat.compare_eq_eq.mpr rfl, Ordering.eq_then]
  | case4 left lefts right rights differs =>
    rw [List.compareLex_cons_cons, decide_eq_true_iff]
    obtain below | same | above := Nat.lt_trichotomy left right
    · simp [Nat.compare_eq_lt.mpr below, below]
    · exact absurd same differs
    · simp [Nat.compare_eq_gt.mpr above, Nat.lt_asymm above]

theorem sortCompare_le (left right : String) :
    sortCompare left right ≤ 0 ↔ notAfter left right = true := by
  unfold sortCompare notAfter
  rw [bne_iff_ne, ne_eq, Std.OrientedCmp.gt_iff_lt, ← isLess_iff]
  by_cases less : isLess (encode left.toList) (encode right.toList) = true
  · have forth := (isLess_iff _ _).mp less
    have back : isLess (encode right.toList) (encode left.toList) = false := by
      rw [Bool.eq_false_iff, ne_eq, isLess_iff, ← Std.OrientedCmp.gt_iff_lt, forth]
      exact nofun
    simp [less, back]
  · rw [if_neg less]
    split <;> simp [*]

/-! The name without its namespace. -/

theorem begins_literal (first : Char) (rest : List Char) (units : List Nat) :
    (literal first rest).behind units =
      (stripPrefix ((first :: rest).map Char.toNat) units).toList := by
  induction rest generalizing first units with
  | nil =>
    cases units with
    | nil => rfl
    | cons unit units =>
      by_cases same : first.toNat = unit
      · simp [literal, Pattern.behind, stripPrefix, same]
      · simp [literal, Pattern.behind, stripPrefix, same, Ne.symm same]
  | cons next rest ih =>
    cases units with
    | nil => rfl
    | cons unit units =>
      by_cases same : first.toNat = unit
      · simp [literal, Pattern.behind, stripPrefix, same, ih]
      · simp [literal, Pattern.behind, stripPrefix, same, Ne.symm same]

theorem stripPrefix_encode (front : List Char) (ascii : ∀ char ∈ front, char.toNat < 0x80)
    (chars : List Char) :
    stripPrefix (front.map Char.toNat) (encode chars) = (stripPrefix front chars).map encode := by
  induction front generalizing chars with
  | nil => rfl
  | cons first front ih =>
    rw [List.forall_mem_cons] at ascii
    cases chars with
    | nil => rfl
    | cons char rest =>
      by_cases same : first = char
      · subst same
        rw [encode_cons, units_ascii ascii.1, List.singleton_append, List.map_cons, stripPrefix,
          if_pos rfl, stripPrefix, if_pos rfl, ih ascii.2]
      · rw [stripPrefix, if_neg same, Option.map_none, stripPrefix_eq_none]
        rintro ⟨behind, spelled⟩
        obtain ⟨other, others, cut, number, -⟩ := (encode_eq_cons ascii.1).mp spelled.symm
        obtain ⟨rfl, -⟩ := List.cons.inj cut
        exact same (Char.toNat_inj.mp number.symm)

theorem stripPrefix_append_front (front more : List Char) (chars : List Char) :
    stripPrefix (front ++ more) chars = (stripPrefix front chars).bind (stripPrefix more) := by
  induction front generalizing chars with
  | nil => rfl
  | cons first front ih =>
    cases chars with
    | nil => rfl
    | cons char rest =>
      by_cases same : first = char
      · rw [List.cons_append, stripPrefix, if_pos same, ih, stripPrefix, if_pos same]
      · rw [List.cons_append, stripPrefix, if_neg same, stripPrefix, if_neg same]
        rfl

theorem behind_namespace (first : Char) (rest : List Char)
    (ascii : ∀ char ∈ first :: rest, char.toNat < 0x80) (chars : List Char) :
    (Pattern.both (literal first rest) (literal '/' [])).behind (encode chars) =
      ((stripPrefix (first :: rest ++ ['/']) chars).map encode).toList := by
  rw [Pattern.behind, begins_literal, stripPrefix_encode _ ascii, stripPrefix_append_front]
  cases stripPrefix (first :: rest) chars with
  | none => rfl
  | some behind =>
    have slash := stripPrefix_encode ['/'] (by simp) behind
    simp only [Option.map_some, Option.toList_some, List.flatMap_singleton, begins_literal,
      Option.bind_some]
    rw [slash]

variable (chars : List Char)

theorem behind_namespaces : (Pattern.both (.either (literal 'h' "eads".toList)
        (.either (literal 'r' "emotes".toList) (literal 't' "ags".toList)))
      (literal '/' [])).behind (encode chars) =
    ((stripPrefix "heads/".toList chars).map encode).toList ++
      (((stripPrefix "remotes/".toList chars).map encode).toList ++
        ((stripPrefix "tags/".toList chars).map encode).toList) := by
  have heads := behind_namespace 'h' "eads".toList (by simp) chars
  have remotes := behind_namespace 'r' "emotes".toList (by simp) chars
  have tags := behind_namespace 't' "ags".toList (by simp) chars
  rw [Pattern.behind] at heads remotes tags
  rw [Pattern.behind, Pattern.behind, Pattern.behind, List.flatMap_append, List.flatMap_append,
    heads, remotes, tags]
  rfl

theorem normalized_encode : normalized (encode chars) = encode (stripRefNamespace chars) := by
  have refs := stripPrefix_encode "refs/".toList (by simp) chars
  have begun := begins_literal 'r' "efs/".toList (encode chars)
  unfold normalized stripRefNamespace refNamespace
  rw [Pattern.behind, begun]
  change (List.flatMap _ (stripPrefix ("refs/".toList.map Char.toNat) (encode chars)).toList).head?.getD
    (encode chars) = _
  rw [refs]
  cases stripPrefix "refs/".toList chars with
  | none => rfl
  | some rest =>
    rw [Option.map_some, Option.toList_some, List.flatMap_singleton, behind_namespaces]
    simp only [List.findSome?_cons, List.findSome?_nil]
    cases stripPrefix "heads/".toList rest with
    | some stripped => rfl
    | none =>
      cases stripPrefix "remotes/".toList rest with
      | some stripped => rfl
      | none =>
        cases stripPrefix "tags/".toList rest with
        | some stripped => rfl
        | none => rfl

/-! The hash. -/

theorem units_lt {char : Char} {unit : Nat} (member : unit ∈ units char) : unit < 2 ^ 16 := by
  have valid := Utf8.scalar char
  unfold units Json.utf16 at member
  split at member
  · rw [List.mem_singleton] at member
    omega
  · rw [List.mem_cons, List.mem_singleton] at member
    omega

/-- One step in doubles is one step that wraps: nothing on the way has more than fifty-three
bits. -/
theorem step_toInt (hash : BitVec 32) {unit : Nat} (small : unit < 2 ^ 16) :
    Double.toInt32 (Double.add (Double.mul hash.toInt 31) unit) =
      (hash * 31#32 + BitVec.ofNat 32 unit).toInt := by
  have low := BitVec.le_toInt hash
  have high := BitVec.toInt_lt (x := hash)
  have product : Double.mul hash.toInt 31 = hash.toInt * 31 := by
    refine Double.round_exact ?_
    omega
  have sum : Double.add (hash.toInt * 31) unit = hash.toInt * 31 + unit := by
    refine Double.round_exact ?_
    omega
  have factor : (31#32).toInt = 31 := by decide
  rw [product, sum, BitVec.toInt_add, BitVec.toInt_mul, factor, BitVec.toInt_ofNat',
    Int.bmod_add_bmod, Int.add_bmod_bmod]
  rfl

theorem foldl_toInt (hash : BitVec 32) {text : List Nat} (small : ∀ unit ∈ text, unit < 2 ^ 16) :
    text.foldl (fun (hash : Int) (unit : Nat) =>
        Double.toInt32 (Double.add (Double.mul hash 31) unit)) hash.toInt =
      (text.foldl (fun hash unit => hash * 31#32 + BitVec.ofNat 32 unit) hash).toInt := by
  induction text generalizing hash with
  | nil => rfl
  | cons unit text ih =>
    rw [List.forall_mem_cons] at small
    rw [List.foldl_cons, List.foldl_cons, step_toInt hash small.1, ih _ small.2]

theorem refHash_encode : refHash (encode chars) = (Refyard.refHash chars).toInt := by
  refine foldl_toInt 0#32 fun unit member => ?_
  obtain ⟨char, -, inside⟩ := List.mem_flatMap.mp member
  exact units_lt inside

theorem refColorFor_eq (refNames : List String) (palette : List LaneColor) :
    refColorFor refNames palette = Refyard.refColorFor refNames palette := by
  unfold refColorFor Refyard.refColorFor
  cases refNames with
  | nil => rfl
  | cons name names =>
    cases palette with
    | nil => rfl
    | cons color colors =>
      have sorted : (name :: names).insertionSort (fun left right => sortCompare left right ≤ 0) =
          (name :: names).insertionSort fun left right => notAfter left right = true := by
        simp only [sortCompare_le]
      rw [if_neg (by simp), if_neg (by simp)]
      dsimp only
      rw [sorted, normalized_encode, refHash_encode]
      cases first : (name :: names).insertionSort fun left right => notAfter left right = true with
      | nil =>
        have length := congrArg List.length first
        rw [List.length_insertionSort] at length
        cases length
      | cons key others => rfl

end GitGraph
end Refyard
