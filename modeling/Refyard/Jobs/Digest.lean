import Refyard.Foundation.JsonRoundTrip
import Refyard.Writes.IndexKey
import Mathlib.Algebra.Group.Int.Defs

/-! The digest of a request: what is hashed is the canonical JSON of it, in which the keys of
every object are sorted, so that two identical requests hash identically however a client
ordered their fields. -/
namespace Refyard.Digest

/-- A whole number of a `serde_json::Value`, a `u64` or a negative `i64`. -/
structure WholeNumber where
  value : Int
  fits : -(2 ^ 63) ≤ value ∧ value < 2 ^ 64

structure FiniteDouble where
  bits : UInt64
  finite : bits.toNat / 2 ^ 52 % 2 ^ 11 ≠ 2 ^ 11 - 1

inductive Number where
  | whole (number : WholeNumber)
  | float (number : FiniteDouble)

/-- `serde_json::Value`. -/
inductive Value where
  | null
  | bool (value : Bool)
  | number (value : Number)
  | string (value : String)
  | array (items : List Value)
  | object (members : List (String × Value))

inductive WellFormed : Value → Prop where
  | null : WellFormed .null
  | bool (value : Bool) : WellFormed (.bool value)
  | number (value : Number) : WellFormed (.number value)
  | string (value : String) : WellFormed (.string value)
  | array {items : List Value} (each : ∀ item ∈ items, WellFormed item) : WellFormed (.array items)
  | object {members : List (String × Value)} (distinct : (members.map Prod.fst).Nodup)
      (each : ∀ member ∈ members, WellFormed member.2) : WellFormed (.object members)

inductive SameRequest : Value → Value → Prop where
  | null : SameRequest .null .null
  | bool (value : Bool) : SameRequest (.bool value) (.bool value)
  | number (value : Number) : SameRequest (.number value) (.number value)
  | string (value : String) : SameRequest (.string value) (.string value)
  | array {items others : List Value} (length : items.length = others.length)
      (each : ∀ (place : Nat) (item other : Value), items[place]? = some item →
        others[place]? = some other → SameRequest item other) :
      SameRequest (.array items) (.array others)
  | object {members others : List (String × Value)}
      (keys : (members.map Prod.fst).Perm (others.map Prod.fst))
      (each : ∀ (key : String) (value other : Value), (key, value) ∈ members →
        (key, other) ∈ others → SameRequest value other) :
      SameRequest (.object members) (.object others)

def byKey {α : Type} (left right : String × α) : Bool := left.1 ≤ right.1

def joined (texts : List (List Char)) : List Char := [','].intercalate texts

/-- What `serde_json` writes for a number and for a string. -/
structure Printer where
  whole : WholeNumber → List Char
  formatFinite : FiniteDouble → List Char
  quote : String → List Char

section
variable (printer : Printer)

def memberText (member : String × List Char) : List Char :=
  printer.quote member.1 ++ ':' :: member.2

def numberText : Number → List Char
  | .whole number => printer.whole number
  | .float number => printer.formatFinite number

mutual

def canonicalText : Value → List Char
  | .null => "null".toList
  | .bool true => "true".toList
  | .bool false => "false".toList
  | .number value => numberText printer value
  | .string value => printer.quote value
  | .array items => '[' :: joined (canonicalItems items) ++ [']']
  | .object members =>
      '\x7b' :: joined (((canonicalMembers members).mergeSort byKey).map (memberText printer)) ++
        ['\x7d']

def canonicalItems : List Value → List (List Char)
  | [] => []
  | item :: rest => canonicalText item :: canonicalItems rest

def canonicalMembers : List (String × Value) → List (String × List Char)
  | [] => []
  | (key, value) :: rest => (key, canonicalText value) :: canonicalMembers rest

end

def canonicalJson (value : Value) : String := String.ofList (canonicalText printer value)

def canonicalPayloadDigest (sha256 : Bytes → Bytes) (value : Value) : String :=
  hexText (sha256 (textBytes (canonicalJson printer value)))

end

/-- A numeral tells its number, and only a double has a point or an exponent in it; what is
quoted tells where it ends. -/
structure Prints (printer : Printer) : Prop where
  wholes : Function.Injective printer.whole
  digits : ∀ number, printer.whole number ≠ [] ∧
    ∀ char ∈ printer.whole number, char.isDigit ∨ char = '-'
  doubles : Function.Injective printer.formatFinite
  numerals : ∀ number, ∀ char ∈ printer.formatFinite number,
    char.isDigit ∨ char = '+' ∨ char = '-' ∨ char = '.' ∨ char = 'e'
  marked : ∀ number, '.' ∈ printer.formatFinite number ∨ 'e' ∈ printer.formatFinite number
  opens : ∀ text, ∃ rest, printer.quote text = '"' :: rest
  quoted : ∀ (first second : String) (behind rest : List Char),
    printer.quote first ++ behind = printer.quote second ++ rest → first = second ∧ behind = rest

theorem canonicalItems_eq (printer : Printer) (items : List Value) :
    canonicalItems printer items = items.map (canonicalText printer) := by
  induction items with
  | nil => rfl
  | cons item rest ih => rw [canonicalItems, ih, List.map_cons]

theorem canonicalMembers_eq (printer : Printer)
    (members : List (String × Value)) : canonicalMembers printer members =
      members.map fun member => (member.1, canonicalText printer member.2) := by
  induction members with
  | nil => rfl
  | cons member rest ih => rw [canonicalMembers, ih, List.map_cons]

theorem Value.inductOn {motive : Value → Prop} (null : motive .null)
    (bool : ∀ value, motive (.bool value)) (number : ∀ value, motive (.number value))
    (string : ∀ value, motive (.string value))
    (array : ∀ items, (∀ item ∈ items, motive item) → motive (.array items))
    (object : ∀ members, (∀ member ∈ members, motive member.2) → motive (.object members)) :
    ∀ value, motive value
  | .null => null
  | .bool value => bool value
  | .number value => number value
  | .string value => string value
  | .array items => array items fun item _ =>
      Value.inductOn null bool number string array object item
  | .object members => object members fun entry _ =>
      Value.inductOn null bool number string array object entry.2
termination_by value => value
decreasing_by
  · next inside =>
    have smaller := List.sizeOf_lt_of_mem inside
    simp only [Value.array.sizeOf_spec]
    omega
  · next inside =>
    have smaller := List.sizeOf_lt_of_mem inside
    obtain ⟨key, value⟩ := entry
    simp only [Value.object.sizeOf_spec, Prod.mk.sizeOf_spec] at smaller ⊢
    omega

/-! What begins a text and what may follow it. -/

inductive Shape where
  | null
  | bool
  | number
  | string
  | array
  | object

def shapeOf (char : Char) : Shape :=
  if char = 'n' then .null
  else if char = 't' ∨ char = 'f' then .bool
  else if char = '"' then .string
  else if char = '[' then .array
  else if char = '\x7b' then .object
  else .number

def Value.shape : Value → Shape
  | .null => .null
  | .bool _ => .bool
  | .number _ => .number
  | .string _ => .string
  | .array _ => .array
  | .object _ => .object

/-- A value is followed by nothing, or by what goes on with the array or object it is in. -/
def Ends (rest : List Char) : Prop := ∀ char ∈ rest.head?, char = ',' ∨ char = ']' ∨ char = '\x7d'

theorem ends_nil : Ends [] := nofun

variable {char : Char}

theorem ends_cons (ends : char = ',' ∨ char = ']' ∨ char = '\x7d')
    (rest : List Char) : Ends (char :: rest) := by
  intro first begins
  cases begins
  exact ends

def isNumeral (char : Char) : Bool :=
  char.isDigit || char = '+' || char = '-' || char = '.' || char = 'e'

theorem not_isNumeral (ends : char = ',' ∨ char = ']' ∨ char = '\x7d') :
    isNumeral char = false := by
  obtain rfl | rfl | rfl := ends <;> rfl

theorem takeWhile_numerals {text rest : List Char} (numerals : ∀ char ∈ text, isNumeral char = true)
    (ends : Ends rest) : (text ++ rest).takeWhile isNumeral = text := by
  rw [List.takeWhile_append_of_pos numerals]
  cases rest with
  | nil => rw [List.takeWhile_nil, List.append_nil]
  | cons char rest =>
    rw [List.takeWhile_cons_of_neg, List.append_nil]
    rw [not_isNumeral (ends char rfl)]
    exact Bool.false_ne_true

theorem shapeOf_numeral (numeral : isNumeral char = true) :
    shapeOf char = .number ∧ char ≠ ']' := by
  have others : char ≠ 'n' ∧ char ≠ 't' ∧ char ≠ 'f' ∧ char ≠ '"' ∧ char ≠ '[' ∧ char ≠ '\x7b' ∧
      char ≠ ']' := by
    refine ⟨?_, ?_, ?_, ?_, ?_, ?_, ?_⟩
    all_goals
      rintro rfl
      cases numeral
  obtain ⟨null, true', false', quote, array, object, closing⟩ := others
  simp [shapeOf, null, true', false', quote, array, object, closing]

section
variable {printer : Printer} (prints : Prints printer)
include prints

theorem isNumeral_numberText (number : Number) :
    ∀ char ∈ numberText printer number, isNumeral char = true := by
  intro char member
  cases number with
  | whole number =>
    obtain digit | sign := (prints.digits number).2 char member
    · simp [isNumeral, digit]
    · simp [isNumeral, sign]
  | float number => simpa [isNumeral, or_assoc] using prints.numerals number char member

theorem numberText_injective : Function.Injective (numberText printer) := by
  have apart (whole : WholeNumber) (float : FiniteDouble) :
      printer.whole whole ≠ printer.formatFinite float := by
    intro same
    have unmarked : ∀ char ∈ printer.formatFinite float, char.isDigit ∨ char = '-' :=
      same ▸ (prints.digits whole).2
    obtain point | exponent := prints.marked float
    · exact absurd (unmarked _ point) (by decide)
    · exact absurd (unmarked _ exponent) (by decide)
  intro first second same
  cases first with
  | whole first =>
    cases second with
    | whole second => exact congrArg Number.whole (prints.wholes same)
    | float second => exact absurd same (apart first second)
  | float first =>
    cases second with
    | whole second => exact absurd same.symm (apart second first)
    | float second => exact congrArg Number.float (prints.doubles same)

theorem head_numberText (number : Number) :
    ∃ first rest, numberText printer number = first :: rest ∧ isNumeral first = true := by
  cases text : numberText printer number with
  | nil =>
    cases number with
    | whole number => exact absurd text (prints.digits number).1
    | float number =>
      have marked := prints.marked number
      rw [numberText] at text
      rw [text] at marked
      simp at marked
  | cons first rest =>
    exact ⟨first, rest, rfl, isNumeral_numberText prints number first (text ▸ List.mem_cons_self)⟩

theorem head_canonicalText (value : Value) :
    ∃ first rest, canonicalText printer value = first :: rest ∧
      shapeOf first = value.shape ∧ first ≠ ']' := by
  cases value with
  | null => exact ⟨'n', "ull".toList, rfl, rfl, by decide⟩
  | bool value => cases value <;> exact ⟨_, _, rfl, rfl, by decide⟩
  | number number =>
    obtain ⟨first, rest, begins, numeral⟩ := head_numberText prints number
    exact ⟨first, rest, begins, shapeOf_numeral numeral⟩
  | string value =>
    obtain ⟨rest, opens⟩ := prints.opens value
    exact ⟨_, rest, opens, rfl, by decide⟩
  | array items => exact ⟨_, _, rfl, rfl, by decide⟩
  | object members => exact ⟨_, _, rfl, rfl, by decide⟩

theorem shape_eq {first second : Value} {behind rest : List Char}
    (same : canonicalText printer first ++ behind =
      canonicalText printer second ++ rest) : first.shape = second.shape := by
  obtain ⟨char, more, begins, shape, -⟩ := head_canonicalText prints first
  obtain ⟨other, others, alsoBegins, alsoShape, -⟩ := head_canonicalText prints second
  rw [begins, alsoBegins] at same
  rw [← shape, ← alsoShape, (List.cons.inj same).1]

end

/-! Texts that tell where they end. -/

/-- Before what may follow a value, two texts are one where the whole is one. -/
def Tells (first second : List Char) : Prop :=
  ∀ behind rest, Ends behind → Ends rest → first ++ behind = second ++ rest →
    first = second ∧ behind = rest

theorem joined_cons (text : List Char) (texts : List (List Char)) :
    joined (text :: texts) = text ++ texts.flatMap (',' :: ·) := by
  unfold joined
  induction texts generalizing text with
  | nil => simp [List.intercalate]
  | cons next rest ih =>
    rw [List.flatMap_cons, List.cons_append, ← ih next]
    simp [List.intercalate]

section
variable {left right : List (List Char)} (tells : ∀ text ∈ left, ∀ other ∈ right, Tells text other)
  {close : Char} (ends : close = ']' ∨ close = '\x7d') {behind rest : List Char}
include tells ends

theorem tail_inj (same : left.flatMap (',' :: ·) ++ close :: behind =
    right.flatMap (',' :: ·) ++ close :: rest) : left = right ∧ behind = rest := by
  have notComma : ',' ≠ close := by
    rintro rfl
    obtain bracket | brace := ends
    · exact absurd bracket (by decide)
    · exact absurd brace (by decide)
  induction left generalizing right with
  | nil =>
    cases right with
    | nil => exact ⟨rfl, (List.cons.inj same).2⟩
    | cons other others => exact absurd (List.cons.inj same).1.symm notComma
  | cons text texts ih =>
    cases right with
    | nil => exact absurd (List.cons.inj same).1 notComma
    | cons other others =>
      rw [List.flatMap_cons, List.flatMap_cons, List.cons_append, List.cons_append,
        List.cons_append, List.cons_append, List.append_assoc, List.append_assoc] at same
      have follows (texts : List (List Char)) (behind : List Char) :
          Ends (texts.flatMap (',' :: ·) ++ close :: behind) := by
        cases texts with
        | nil => exact ends_cons (.inr ends) behind
        | cons text texts => exact ends_cons (.inl rfl) _
      obtain ⟨rfl, later⟩ := tells text List.mem_cons_self other List.mem_cons_self _ _
        (follows texts behind) (follows others rest) (List.cons.inj same).2
      obtain ⟨rfl, tails⟩ := ih (fun text member other also =>
        tells text (List.mem_cons_of_mem _ member) other (List.mem_cons_of_mem _ also)) later
      exact ⟨rfl, tails⟩

theorem joined_inj (begin_left : ∀ text ∈ left, ∃ first more, text = first :: more ∧ first ≠ close)
    (begin_right : ∀ text ∈ right, ∃ first more, text = first :: more ∧ first ≠ close)
    (same : joined left ++ close :: behind = joined right ++ close :: rest) :
    left = right ∧ behind = rest := by
  cases left with
  | nil =>
    cases right with
    | nil => exact ⟨rfl, (List.cons.inj same).2⟩
    | cons other others =>
      obtain ⟨first, more, rfl, opens⟩ := begin_right other List.mem_cons_self
      rw [joined_cons] at same
      exact absurd (List.cons.inj same).1.symm opens
  | cons text texts =>
    cases right with
    | nil =>
      obtain ⟨first, more, rfl, opens⟩ := begin_left text List.mem_cons_self
      rw [joined_cons] at same
      exact absurd (List.cons.inj same).1 opens
    | cons other others =>
      apply tail_inj tells ends
      rw [joined_cons, joined_cons, List.append_assoc, List.append_assoc] at same
      rw [List.flatMap_cons, List.flatMap_cons, List.cons_append, List.cons_append,
        List.cons_append, List.cons_append, List.append_assoc, List.append_assoc, same]

end

section
variable {printer : Printer} (prints : Prints printer)
include prints

theorem memberText_injective : Function.Injective (memberText printer) := by
  rintro ⟨key, text⟩ ⟨other, otherText⟩ same
  obtain ⟨rfl, behind⟩ := prints.quoted _ _ _ _ same
  obtain rfl := (List.cons.inj behind).2
  rfl

theorem tells_memberText {member other : String × List Char} (tells : Tells member.2 other.2) :
    Tells (memberText printer member) (memberText printer other) := by
  intro behind rest ends alsoEnds same
  unfold memberText at same ⊢
  rw [List.append_assoc, List.append_assoc] at same
  obtain ⟨key, later⟩ := prints.quoted _ _ _ _ same
  obtain ⟨text, tails⟩ := tells behind rest ends alsoEnds (List.cons.inj later).2
  exact ⟨by rw [key, text], tails⟩

end

/-! The members of an object, by their keys. -/

theorem mem_canonicalMembers {printer : Printer}
    {members : List (String × Value)} {key : String} {text : List Char} :
    (key, text) ∈ canonicalMembers printer members ↔
      ∃ value, (key, value) ∈ members ∧ canonicalText printer value = text := by
  simp [canonicalMembers_eq]

theorem keys_canonicalMembers (printer : Printer)
    (members : List (String × Value)) :
    (canonicalMembers printer members).map Prod.fst = members.map Prod.fst := by
  rw [canonicalMembers_eq, List.map_map]
  rfl

theorem mergeSort_byKey_inj {α : Type} {members others : List (String × α)}
    (distinct : (members.map Prod.fst).Nodup) (perm : members.Perm others) :
    members.mergeSort byKey = others.mergeSort byKey := by
  have sorts (list : List (String × α)) :
      (list.mergeSort byKey).Pairwise fun left right => byKey left right = true := by
    apply List.pairwise_mergeSort
    · intro left mid right
      simpa [byKey] using String.le_trans
    · intro left right
      simpa [byKey] using String.le_total left.1 right.1
  refine List.Perm.eq_of_pairwise ?_ (sorts members) (sorts others)
    ((List.mergeSort_perm _ _).trans (perm.trans (List.mergeSort_perm _ _).symm))
  intro left right among also le ge
  have own : left ∈ members := (List.mergeSort_perm _ _).mem_iff.mp among
  have other : right ∈ members := perm.mem_iff.mpr ((List.mergeSort_perm _ _).mem_iff.mp also)
  exact List.inj_on_of_nodup_map distinct own other
    (String.le_antisymm (by simpa [byKey] using le) (by simpa [byKey] using ge))

/-! The canonical text tells the value, up to the order of keys. -/

section
variable {printer : Printer}

theorem value_unique {members : List (String × Value)} (distinct : (members.map Prod.fst).Nodup)
    {key : String} {value other : Value} (member : (key, value) ∈ members)
    (also : (key, other) ∈ members) : value = other :=
  (Prod.mk.inj (List.inj_on_of_nodup_map distinct member also rfl)).2

variable {first second : Value}

theorem text_of_same (same : SameRequest first second) (formed : WellFormed first)
    (alsoFormed : WellFormed second) :
    canonicalText printer first = canonicalText printer second := by
  induction same with
  | null | bool value | number value | string value => rfl
  | @array items others length each ih =>
    cases formed with | array formed =>
    cases alsoFormed with | array alsoFormed =>
    have texts : canonicalItems printer items = canonicalItems printer others := by
      rw [canonicalItems_eq, canonicalItems_eq]
      apply List.ext_getElem
      · rw [List.length_map, List.length_map, length]
      · intro place inside alsoInside
        rw [List.length_map] at inside alsoInside
        rw [List.getElem_map, List.getElem_map]
        exact ih place _ _ (List.getElem?_eq_getElem inside) (List.getElem?_eq_getElem alsoInside)
          (formed _ (List.getElem_mem inside)) (alsoFormed _ (List.getElem_mem alsoInside))
    rw [canonicalText, canonicalText, texts]
  | @object members others keys each ih =>
    cases formed with | object distinct formed =>
    cases alsoFormed with | object alsoDistinct alsoFormed =>
    have key_nodup (list : List (String × Value)) (nodup : (list.map Prod.fst).Nodup) :
        ((canonicalMembers printer list).map Prod.fst).Nodup := by
      rw [keys_canonicalMembers]
      exact nodup
    have paired (key : String) (value other : Value) (member : (key, value) ∈ members)
        (also : (key, other) ∈ others) :
        canonicalText printer value = canonicalText printer other :=
      ih key value other member also (formed _ member) (alsoFormed _ also)
    have perm : (canonicalMembers printer members).Perm
        (canonicalMembers printer others) := by
      refine (List.perm_ext_iff_of_nodup (key_nodup members distinct).of_map
        (key_nodup others alsoDistinct).of_map).mpr ?_
      rintro ⟨key, text⟩
      rw [mem_canonicalMembers, mem_canonicalMembers]
      constructor
      · rintro ⟨value, member, rfl⟩
        have named := keys.mem_iff.mp (List.mem_map_of_mem member)
        obtain ⟨⟨_, other⟩, also, rfl⟩ := List.mem_map.mp named
        exact ⟨other, also, (paired _ value other member also).symm⟩
      · rintro ⟨other, also, rfl⟩
        have named := keys.mem_iff.mpr (List.mem_map_of_mem also)
        obtain ⟨⟨_, value⟩, member, rfl⟩ := List.mem_map.mp named
        exact ⟨value, member, paired _ value other member also⟩
    rw [canonicalText, canonicalText, mergeSort_byKey_inj (key_nodup members distinct) perm]

variable (printer) in
/-- The texts of two values tell, wherever they stand, whether the values are the same. -/
def Told (first second : Value) : Prop :=
  ∀ behind rest, Ends behind → Ends rest →
    canonicalText printer first ++ behind = canonicalText printer second ++ rest →
      SameRequest first second ∧ behind = rest

theorem Told.tells (told : Told printer first second) :
    Tells (canonicalText printer first) (canonicalText printer second) := by
  intro behind rest ends alsoEnds same
  obtain ⟨-, rfl⟩ := told behind rest ends alsoEnds same
  exact ⟨List.append_cancel_right same, rfl⟩

theorem Told.same (told : Told printer first second)
    (texts : canonicalText printer first = canonicalText printer second) :
    SameRequest first second :=
  (told [] [] ends_nil ends_nil (by rw [texts])).1

theorem text_array (items : List Value) (behind : List Char) :
    canonicalText printer (.array items) ++ behind =
      '[' :: (joined (canonicalItems printer items) ++ ']' :: behind) := by
  simp [canonicalText]

theorem text_object (members : List (String × Value)) (behind : List Char) :
    canonicalText printer (.object members) ++ behind =
      '\x7b' :: (joined (((canonicalMembers printer members).mergeSort byKey).map
        (memberText printer)) ++ '\x7d' :: behind) := by
  simp [canonicalText]

variable (prints : Prints printer)
include prints

theorem told_array {items others : List Value}
    (each : ∀ item ∈ items, ∀ other ∈ others, Told printer item other) :
    Told printer (.array items) (.array others) := by
  intro behind rest _ _ same
  have tells : ∀ text ∈ canonicalItems printer items,
      ∀ other ∈ canonicalItems printer others, Tells text other := by
    rw [canonicalItems_eq, canonicalItems_eq]
    simp only [List.forall_mem_map]
    exact fun item member other also => (each item member other also).tells
  have begins (list : List Value) : ∀ text ∈ canonicalItems printer list,
      ∃ first more, text = first :: more ∧ first ≠ ']' := by
    rw [canonicalItems_eq]
    simp only [List.forall_mem_map]
    intro item _
    obtain ⟨first, more, opens, -, closing⟩ := head_canonicalText prints item
    exact ⟨first, more, opens, closing⟩
  rw [text_array, text_array] at same
  obtain ⟨texts, tails⟩ := joined_inj tells (.inl rfl) (begins items) (begins others)
    (List.cons.inj same).2
  rw [canonicalItems_eq, canonicalItems_eq] at texts
  refine ⟨.array (by simpa using congrArg List.length texts) ?_, tails⟩
  intro place item other found alsoFound
  have text := congrArg (fun texts => texts[place]?) texts
  simp only [List.getElem?_map, found, alsoFound, Option.map_some, Option.some_inj] at text
  exact (each item (List.mem_of_getElem? found) other (List.mem_of_getElem? alsoFound)).same text

theorem told_object {members others : List (String × Value)}
    (distinct : (others.map Prod.fst).Nodup)
    (each : ∀ member ∈ members, ∀ other ∈ others, Told printer member.2 other.2) :
    Told printer (.object members) (.object others) := by
  intro behind rest _ _ same
  have sorted (list : List (String × Value)) {member : String × List Char} :
      member ∈ (canonicalMembers printer list).mergeSort byKey ↔
        ∃ value, (member.1, value) ∈ list ∧ canonicalText printer value = member.2 :=
    (List.mergeSort_perm _ _).mem_iff.trans mem_canonicalMembers
  have tells : ∀ text ∈ ((canonicalMembers printer members).mergeSort byKey).map (memberText printer),
      ∀ other ∈ ((canonicalMembers printer others).mergeSort byKey).map (memberText printer),
        Tells text other := by
    simp only [List.forall_mem_map]
    rintro ⟨key, text⟩ among ⟨otherKey, other⟩ alsoAmong
    obtain ⟨value, member, rfl⟩ := (sorted members).mp among
    obtain ⟨otherValue, also, rfl⟩ := (sorted others).mp alsoAmong
    exact tells_memberText prints (each _ member _ also).tells
  have begins (list : List (String × List Char)) : ∀ text ∈ list.map (memberText printer),
      ∃ first more, text = first :: more ∧ first ≠ '\x7d' := by
    simp only [List.forall_mem_map]
    intro member _
    obtain ⟨rest, opens⟩ := prints.opens member.1
    exact ⟨'"', rest ++ ':' :: member.2, by rw [memberText, opens]; rfl, by decide⟩
  rw [text_object, text_object] at same
  obtain ⟨texts, tails⟩ := joined_inj tells (.inr rfl) (begins _) (begins _) (List.cons.inj same).2
  have lists := List.map_injective_iff.mpr (memberText_injective prints) texts
  have perm : (canonicalMembers printer members).Perm
      (canonicalMembers printer others) := by
    apply (List.mergeSort_perm _ byKey).symm.trans
    rw [lists]
    exact List.mergeSort_perm _ byKey
  refine ⟨.object ?_ ?_, tails⟩
  · rw [← keys_canonicalMembers printer, ← keys_canonicalMembers printer others]
    exact perm.map Prod.fst
  · intro key value other member also
    obtain ⟨found, among, text⟩ := mem_canonicalMembers.mp
      (perm.mem_iff.mp (mem_canonicalMembers.mpr ⟨value, member, rfl⟩))
    obtain rfl := value_unique distinct among also
    exact (each _ member _ also).same text.symm

theorem told_of_wellFormed (first : Value) : ∀ {second : Value}, WellFormed first →
    WellFormed second → Told printer first second := by
  induction first using Value.inductOn with
  | null =>
    intro second _ _ behind rest _ _ same
    cases second with
    | null => exact ⟨.null, List.append_cancel_left same⟩
    | _ => cases shape_eq prints same
  | bool value =>
    intro second _ _ behind rest _ _ same
    cases second with
    | bool other =>
      cases value <;> cases other
      · exact ⟨.bool false, List.append_cancel_left same⟩
      · cases (List.cons.inj same).1
      · cases (List.cons.inj same).1
      · exact ⟨.bool true, List.append_cancel_left same⟩
    | _ => cases shape_eq prints same
  | number value =>
    intro second _ _ behind rest ends alsoEnds same
    cases second with
    | number other =>
      have text : numberText printer value = numberText printer other := by
        rw [← takeWhile_numerals (isNumeral_numberText prints value) ends,
          ← takeWhile_numerals (isNumeral_numberText prints other) alsoEnds]
        exact congrArg (List.takeWhile isNumeral) same
      obtain rfl := numberText_injective prints text
      exact ⟨.number value, List.append_cancel_left same⟩
    | _ => cases shape_eq prints same
  | string value =>
    intro second _ _ behind rest _ _ same
    cases second with
    | string other =>
      obtain ⟨rfl, tails⟩ := prints.quoted _ _ _ _ same
      exact ⟨.string value, tails⟩
    | _ => cases shape_eq prints same
  | array items ih =>
    intro second formed alsoFormed
    cases second with
    | array others =>
      cases formed with | array formed =>
      cases alsoFormed with | array alsoFormed =>
      exact told_array prints fun item member other also =>
        ih item member (formed item member) (alsoFormed other also)
    | _ => exact fun behind rest _ _ same => by cases shape_eq prints same
  | object members ih =>
    intro second formed alsoFormed
    cases second with
    | object others =>
      cases formed with | object distinct formed =>
      cases alsoFormed with | object alsoDistinct alsoFormed =>
      exact told_object prints alsoDistinct fun member among other also =>
        ih member among (formed member among) (alsoFormed other also)
    | _ => exact fun behind rest _ _ same => by cases shape_eq prints same

theorem canonicalText_eq_iff (formed : WellFormed first) (alsoFormed : WellFormed second) :
    canonicalText printer first = canonicalText printer second ↔
      SameRequest first second := by
  constructor
  · exact (told_of_wellFormed prints first formed alsoFormed).same
  · exact fun same => text_of_same same formed alsoFormed

end

/-- The canonical text of two values is one exactly when they are equal up to the order of their
keys; and so is their digest, where the hash does not collide on the two texts. -/
theorem digest_identifies_request {printer : Printer}
    (prints : Prints printer) {first second : Value} (formed : WellFormed first)
    (alsoFormed : WellFormed second) :
    (canonicalJson printer first = canonicalJson printer second ↔
      SameRequest first second) ∧ ∀ sha256 : Bytes → Bytes,
      (sha256 (textBytes (canonicalJson printer first)) =
          sha256 (textBytes (canonicalJson printer second)) →
        textBytes (canonicalJson printer first) =
          textBytes (canonicalJson printer second)) →
      (canonicalPayloadDigest printer sha256 first =
        canonicalPayloadDigest printer sha256 second ↔ SameRequest first second) := by
  have texts : canonicalJson printer first = canonicalJson printer second ↔
      SameRequest first second := by
    rw [canonicalJson, canonicalJson, String.ofList_inj]
    exact canonicalText_eq_iff prints formed alsoFormed
  refine ⟨texts, fun sha256 free => ?_⟩
  rw [← texts, canonicalPayloadDigest, canonicalPayloadDigest, IndexKey.hexText_inj]
  constructor
  · intro same
    exact String.toList_injective (Utf8.encode_injective (free same))
  · intro same
    rw [same]

def half : FiniteDouble := ⟨0x3fe0000000000000, by decide⟩

def printedDouble (number : FiniteDouble) : List Char :=
  if number.bits = half.bits then "0.5".toList
  else (decimalText number.bits.toNat).toList ++ ".0".toList

def printedHere : Printer where
  whole number := Json.intText number.value
  formatFinite := printedDouble
  quote := Json.quote

theorem prints_printedHere : Prints printedHere where
  wholes := by
    rintro ⟨value, fits⟩ ⟨other, otherFits⟩ same
    obtain rfl := Json.intText_injective same
    rfl
  digits number := by
    obtain ⟨first, rest, begins, -⟩ := Json.Reading.head_intText number.value
    refine ⟨fun none => List.cons_ne_nil _ _ (begins.symm.trans none), fun char member => ?_⟩
    dsimp only [printedHere, Json.intText] at member
    split at member
    · obtain rfl | digit := List.mem_cons.mp member
      · exact .inr rfl
      · exact .inl (isDigit_decimalText _ char digit)
    · exact .inl (isDigit_decimalText _ char member)
  doubles := by
    rintro ⟨bits, finite⟩ ⟨other, otherFinite⟩ same
    have last (number : Nat) :
        "0.5".toList ≠ (decimalText number).toList ++ ".0".toList := by
      intro same
      have ends := congrArg List.getLast? same
      rw [List.getLast?_append] at ends
      cases ends
    dsimp only [printedHere, printedDouble] at same
    split_ifs at same with first second second
    · obtain rfl : bits = other := first.trans second.symm
      rfl
    · exact absurd same (last _)
    · exact absurd same.symm (last _)
    · have numbers := congrArg decimalValue (List.append_cancel_right same)
      rw [decimalValue_decimalText, decimalValue_decimalText] at numbers
      obtain rfl := UInt64.toNat_inj.mp numbers
      rfl
  numerals number char member := by
    dsimp only [printedHere, printedDouble] at member
    split at member
    · rw [show "0.5".toList = ['0', '.', '5'] from rfl] at member
      simp only [List.mem_cons, List.not_mem_nil, or_false] at member
      obtain rfl | rfl | rfl := member <;> decide
    · obtain digit | point := List.mem_append.mp member
      · exact .inl (isDigit_decimalText _ char digit)
      · rw [show ".0".toList = ['.', '0'] from rfl] at point
        simp only [List.mem_cons, List.not_mem_nil, or_false] at point
        obtain rfl | rfl := point <;> decide
  marked number := by
    dsimp only [printedHere, printedDouble]
    split
    · exact .inl (by decide)
    · exact .inl (List.mem_append_right _ (by decide))
  opens text := ⟨_, rfl⟩
  quoted _ _ _ _ := Json.quote_append_inj

def request : Value :=
  .object [("b", .number (.float half)), ("a", .array [.number (.whole ⟨1, by decide⟩), .null])]

def reordered : Value :=
  .object [("a", .array [.number (.whole ⟨1, by decide⟩), .null]), ("b", .number (.float half))]

theorem wellFormed_fields (value : Value) (formed : WellFormed value) (other : Value)
    (alsoFormed : WellFormed other) {key otherKey : String} (distinct : key ≠ otherKey) :
    WellFormed (.object [(key, value), (otherKey, other)]) := by
  refine .object (by simpa using distinct) ?_
  simp only [List.mem_cons, List.not_mem_nil, or_false, forall_eq_or_imp, forall_eq]
  exact ⟨formed, alsoFormed⟩

theorem digest_identifies_reordered :
    canonicalJson printedHere request = canonicalJson printedHere reordered ↔
      SameRequest request reordered := by
  have items : WellFormed (.array [.number (.whole ⟨1, by decide⟩), .null]) := by
    refine .array ?_
    simp only [List.mem_cons, List.not_mem_nil, or_false, forall_eq_or_imp, forall_eq]
    exact ⟨.number _, .null⟩
  have float : WellFormed (.number (.float half)) := .number _
  exact (digest_identifies_request prints_printedHere
    (wellFormed_fields _ float _ items (by decide))
    (wellFormed_fields _ items _ float (by decide))).1

end Refyard.Digest
