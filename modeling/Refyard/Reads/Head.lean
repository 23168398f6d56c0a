import Refyard.Reads.RefList
import Refyard.Registration
import Refyard.Writes.Target

/-! The commands of a read. Each runs in the worktree the read addresses, and a read that a
command failed is refused with the problem of that command. -/
namespace Refyard

/-- A read asks the executor of its repository and is refused with a problem. -/
abbrev Read := Interaction GitCommand GitAnswer Problem

structure ReadTarget where
  record : Registration.RepositoryRecord
  executor : GitExecutor

def ReadTarget.command (target : ReadTarget) (plan : GitPlan) : GitCommand where
  executor := target.executor
  directory := target.record.location.canonicalWorktree
  plan := plan

def requiredAnswer (answer : GitAnswer) (command : String) : Except Problem Bytes := do
  let outcome ← answer
  (requiredOutput outcome command).mapError GitFailure.problem

/-- The stdout, or `none` when Git exited with a code that carries meaning. -/
def meaningfulAnswer (answer : GitAnswer) (command : String) (meaningfulExitCodes : List Int) :
    Except Problem (Option Bytes) := do
  let outcome ← answer
  match outcome.state, outcome.exitCode with
  | .completed, some code =>
      if code ∈ meaningfulExitCodes then pure none
      else ((requiredOutput outcome command).mapError GitFailure.problem).map some
  | _, _ => ((requiredOutput outcome command).mapError GitFailure.problem).map some

def runRequired (target : ReadTarget) (plan : GitPlan) (command : String) : Read Bytes := do
  let answer ← .askFor (target.command plan) id
  .orLeave (requiredAnswer answer command)

def runMeaningfulExit (target : ReadTarget) (plan : GitPlan) (command : String)
    (meaningfulExitCodes : List Int) : Read (Option Bytes) := do
  let answer ← .askFor (target.command plan) id
  .orLeave (meaningfulAnswer answer command meaningfulExitCodes)

def asciiLine (bytes : Bytes) (command : String) : Except Problem String :=
  ((decodeAscii bytes command).mapError (parseProblem command)).map fun decoded =>
    String.ofList (trim decoded.toList)

def planHeadRef : GitPlan := .read ["symbolic-ref", "--quiet", "HEAD"]

def planHeadOid : GitPlan := .read ["rev-parse", "--verify", "--quiet", "HEAD"]

/-- The branch name behind `refs/heads/`. A name that stands elsewhere is shown as it is. -/
def branchNameOf (branchRefName : String) : String :=
  match stripPrefix "refs/heads/".toList branchRefName.toList with
  | some name => String.ofList name
  | none => branchRefName

def oidLine (headOid : Option Bytes) : Except Problem (Option String) :=
  match headOid with
  | some bytes => (asciiLine bytes "rev-parse HEAD").map some
  | none => .ok none

def headOn (branchRef : Option Bytes) (oid : Option String) : Except Problem HeadState :=
  let kind := if oid.isNone then .unborn else .born
  match branchRef with
  | none => .ok { kind, branchName := none, oid, detached := true }
  | some bytes =>
      (asciiLine bytes "symbolic-ref HEAD").map fun branchRefName =>
        { kind, branchName := some (branchNameOf branchRefName), oid, detached := false }

def headOf (branchRef headOid : Option Bytes) : Except Problem HeadState := do
  let oid ← oidLine headOid
  headOn branchRef oid

def readHeadState (target : ReadTarget) : Read HeadState := do
  let branchRef ← runMeaningfulExit target planHeadRef "symbolic-ref HEAD" [1]
  let headOid ← runMeaningfulExit target planHeadOid "rev-parse HEAD" [1]
  .orLeave (headOf branchRef headOid)

def finishedWith (exitCode : Int) (stdout : Bytes) : GitAnswer :=
  .ok { state := .completed, exitCode := some exitCode, stdout, stderr := [],
        outputComplete := true, termination := none }

variable (stdout : Bytes)

@[simp] theorem requiredAnswer_finished (command : String) :
    requiredAnswer (finishedWith 0 stdout) command = .ok stdout := rfl

theorem meaningfulAnswer_finished (command : String) :
    meaningfulAnswer (finishedWith 0 stdout) command [1] = .ok (some stdout) := rfl

theorem asciiLine_of_ends {text : String} (ascii : IsAscii text)
    (first : ∀ char ∈ text.toList.head?, isWhitespace char = false)
    (last : ∀ char ∈ text.toList.getLast?, isWhitespace char = false) (some_char : text ≠ "")
    (command : String) : asciiLine (asciiBytes (text ++ "\n")) command = .ok text := by
  have whole : trim (text.toList ++ ['\n']) = text.toList := by
    have front : (text.toList ++ ['\n']).dropWhile isWhitespace = text.toList ++ ['\n'] := by
      cases chars : text.toList with
      | nil => exact absurd (String.toList_eq_nil_iff.mp chars) some_char
      | cons char rest =>
        rw [List.cons_append, List.dropWhile_cons_of_neg (by simp [first char (by rw [chars]; rfl)])]
    rw [trim, front, trimEnd, List.rdropWhile_concat_pos _ _ _ (by decide)]
    rw [List.rdropWhile_eq_self_iff]
    intro nonempty
    simp [last _ (List.getLast_mem_getLast? nonempty)]
  have line : IsAscii (text ++ "\n") := ascii.append (by decide)
  unfold asciiLine
  rw [decodeAscii_asciiBytes line]
  have chars : (text ++ "\n").toList = text.toList ++ ['\n'] := by simp
  change Except.ok (String.ofList (trim (text ++ "\n").toList)) = _
  rw [chars, whole, String.ofList_toList]

theorem asciiLine_objectName (oid : ObjectName) (command : String) :
    asciiLine (oid.1 ++ [0x0a]) command = .ok oid.text := by
  have visible : ∀ char ∈ oid.text.toList, isWhitespace char = false := by
    intro char member
    rw [ObjectName.text, toList_asciiText] at member
    obtain ⟨byte, inside, rfl⟩ := List.mem_map.mp member
    have hex := mem_objectName oid inside
    simp only [Bool.or_eq_true, Bool.and_eq_true, decide_eq_true_eq, UInt8.le_iff_toNat_le] at hex
    unfold isWhitespace
    rw [toNat_byteChar]
    simp only [Bool.or_eq_false_iff, Bool.and_eq_false_iff, decide_eq_false_iff_not,
      beq_eq_false_iff_ne]
    simp only [show (0x30 : UInt8).toNat = 48 from rfl, show (0x39 : UInt8).toNat = 57 from rfl,
      show (0x61 : UInt8).toNat = 97 from rfl, show (0x66 : UInt8).toNat = 102 from rfl] at hex
    omega
  have ascii : IsAscii oid.text := by
    intro char member
    rw [ObjectName.text, toList_asciiText] at member
    obtain ⟨byte, inside, rfl⟩ := List.mem_map.mp member
    rw [toNat_byteChar]
    exact Nat.lt_succ_of_le (UInt8.le_iff_toNat_le.mp (objectName_le oid byte inside))
  have some_char : oid.text ≠ "" := by
    intro empty
    apply objectName_ne oid
    rw [← asciiBytes_asciiText oid.1, show asciiText oid.1 = "" from empty]
    rfl
  have line : oid.1 ++ [0x0a] = asciiBytes (oid.text ++ "\n") := by
    rw [asciiBytes_append, ObjectName.text, asciiBytes_asciiText]
    rfl
  rw [line]
  exact asciiLine_of_ends ascii (fun char head => visible char (List.mem_of_head? head))
    (fun char last => visible char (List.mem_of_getLast? last)) some_char command

end Refyard
