import Refyard.Contract.Operation

/-! What must be true before an operation may run: a decision over gathered facts. -/
namespace Refyard

structure GatheredRefusal where
  code : ProblemCode
  message : String
  retryable : Bool

/-- `none` as the current fingerprint is content nobody could read. -/
structure PreviewFingerprintCheck where
  pathId : String
  expectedFingerprint : Option String
  currentFingerprint : Option String

structure RestartWriteBlock where
  reason : String
  operationIds : List String

structure PreconditionContext where
  snapshotHeadOid : Option String := none
  currentHeadOid : Option String := none
  indexUnchanged : Bool := false
  operationInProgress : Option String := none
  mayRunDuring : List String := []
  restartBlock : Option RestartWriteBlock := none
  previewChecks : List PreviewFingerprintCheck := []
  refusal : Option GatheredRefusal := none

def checkRefusal (context : PreconditionContext) : Except Problem Unit :=
  match context.refusal with
  | none => .ok ()
  | some refusal =>
      let problem := Problem.new refusal.code refusal.message
      .error (if refusal.retryable then problem.asRetryable else problem)

def checkRestartBlock (context : PreconditionContext) : Except Problem Unit :=
  match context.restartBlock with
  | none => .ok ()
  | some block =>
      .error (((Problem.new .uncertainOutcome
        s!"{block.reason}; confirm the repository state before submitting new work").withDetail
          "reason" (.text block.reason)).withDetail
          "operations" (.text (",".intercalate block.operationIds)))

def checkInProgress (context : PreconditionContext) : Except Problem Unit :=
  match context.operationInProgress with
  | none => .ok ()
  | some inProgress =>
      if context.mayRunDuring.any fun allowed => allowed = inProgress then .ok ()
      else
        .error ((Problem.new .conflict
          s!"a {inProgress} is in progress in this worktree; finish or abort it before other operations").withDetail
            "operation" (.text inProgress))

def checkHead (context : PreconditionContext) : Except Problem Unit :=
  if context.snapshotHeadOid = context.currentHeadOid then .ok ()
  else
    .error (((Problem.new .staleSnapshot
      "the repository moved since this request was prepared; reload and confirm again").withDetail
        "expectedHead" (.text (context.snapshotHeadOid.getD "(unborn)"))).withDetail
        "currentHead" (.text (context.currentHeadOid.getD "(unborn)")))

def checkIndex (context : PreconditionContext) : Except Problem Unit :=
  if context.indexUnchanged then .ok ()
  else
    .error (.new .staleSnapshot
      "the index changed since this request was prepared; reload and confirm again")

def checkPreviews : List PreviewFingerprintCheck → Except Problem Unit
  | [] => .ok ()
  | check :: rest =>
      match check.currentFingerprint with
      | none =>
          .error ((Problem.new .stalePreview
            "a selected path could no longer be read; re-preview it before changing it").withDetail
              "pathId" (.text check.pathId))
      | some current =>
          if some current ≠ check.expectedFingerprint then
            .error ((Problem.new .stalePreview
              "the content of a selected path changed since it was previewed; re-preview it before changing it").withDetail
                "pathId" (.text check.pathId))
          else checkPreviews rest

/-- Decides whether the operation may run, or names the fact that refuses it. The source
stops at the first failing check. -/
def checkPreconditions (context : PreconditionContext) : Except Problem Unit := do
  checkRefusal context
  checkRestartBlock context
  checkInProgress context
  checkHead context
  checkIndex context
  checkPreviews context.previewChecks

def mayRunDuringOperation : MutationKind → List String
  | .stagePaths | .unstagePaths => ["merge", "cherry-pick", "rebase"]
  | .continueMerge | .abortMerge => ["merge"]
  | .continueCherryPick | .abortCherryPick => ["cherry-pick"]
  | .continueRebase | .abortRebase => ["rebase"]
  | _ => []

variable {context : PreconditionContext}

theorem checkRefusal_ok : checkRefusal context = .ok () ↔ context.refusal = none := by
  unfold checkRefusal
  split <;> simp_all

theorem checkRestartBlock_ok :
    checkRestartBlock context = .ok () ↔ context.restartBlock = none := by
  unfold checkRestartBlock
  split <;> simp_all

theorem checkInProgress_ok : checkInProgress context = .ok () ↔
      ∀ inProgress ∈ context.operationInProgress, inProgress ∈ context.mayRunDuring := by
  unfold checkInProgress
  split
  · simp_all
  · rename_i inProgress found
    split <;> simp_all

theorem checkHead_ok :
    checkHead context = .ok () ↔ context.snapshotHeadOid = context.currentHeadOid := by
  unfold checkHead
  split <;> simp_all

theorem checkIndex_ok : checkIndex context = .ok () ↔ context.indexUnchanged = true := by
  unfold checkIndex
  split <;> simp_all

theorem both_ok {first second : Except Problem Unit} :
    (first >>= fun _ => second) = .ok () ↔ first = .ok () ∧ second = .ok () := by
  cases first with
  | error problem => exact iff_of_false (fun h => by cases h) fun h => by cases h.1
  | ok value => exact (and_iff_right rfl).symm

structure Passed (context : PreconditionContext) : Prop where
  refusal : context.refusal = none
  restartBlock : context.restartBlock = none
  inProgress : ∀ inProgress ∈ context.operationInProgress, inProgress ∈ context.mayRunDuring
  head : context.snapshotHeadOid = context.currentHeadOid
  index : context.indexUnchanged = true

theorem checkPreconditions_ok (previews : context.previewChecks = []) :
    checkPreconditions context = .ok () ↔ Passed context := by
  have last : checkPreviews context.previewChecks = .ok () := by
    rw [previews]
    rfl
  unfold checkPreconditions
  rw [both_ok, both_ok, both_ok, both_ok, both_ok, checkRefusal_ok, checkRestartBlock_ok, checkInProgress_ok,
    checkHead_ok, checkIndex_ok]
  constructor
  · rintro ⟨refusal, block, inProgress, head, index, -⟩
    exact ⟨refusal, block, inProgress, head, index⟩
  · intro passed
    exact ⟨passed.refusal, passed.restartBlock, passed.inProgress, passed.head, passed.index, last⟩

end Refyard
