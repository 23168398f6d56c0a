import Refyard.HostNode.ApprovalSteps

/-! One repository, one identity: what holds along every run of approvals in which nobody else
registers or removes a repository between a call's look at it and the change it makes. -/
namespace Refyard.Approvals
open ApprovalHost

structure Identified (approvals : ApprovalHost) : Prop where
  one : ∀ first ∈ approvals.stands, ∀ second ∈ approvals.stands,
    first.commonDir = second.commonDir → first.repositoryId = second.repositoryId
  bound : ∀ record ∈ approvals.stands,
    approvals.registry.repositoryIdByCommonDir record.commonDir = some record.repositoryId

/-- Nobody came in between: the directory is still free where a record is filed, the record still
stands where its worktrees were read, a repository that was found stood when the root was chosen
or lives in it, and where a revocation saw another repository one is left. -/
def InTurn (approvals : ApprovalHost) : ApprovalStep → Prop
  | .resume call .pinned => ∀ asker record,
      approvals.calls call = some (.pinning asker record) →
        approvals.existing record.commonDir = none
  | .resume call (.worktrees found) => ∀ asker record,
      approvals.calls call = some (.readingWorktrees asker record) →
        (∃ stored ∈ approvals.stands, stored.repositoryId = record.repositoryId) ∨
          completes record found = false ∧ approvals.existing record.commonDir = none
  | .resume call (.read found) => ∀ resolvedPath root before allowedRootId rootPath,
      approvals.calls call =
          some (.readingLayout (.approval resolvedPath root before) allowedRootId rootPath) →
        ∀ path layout existing, readDirectory rootPath found = .ok (path, layout) →
          approvals.existing layout.commonDir = some existing →
            existing.repositoryId ∈ before ∨ existing.allowedRootId = root.allowedRootId
  | .resume call (.journaled (.ok ())) => ∀ record,
      approvals.calls call = some (.revoking record true) →
        ∃ other ∈ approvals.stands, other.repositoryId ≠ record.repositoryId ∧
          other.allowedRootId = record.allowedRootId
  | _ => True

/-! What calls hold. -/

def Asker.Chose : Asker → String → Prop
  | .approval _ root _, allowedRootId => allowedRootId = root.allowedRootId
  | .direct, _ => True

def Asker.Takes : Asker → RepositoryRecord → Prop
  | .approval _ root before, record =>
      record.repositoryId ∈ before ∨ record.allowedRootId = root.allowedRootId
  | .direct, _ => True

def Call.Fits : Call → Prop
  | .checkingRoot asker root _ => asker.Chose root.allowedRootId
  | .readingLayout asker allowedRootId _ => asker.Chose allowedRootId
  | .reconciling asker existing => asker.Takes existing
  | .pinning asker record | .readingWorktrees asker record => asker.Chose record.allowedRootId
  | .answered _ root before record =>
      record.repositoryId ∈ before ∨ record.allowedRootId = root.allowedRootId
  | .journaling _ root record => record.allowedRootId = root.allowedRootId
  | _ => True

/-- What holds of every state of a run in turn: a repository that stands is bound, and calls fit. -/
structure Kept (approvals : ApprovalHost) : Prop where
  bound : ∀ record ∈ approvals.stands,
    approvals.registry.repositoryIdByCommonDir record.commonDir = some record.repositoryId
  fits : ∀ call held, approvals.calls call = some held → held.Fits

namespace Kept

variable {origin : Nat → String × String} {approvals : ApprovalHost} {record : RepositoryRecord}

theorem identified (h : Kept approvals) : Identified approvals := by
  refine ⟨?_, h.bound⟩
  intro first member second also same
  have bound := h.bound first member
  rw [same, h.bound second also, Option.some_inj] at bound
  exact bound.symm

theorem moves (h : Kept approvals) (call : Nat) {held : Option Call}
    (fits : ∀ waits, held = some waits → waits.Fits) : Kept (approvals.moves call held) where
  bound := h.bound
  fits other found waits := by
    dsimp only [ApprovalHost.moves] at waits
    rw [Function.update_apply] at waits
    split at waits
    · exact fits found waits
    · exact h.fits other found waits

theorem same (h : Kept approvals) {next : ApprovalHost}
    (records : next.registry.records = approvals.registry.records)
    (binding : next.registry.repositoryIdByCommonDir = approvals.registry.repositoryIdByCommonDir)
    (calls : next.calls = approvals.calls) : Kept next where
  bound record member := by
    unfold ApprovalHost.stands at member
    rw [records] at member
    rw [binding]
    exact h.bound record member
  fits call held waits := by
    rw [calls] at waits
    exact h.fits call held waits

theorem goesOn (h : Kept approvals) {next : ApprovalHost}
    (records : next.registry.records = approvals.registry.records)
    (binding : next.registry.repositoryIdByCommonDir = approvals.registry.repositoryIdByCommonDir)
    (calls : next.calls = approvals.calls) (call : Nat) {held : Call} (fits : held.Fits) :
    Kept (next.moves call (some held)) :=
  (h.same records binding calls).moves call fun _ same => Option.some.inj same ▸ fits

theorem ne_of_free (h : Kept approvals) {commonDir : String}
    (free : approvals.existing commonDir = none) (member : record ∈ approvals.stands) :
    record.commonDir ≠ commonDir := by
  rintro rfl
  rw [existing, h.bound record member, Option.bind_some, InsertionMap.mem_values.mp member] at free
  cases free

theorem file (h : Kept approvals) (free : approvals.existing record.commonDir = none) :
    Kept { approvals with registry := approvals.registry.file record } where
  bound other member := by
    dsimp only [Registry.file]
    obtain rfl | ⟨before, -⟩ := InsertionMap.mem_values_set.mp member
    · exact Function.update_self _ _ _
    · rw [Function.update_of_ne (h.ne_of_free free before)]
      exact h.bound other before
  fits := h.fits

theorem forget (h : Kept approvals) (sound : Sound origin approvals)
    (traced : Traced origin approvals.number record)
    (own : (∃ stored ∈ approvals.stands, stored.repositoryId = record.repositoryId) ∨
      approvals.existing record.commonDir = none) :
    Kept { approvals with registry := approvals.registry.forget record } where
  bound other member := by
    obtain ⟨before, differs⟩ := InsertionMap.mem_values_erase.mp member
    have elsewhere : other.commonDir ≠ record.commonDir := by
      obtain ⟨stored, stands, same⟩ | free := own
      · intro shared
        have place := ((sound.registry.stored stored stands).agree traced same).2
        exact differs ((h.identified.one other before stored stands
          (shared.trans place.symm)).trans same)
      · exact h.ne_of_free free before
    dsimp only [Registry.forget]
    rw [Function.update_of_ne elsewhere]
    exact h.bound other before
  fits := h.fits

theorem complete (h : Kept approvals) (sound : Sound origin approvals)
    (traced : Traced origin approvals.number record)
    (own : ∃ stored ∈ approvals.stands, stored.repositoryId = record.repositoryId) :
    Kept { approvals with registry := approvals.registry.complete record } := by
  obtain ⟨stored, stands, same⟩ := own
  have filled : Kept { approvals with registry :=
      { approvals.registry with records := approvals.registry.records.set record } } := by
    refine ⟨?_, h.fits⟩
    intro other member
    obtain rfl | ⟨before, -⟩ := InsertionMap.mem_values_set.mp member
    · have place := ((sound.registry.stored stored stands).agree traced same).2
      rw [← place, h.bound stored stands, same]
    · exact h.bound other before
  obtain ⟨records, binding⟩ := records_attachRepository
    { approvals.registry with records := approvals.registry.records.set record }
    record.allowedRootId record.repositoryId
  exact filled.same records binding rfl

theorem unregister (h : Kept approvals) (sound : Sound origin approvals) (repositoryId : String) :
    Kept { approvals with registry := approvals.registry.unregister repositoryId } := by
  unfold Registry.unregister
  cases found : approvals.registry.records.get? repositoryId with
  | none => exact h
  | some record =>
    obtain ⟨member, -⟩ := InsertionMap.get?_eq_some.mp found
    obtain ⟨records, binding⟩ := records_detachRepository (approvals.registry.forget record)
      record.allowedRootId repositoryId
    have forgot := h.forget sound (sound.registry.stored record member) (.inl ⟨record, member, rfl⟩)
    exact forgot.same records binding rfl

theorem fits_of_follows (h : Kept approvals) {call : Nat} {found : Found} {held : Call}
    (follows : Follows approvals (approvals.calls call) found held)
    (inTurn : InTurn approvals (.resume call found)) : held.Fits := by
  generalize was : approvals.calls call = before at follows
  cases follows with
  | approving => trivial
  | checkingRoot resolvedPath stands => exact (InsertionMap.get?_eq_some.mp stands).2
  | readingLayout =>
    have fits := h.fits call _ was
    exact fits
  | reconciling read stands =>
    rename_i asker allowedRootId rootPath found path layout existing
    cases asker with
    | approval resolvedPath root before =>
      exact inTurn resolvedPath root before allowedRootId rootPath was path layout existing read
        stands
    | direct => trivial
  | answered =>
    have fits := h.fits call _ was
    exact fits
  | journaling new => exact (h.fits call _ was).resolve_left new

theorem resume (h : Kept approvals) (sound : Sound origin approvals) {call : Nat} {found : Found}
    {next : ApprovalHost} (step : Resumed approvals call found next)
    (inTurn : InTurn approvals (.resume call found)) : Kept next := by
  have nothing : ∀ held : Call, (none : Option Call) = some held → held.Fits := by
    intro held none
    cases none
  cases step with
  | idle => exact h
  | over_ drawn =>
    refine moves ?_ call ?_
    · exact h.same rfl rfl rfl
    · exact nothing
  | waits follows =>
    refine h.moves call ?_
    rintro held ⟨⟩
    exact h.fits_of_follows follows inTurn
  | drewRoot resolvedPath path =>
    apply h.goesOn <;> trivial
  | granted path was =>
    apply h.goesOn <;> trivial
  | pinnedRoot was =>
    apply h.goesOn <;> trivial
  | drew path was =>
    have fits := h.fits call _ was
    apply h.goesOn
    · rfl
    · rfl
    · rfl
    · exact fits
  | filed was =>
    have fits := h.fits call _ was
    apply (h.file (inTurn _ _ was)).goesOn
    · rfl
    · rfl
    · rfl
    · exact fits
  | failed was =>
    have own := (inTurn _ _ was).imp_right And.right
    exact (h.forget sound (sound.held call _ _ was rfl) own).moves call nothing
  | completed primaryWorktreeId worktreeIds was complete =>
    rename_i asker record worktrees
    have stands := (inTurn _ _ was).resolve_right fun lost => by
      rw [complete] at lost
      cases lost.1
    have traced : Traced origin approvals.number
        (record.withWorktrees primaryWorktreeId worktreeIds) := sound.held call _ record was rfl
    refine (h.complete sound traced stands).moves call ?_
    have chose : asker.Chose record.allowedRootId := h.fits call _ was
    cases asker with
    | approval resolvedPath root before =>
      rintro held ⟨⟩
      exact .inr chose
    | direct => exact nothing
  | withdrew was => exact (h.unregister sound _).moves call nothing

theorem next (h : Kept approvals) (sound : Sound origin approvals) (homedir : String)
    {step : ApprovalStep} (inTurn : InTurn approvals step) :
    Kept ((managing homedir).next approvals step) := by
  have begins : ∀ held : Call, held.Fits → Kept (approvals.begins held).1 := by
    intro held fits
    have moved : Kept (approvals.moves approvals.begun (some held)) :=
      h.moves _ fun waits same => Option.some.inj same ▸ fits
    exact moved.same rfl rfl rfl
  unfold Machine.next managing
  cases step with
  | register path =>
    dsimp only [register]
    split
    · exact begins _ trivial
    · exact h.same rfl rfl rfl
  | registerIn allowedRootId relativePath =>
    dsimp only [registerIn]
    split
    · exact h.same rfl rfl rfl
    · exact begins _ trivial
  | revoke repositoryId =>
    dsimp only [revoke]
    split
    · exact h.same rfl rfl rfl
    · exact begins _ trivial
  | unregister repositoryId => exact h.unregister sound repositoryId
  | drawId => exact h.same rfl rfl rfl
  | resume call found => exact h.resume sound (resumed approvals call found) inTurn

end Kept

end Refyard.Approvals
