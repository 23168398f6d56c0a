import Refyard.Core.StatusText
import Refyard.Paths
import Refyard.Previews
import Refyard.Writes.Prepare

/-! Staging: the selected paths are resolved and their preview tokens redeemed against what is
there now, and then one `git add` names them and the origins of selected renames. -/
namespace Refyard
open Paths Previews

def pathSelectionMaxEntries : Nat := 1000

structure StagingHost where
  host : WriteHost
  paths : PathRegistry
  previews : PreviewStore

/-- What each selected path holds when it is read again, and the clock at its check. -/
structure FreshReads where
  read : Nat → FileRead
  clock : Nat → Int

structure Staging where
  target : WriteTarget
  selected : List ResolvedPath

section
variable (sha256 : Bytes → Bytes)

def previewCheck (target : WriteTarget) (fresh : FreshReads) (path : ResolvedPath) (token : String)
    (index : Nat) : PreviewCheck × Int :=
  ({ previewToken := token
     repositoryId := target.record.repositoryId
     worktreeId := target.worktreeId
     targetGeneration := target.record.location.targetGeneration
     pathId := path.pathId
     currentFingerprintHex := (fresh.read index).fingerprintHex sha256 }, fresh.clock index)

def previewChecks (target : WriteTarget) (fresh : FreshReads) (selected : List ResolvedPath)
    (tokens : List String) : List (PreviewCheck × Int) :=
  (selected.zip tokens).zipIdx.map fun presented =>
    previewCheck sha256 target fresh presented.1.1 presented.1.2 presented.2

def redeemPreviews (previews : PreviewStore) (target : WriteTarget) (fresh : FreshReads)
    (selected : List ResolvedPath) (tokens : List String) : Except Problem Unit × PreviewStore :=
  if selected.length ≠ tokens.length then
    (.error (.new .invalidRequest "one preview token is required per selected path"), previews)
  else
    let (answer, previews) := previews.redeem (previewChecks sha256 target fresh selected tokens)
    (answer.mapError fun refusal => refusal.problem none, previews)

def beginStage (staging : StagingHost) (fresh : FreshReads) (request : EffectRequest) :
    Except EffectOutcome Staging × PreviewStore :=
  let operationId := request.operationId
  match request.request.operation with
  | .stagePaths pathIds previewTokens =>
      if pathIds.isEmpty || pathSelectionMaxEntries < pathIds.length then
        (.error (invalidPayload operationId
          s!"a stage names between 1 and {pathSelectionMaxEntries} paths; this request names {pathIds.length}"),
          staging.previews)
      else if previewTokens.length ≠ pathIds.length then
        (.error (invalidPayload operationId "one preview token is required per selected path"),
          staging.previews)
      else
        match staging.host.resolve request.request with
        | .error problem => (.error (refused operationId problem), staging.previews)
        | .ok target =>
            match staging.paths.resolvePaths target.worktreeId
                target.record.location.targetGeneration pathIds with
            | .error problem => (.error (refused operationId problem), staging.previews)
            | .ok selected =>
                match redeemPreviews sha256 staging.previews target fresh selected
                    previewTokens with
                | (.error problem, previews) => (.error (refused operationId problem), previews)
                | (.ok (), previews) => (.ok { target, selected }, previews)
  | _ => (.error (wrongPayload operationId "stagePaths"), staging.previews)

end

def selectedPaths (selected : List ResolvedPath) : List Bytes :=
  selected.foldl (fun paths path =>
    if paths.contains path.bytes then paths else paths ++ [path.bytes]) []

/-- The origin of a selected rename or copy, where Git itself still reports it. -/
def originOf (records : List StatusRecord) (path : ResolvedPath) : Option Bytes :=
  match records.find? fun record => record.path = path.bytes with
  | none => none
  | some record =>
      if record.kind ≠ .renamed ∧ record.kind ≠ .copied then none
      else
        record.originalPath.filter fun original =>
          records.any fun record => record.path = original

def stagePaths (selected : List ResolvedPath) (records : List StatusRecord) : List Bytes :=
  selected.foldl (fun paths path =>
    match originOf records path with
    | none => paths
    | some original => if paths.contains original then paths else paths ++ [original])
    (selectedPaths selected)

def runStage (operationId : String) (staging : Staging) : Effect EffectOutcome := do
  let before ← orRefuse operationId (← readFacts staging.target)
  let plan := planStage (stagePaths staging.selected before.records)
  let outcome ← orRefuse operationId (← tryRun staging.target plan)
  let after ← readBack staging.target
  let count := staging.selected.length
  pure (effectOutcome (classifyWrite "git add" .indexMayBeUnchanged outcome before after)
    (s!"staged {count} path" ++ if count = 1 then "" else "s") (some count))

def stage (sha256 : Bytes → Bytes) (host : StagingHost) (fresh : FreshReads)
    (request : EffectRequest) : Effect EffectOutcome :=
  match (beginStage sha256 host fresh request).1 with
  | .error outcome => .done outcome
  | .ok staging => runStage request.operationId staging

/-- The pathspecs that `git add` reads from its stdin. -/
def pathspecs (stdin : Bytes) : List Bytes := cutFrames [] stdin

def GitPlan.isAdd (plan : GitPlan) : Bool := ["--literal-pathspecs", "add"].isPrefixOf plan.argv

/-- The path is a selected one, and its token was redeemed in this request against the bytes
that were read there. -/
def RedeemedNow (sha256 : Bytes → Bytes) (host : StagingHost) (fresh : FreshReads)
    (request : EffectRequest) (path : Bytes) : Prop :=
  let begun := beginStage sha256 host fresh request
  ∃ staging pathIds tokens, begun.1 = .ok staging ∧
    request.request.operation = .stagePaths pathIds tokens ∧
    ∃ index chosen token, staging.selected[index]? = some chosen ∧ tokens[index]? = some token ∧
      chosen.bytes = path ∧
      (let check := previewCheck sha256 staging.target fresh chosen token index
       host.previews.Redeemable check.1 check.2) ∧
      ∃ entry, begun.2.entries.get? token = some entry ∧ entry.used = true

/-- Every path that `git add` is given was redeemed now, or nothing stands there. -/
def StagesPreviewed (sha256 : Bytes → Bytes) (host : StagingHost) (fresh : FreshReads)
    (request : EffectRequest) (tree : Bytes → FileRead) (answers : Nat → GitAnswer) : Prop :=
  ∀ exchange ∈ (Interaction.run answers (stage sha256 host fresh request) 0).exchanges,
    exchange.1.plan.isAdd = true → ∀ path ∈ pathspecs exchange.1.plan.stdin,
      RedeemedNow sha256 host fresh request path ∨ tree path = .missing

/-- Where the request gets as far as the status, every origin that joins the selection without
being selected is gone from the working tree. -/
def OriginsGone (sha256 : Bytes → Bytes) (host : StagingHost) (fresh : FreshReads)
    (request : EffectRequest) (tree : Bytes → FileRead) (answers : Nat → GitAnswer) : Prop :=
  ∀ staging before, (beginStage sha256 host fresh request).1 = .ok staging →
    factsOf (answers 0) = .ok before → ∀ chosen ∈ staging.selected,
      ∀ original ∈ originOf before.records chosen,
        original ∉ staging.selected.map ResolvedPath.bytes → tree original = .missing

variable {path : Bytes}

theorem mem_foldl_offer {α : Type} (offer : α → Option Bytes) {offered : List α}
    {start : List Bytes} :
    path ∈ offered.foldl (fun paths value =>
        match offer value with
        | none => paths
        | some next => if paths.contains next then paths else paths ++ [next]) start ↔
      path ∈ start ∨ ∃ value ∈ offered, offer value = some path := by
  induction offered generalizing start with
  | nil => simp
  | cons value rest ih =>
    rw [List.foldl_cons, ih, List.exists_mem_cons_iff, ← or_assoc]
    apply or_congr_left
    cases offer value with
    | none => simp
    | some next =>
      dsimp only
      rw [Option.some_inj]
      split
      · rename_i held
        rw [List.contains_iff_mem] at held
        constructor
        · exact .inl
        · rintro (before | rfl)
          · exact before
          · exact held
      · rw [List.mem_append, List.mem_singleton, eq_comm (a := path)]

variable {selected : List ResolvedPath}

theorem mem_selectedPaths :
    path ∈ selectedPaths selected ↔ path ∈ selected.map ResolvedPath.bytes := by
  have offered : path ∈ selectedPaths selected ↔
      path ∈ [] ∨ ∃ chosen ∈ selected, some chosen.bytes = some path :=
    mem_foldl_offer fun chosen : ResolvedPath => some chosen.bytes
  rw [offered]
  simp

theorem mem_stagePaths {records : List StatusRecord} :
    path ∈ stagePaths selected records ↔ path ∈ selected.map ResolvedPath.bytes ∨
      ∃ chosen ∈ selected, originOf records chosen = some path := by
  unfold stagePaths
  rw [mem_foldl_offer, mem_selectedPaths]

theorem pathspecs_planStage {paths : List Bytes} (free : ∀ path ∈ paths, (0 : UInt8) ∉ path) :
    pathspecs (planStage paths).stdin = paths :=
  cutFrames_nulFrames free

theorem nul_notMem_originOf {answer : GitAnswer} {facts : WriteFacts} (read : factsOf answer = .ok facts)
    {chosen : ResolvedPath} {original : Bytes} (origin : originOf facts.records chosen = some original) :
    (0 : UInt8) ∉ original := by
  obtain ⟨outcome, -, rest⟩ := bind_eq_ok.mp read
  obtain ⟨stdout, -, rest⟩ := bind_eq_ok.mp rest
  obtain ⟨parsed, parses, built⟩ := bind_eq_ok.mp rest
  cases built
  unfold originOf at origin
  split at origin
  · cases origin
  · rename_i record found
    split at origin
    · cases origin
    · rw [Option.filter_eq_some_iff] at origin
      have member := List.mem_of_find?_eq_some found
      have ok : parseStatus stdout statusMaxEntries = .ok parsed := by
        cases answered : parseStatus stdout statusMaxEntries with
        | error error =>
          rw [answered] at parses
          cases parses
        | ok result =>
          rw [answered] at parses
          cases parses
          rfl
      exact originalKept_parseStatus ok record member original origin.1

section
variable {sha256 : Bytes → Bytes} {host : StagingHost} {fresh : FreshReads}
  {request : EffectRequest} {staging : Staging}

theorem beginStage_ok (begun : (beginStage sha256 host fresh request).1 = .ok staging) :
    ∃ pathIds tokens, request.request.operation = .stagePaths pathIds tokens ∧
      host.paths.resolvePaths staging.target.worktreeId
          staging.target.record.location.targetGeneration pathIds = .ok staging.selected ∧
      staging.selected.length = tokens.length ∧
      host.previews.redeem (previewChecks sha256 staging.target fresh staging.selected tokens) =
        (.ok (), (beginStage sha256 host fresh request).2) := by
  cases operation : request.request.operation with
  | stagePaths pathIds tokens =>
    unfold beginStage at begun ⊢
    rw [operation] at begun ⊢
    dsimp only at begun ⊢
    split_ifs at begun ⊢ with many counts
    cases resolved : host.host.resolve request.request with
    | error problem =>
      rw [resolved] at begun
      cases begun
    | ok target =>
      rw [resolved] at begun
      dsimp only at begun ⊢
      cases paths : host.paths.resolvePaths target.worktreeId
          target.record.location.targetGeneration pathIds with
      | error problem =>
        rw [paths] at begun
        cases begun
      | ok selected =>
        rw [paths] at begun
        dsimp only at begun ⊢
        unfold redeemPreviews at begun ⊢
        split_ifs at begun ⊢ with lengths
        obtain ⟨refusal, -, answered⟩ | ⟨-, answered⟩ :=
          host.previews.redeem_cases (previewChecks sha256 target fresh selected tokens)
        · rw [answered] at begun
          cases begun
        · rw [answered] at begun ⊢
          cases begun
          exact ⟨pathIds, tokens, rfl, paths, not_not.mp lengths, answered⟩
  | _ =>
    unfold beginStage at begun
    rw [operation] at begun
    cases begun

theorem redeemedNow_of_selected (begun : (beginStage sha256 host fresh request).1 = .ok staging)
    (selected : path ∈ staging.selected.map ResolvedPath.bytes) :
    RedeemedNow sha256 host fresh request path := by
  obtain ⟨pathIds, tokens, operation, -, lengths, redeemed⟩ := beginStage_ok begun
  obtain ⟨chosen, member, rfl⟩ := List.mem_map.mp selected
  obtain ⟨index, within, held⟩ := List.mem_iff_getElem.mp member
  have bound : index < tokens.length := lengths ▸ within
  have check : previewCheck sha256 staging.target fresh chosen (tokens.get ⟨index, bound⟩) index ∈
      previewChecks sha256 staging.target fresh staging.selected tokens := by
    refine List.mem_map.mpr ⟨((chosen, tokens.get ⟨index, bound⟩), index), ?_, rfl⟩
    rw [List.mem_zipIdx_iff_getElem?, List.getElem?_zip_eq_some]
    exact ⟨List.getElem?_eq_some_iff.mpr ⟨within, held⟩, List.getElem?_eq_some_iff.mpr ⟨bound, rfl⟩⟩
  obtain ⟨refusal, -, answered⟩ | ⟨accepted, answered⟩ := host.previews.redeem_cases
    (previewChecks sha256 staging.target fresh staging.selected tokens)
  · rw [answered] at redeemed
    cases redeemed
  · have redeemable := PreviewStore.checkAll_ok.mp accepted _ check
    refine ⟨staging, pathIds, tokens, begun, operation, index, chosen, tokens.get ⟨index, bound⟩,
      List.getElem?_eq_some_iff.mpr ⟨within, held⟩, List.getElem?_eq_some_iff.mpr ⟨bound, rfl⟩, rfl,
      redeemable, ?_⟩
    obtain ⟨entry, fingerprint, filed, -⟩ := redeemable
    have store : (beginStage sha256 host fresh request).2.entries =
        (tokensOf (previewChecks sha256 staging.target fresh staging.selected tokens)).foldl spend
          host.previews.entries := by
      rw [answered] at redeemed
      exact congrArg PreviewStore.entries (congrArg Prod.snd redeemed).symm
    have spent : tokens.get ⟨index, bound⟩ ∈
        tokensOf (previewChecks sha256 staging.target fresh staging.selected tokens) :=
      List.mem_map.mpr ⟨_, check, rfl⟩
    refine ⟨{ entry with used := true }, ?_, rfl⟩
    have token : host.previews.entries.get? (tokens.get ⟨index, bound⟩) = some entry := filed
    rw [store, get?_foldl_spend, token, Option.map_some, if_pos spent]

theorem selected_of_redeemedNow (begun : (beginStage sha256 host fresh request).1 = .ok staging)
    (redeemed : RedeemedNow sha256 host fresh request path) :
    path ∈ staging.selected.map ResolvedPath.bytes := by
  obtain ⟨other, pathIds, tokens, same, -, index, chosen, token, held, -, bytes, -⟩ := redeemed
  rw [begun, Except.ok.injEq] at same
  exact List.mem_map.mpr ⟨chosen, same ▸ List.mem_of_getElem? held, bytes⟩

variable {before : WriteFacts} {tree : Bytes → FileRead} {answers : Nat → GitAnswer}

theorem nul_notMem_stagePaths (begun : (beginStage sha256 host fresh request).1 = .ok staging)
    {answer : GitAnswer} (read : factsOf answer = .ok before) :
    ∀ path ∈ stagePaths staging.selected before.records, (0 : UInt8) ∉ path := by
  obtain ⟨_, _, _, resolved, -⟩ := beginStage_ok begun
  intro path member
  obtain selected | ⟨chosen, -, origin⟩ := mem_stagePaths.mp member
  · obtain ⟨chosen, listed, rfl⟩ := List.mem_map.mp selected
    exact ((PathRegistry.resolvePaths_ok resolved).2 chosen listed).2
  · exact nul_notMem_originOf read origin

/-- A stage that begins and reads its status gives `git add` the list, and no other command of
it is an add. -/
theorem run_stage (begun : (beginStage sha256 host fresh request).1 = .ok staging)
    (answers : Nat → GitAnswer) (read : factsOf (answers 0) = .ok before) :
    let plan := planStage (stagePaths staging.selected before.records)
    (∃ exchange ∈ (Interaction.run answers (stage sha256 host fresh request) 0).exchanges,
        exchange.1.plan = plan) ∧
      ∀ exchange ∈ (Interaction.run answers (stage sha256 host fresh request) 0).exchanges,
        exchange.1.plan.isAdd = true → exchange.1.plan = plan := by
  intro plan
  have status : planStatus.isAdd = false := by decide
  have front : stage sha256 host fresh request = runStage request.operationId staging := by
    unfold stage
    rw [begun]
  rw [front]
  have exchanges : (Interaction.run answers (runStage request.operationId staging) 0).exchanges =
      [(staging.target.command planStatus, answers 0), (staging.target.command plan, answers 1)] ∨
      (Interaction.run answers (runStage request.operationId staging) 0).exchanges =
      [(staging.target.command planStatus, answers 0), (staging.target.command plan, answers 1),
        (staging.target.command planStatus, answers 2)] := by
    unfold runStage
    simp only [readFacts, Interaction.run_askFor_bind, read, orRefuse_ok, Interaction.done_bind,
      tryRun]
    cases added : answers 1 with
    | error problem => exact .inl (by simp [orRefuse_error, plan])
    | ok outcome => exact .inr (by simp [readBack, plan])
  obtain two | three := exchanges
  · rw [two]
    refine ⟨⟨_, List.mem_cons_of_mem _ List.mem_cons_self, rfl⟩, ?_⟩
    simp [status]
  · rw [three]
    refine ⟨⟨_, List.mem_cons_of_mem _ List.mem_cons_self, rfl⟩, ?_⟩
    simp [status]

theorem run_stage_refused (answers : Nat → GitAnswer)
    (refusal : ∀ staging before, (beginStage sha256 host fresh request).1 = .ok staging →
      factsOf (answers 0) ≠ .ok before) :
    ∀ exchange ∈ (Interaction.run answers (stage sha256 host fresh request) 0).exchanges,
      exchange.1.plan.isAdd = false := by
  have status : planStatus.isAdd = false := by decide
  unfold stage
  cases begun : (beginStage sha256 host fresh request).1 with
  | error outcome => simp
  | ok staging =>
    cases read : factsOf (answers 0) with
    | ok before => exact absurd read (refusal staging before begun)
    | error problem =>
      simp [runStage, readFacts, read, status]

theorem originsGone_of_previewed
    (previewed : StagesPreviewed sha256 host fresh request tree answers) :
    OriginsGone sha256 host fresh request tree answers := by
  intro staging before begun read chosen listed original origin unselected
  obtain ⟨⟨exchange, member, plan⟩, -⟩ := run_stage begun answers read
  have named : original ∈ pathspecs exchange.1.plan.stdin := by
    rw [plan, pathspecs_planStage (nul_notMem_stagePaths begun read), mem_stagePaths]
    exact .inr ⟨chosen, listed, origin⟩
  refine (previewed exchange member (by rw [plan]; rfl) original named).resolve_left ?_
  exact fun redeemed => unselected (selected_of_redeemedNow begun redeemed)

theorem previewed_of_originsGone (gone : OriginsGone sha256 host fresh request tree answers) :
    StagesPreviewed sha256 host fresh request tree answers := by
  by_cases reached : ∃ staging before, (beginStage sha256 host fresh request).1 = .ok staging ∧
      factsOf (answers 0) = .ok before
  · obtain ⟨staging, before, begun, read⟩ := reached
    intro exchange member add path named
    rw [(run_stage begun answers read).2 exchange member add,
      pathspecs_planStage (nul_notMem_stagePaths begun read), mem_stagePaths] at named
    by_cases selected : path ∈ staging.selected.map ResolvedPath.bytes
    · exact .inl (redeemedNow_of_selected begun selected)
    · obtain ⟨chosen, listed, origin⟩ := named.resolve_left selected
      exact .inr (gone staging before begun read chosen listed path origin selected)
  · intro exchange member add
    have refusal : exchange.1.plan.isAdd = false := run_stage_refused answers
      (fun staging before begun read => reached ⟨staging, before, begun, read⟩) exchange member
    rw [refusal] at add
    cases add

end

/-- `git add` is given only what was redeemed now or is gone, exactly where every origin that
joins the selection is gone. -/
theorem stages_previewed_iff (sha256 : Bytes → Bytes) (host : StagingHost) (fresh : FreshReads)
    (request : EffectRequest) (tree : Bytes → FileRead) (answers : Nat → GitAnswer) :
    StagesPreviewed sha256 host fresh request tree answers ↔
      OriginsGone sha256 host fresh request tree answers :=
  ⟨originsGone_of_previewed, previewed_of_originsGone⟩

section Sample

def stagedContent : Bytes := asciiBytes "new text" ++ [0x0a]

def stagedClaim : PreviewClaim where
  repositoryId := "repo_1"
  worktreeId := "wt_1"
  targetGeneration := "g1"
  pathId := "path_1"
  fingerprintHex := some "692953f85a5bc851dfb7f41bcf7b4f0ae9f96a7e6147541b648a8d7eaed0272d"
  sizeBytes := some 9
  contentKind := .text

def contentDigest (input : Bytes) : Bytes :=
  if input = stagedContent then
    [105, 41, 83, 248, 90, 91, 200, 81, 223, 183, 244, 27, 207, 123, 79, 10, 233, 249, 106, 126, 97,
      71, 84, 27, 100, 138, 141, 126, 174, 208, 39, 45]
  else if input = mintInput (List.replicate 32 7) 1 stagedClaim then
    [86, 95, 163, 110, 67, 236, 213, 71, 171, 196, 242, 167, 149, 144, 127, 241, 108, 56, 197, 87, 239, 210, 125, 98, 170, 123, 54, 235, 66, 104, 49, 118]
  else []

/-- `new.txt` has an id, and was previewed. -/
def stagingHost : StagingHost where
  host := sampleHost
  paths := ((({} : PathRegistry).bind "wt_1" "g1" (asciiBytes "new.txt"))).2
  previews := ((({ seed := List.replicate 32 7 } : PreviewStore).issue contentDigest
    { nowMs := 0, prunedAtMs := 0, walk := .byKey } stagedClaim)).2

def stageNew : EffectRequest :=
  sampleRequest (.stagePaths ["path_1"] ["pt_565fa36e43ecd547abc4f2a795907ff1"])

def freshReads : FreshReads where
  read := fun _ => .bytes stagedContent .text
  clock := fun _ => 1000

/-- `old.txt` was renamed to `new.txt` in the index, and written anew. -/
def renamedStatus : RunOutcome :=
  let oid := "1111111111111111111111111111111111111111"
  finished 0 (nulFrames [asciiBytes ("# branch.oid " ++ oid), asciiBytes "# branch.head main",
    asciiBytes ("2 R. N... 100644 100644 100644 " ++ oid ++ " " ++ oid ++ " R100 new.txt"),
    asciiBytes "old.txt", asciiBytes "? old.txt"])

def addsOrigin (sha256 : Bytes → Bytes) (host : StagingHost) (fresh : FreshReads)
    (request : EffectRequest) (answer : GitAnswer) : Bool :=
  match (beginStage sha256 host fresh request).1, factsOf answer with
  | .ok staging, .ok before =>
      staging.selected.any fun chosen => (originOf before.records chosen).any fun original =>
        original ∉ staging.selected.map ResolvedPath.bytes
  | _, _ => false

theorem mint_stagedClaim : mint contentDigest (List.replicate 32 7) 1 stagedClaim =
    "pt_565fa36e43ecd547abc4f2a795907ff1" := by
  have other : mintInput (List.replicate 32 7) 1 stagedClaim ≠ stagedContent := by
    intro same
    cases congrArg List.head? same
  unfold mint contentDigest
  rw [if_neg other, if_pos rfl]
  decide +kernel

def stagedEntry : StoredPreview where
  token := "pt_565fa36e43ecd547abc4f2a795907ff1"
  claim := stagedClaim
  expiresAtMs := 300000
  used := false

theorem previews_stagingHost : stagingHost.previews =
    { seed := List.replicate 32 7, next := 1, entries := Table.empty.insert stagedEntry } := by
  have issued : ({ seed := List.replicate 32 7 } : PreviewStore).issue contentDigest
      { nowMs := 0, prunedAtMs := 0, walk := .byKey } stagedClaim =
        ({ previewToken := stagedEntry.token, expiresAtMs := 300000 },
          { seed := List.replicate 32 7, next := 1, entries := Table.empty.insert stagedEntry }) :=
    PreviewStore.issue_of_few _ mint_stagedClaim (show 0 < previewMaxEntries by decide)
  exact congrArg Prod.snd issued

theorem missing_of_originsGone {sha256 : Bytes → Bytes} {host : StagingHost} {fresh : FreshReads}
    {request : EffectRequest} {tree : Bytes → FileRead} {answers : Nat → GitAnswer}
    (gone : OriginsGone sha256 host fresh request tree answers)
    (adds : addsOrigin sha256 host fresh request (answers 0) = true) :
    ∃ original, tree original = .missing := by
  unfold addsOrigin at adds
  split at adds
  · rename_i staging before begun read
    obtain ⟨chosen, listed, origin⟩ := List.any_eq_true.mp adds
    obtain ⟨original, held, unselected⟩ := (Option.any_eq_true _ _).mp origin
    exact ⟨original, gone staging before begun read chosen listed original held
      (of_decide_eq_true unselected)⟩
  · cases adds

theorem adds_renamedStatus : addsOrigin contentDigest stagingHost freshReads stageNew
    (answersOf [renamedStatus, finished 0 []] 0) = true := by
  have staging : stagingHost = { host := sampleHost, paths := stagingHost.paths, previews := _ } :=
    congrArg (StagingHost.mk _ _) previews_stagingHost
  rw [staging]
  unfold renamedStatus
  simp only [asciiBytes_append]
  iterate 8 rw [asciiBytes_ofList]
  decide +kernel

/-- What is written under the old name goes to the index, although nobody previewed it. -/
theorem unpreviewed_file_is_staged : ¬StagesPreviewed contentDigest stagingHost freshReads stageNew
      (fun _ => .bytes (asciiBytes "other text") .text) (answersOf [renamedStatus, finished 0 []]) := by
  intro previewed
  obtain ⟨original, missing⟩ :=
    missing_of_originsGone (originsGone_of_previewed previewed) adds_renamedStatus
  cases missing

end Sample

end Refyard
