import Refyard.AuthSafety
import Refyard.Registration

/-! The HTTP boundary over the service: the gates of a request, and what opening and revoking
a repository do to the sessions. A handler is cut at its awaits, and what its locals hold
there is a value of its own. -/
namespace Refyard.Http
open Registration Auth

inductive HeadKind where
  | born
  | unborn

structure HeadState where
  kind : HeadKind
  branchName : Option String
  oid : Option String
  detached : Bool

inductive RootKey where
  | «local» (path : String)
  | remote (path : String)
  deriving DecidableEq

def RootKey.display : RootKey → String
  | .local path => path
  | .remote path => path

structure RootState where
  next : Nat := 0
  /-- Approved roots, in approval order, with the id each was minted. -/
  roots : List (String × RootKey) := []

def mintedRootId (number : Nat) : String := s!"root_{base36 number}"

/-- `approve_root` and `approve_remote_root`: one id for each key. -/
def RootState.approve (state : RootState) (key : RootKey) : String × RootState :=
  match state.roots.find? fun root => root.2 = key with
  | some root => (root.1, state)
  | none =>
      let id := mintedRootId (state.next + 1)
      (id, { next := state.next + 1, roots := state.roots ++ [(id, key)] })

inductive ExecutionTargetKind where
  | «local»
  | sshConfig
  deriving DecidableEq

structure TargetRecord where
  targetId : String
  kind : ExecutionTargetKind
  label : String
  ready : Bool
  generation : String
  executor : Option ExecutionTargetKind
  unavailable : Option Problem

structure ApplicationService where
  targets : List TargetRecord
  /-- The local target's id. -/
  targetId : String
  registry : RepositoryRegistry := {}
  roots : RootState := {}

structure RepositorySummary where
  repositoryId : String
  allowedRootId : String
  targetId : Option String
  displayName : String
  displayPath : String
  objectFormat : ObjectFormat
  worktreeIds : List String
  primaryWorktreeId : String
  head : HeadState

abbrev Heads := Registration.RepositoryRecord → HeadState

structure AllowedRootSummary where
  allowedRootId : String
  displayPath : String
  repositoryIds : List String

structure RepositoriesResponse where
  repositories : List RepositorySummary
  allowedRoots : List AllowedRootSummary

/-- What one request finds outside the process: clock and random source, the HEAD of each
repository, and what the path it opens turns out to be. -/
structure Surroundings where
  moment : Moment
  heads : Heads

/-- What `rev-parse` answers about a layout, here or on the remote host. -/
inductive LayoutAnswer where
  | opened (layout : RepositoryLayout)
  | failed (exitCode : Option Int) (diagnostic : String)
  | refused (problem : Problem)

/-- What the directory behind a path turns out to be. A path that names nothing has no
canonical form, and what has gone meanwhile has no metadata. -/
structure Opening where
  canonical : Option String
  isDirectory : Option Bool
  layout : LayoutAnswer

structure RegisterBody where
  path : String
  targetId : Option String

def summaryOf (heads : Heads) (record : Registration.RepositoryRecord) : RepositorySummary where
  repositoryId := record.repositoryId
  allowedRootId := record.allowedRootId
  targetId := some record.location.targetId
  displayName := record.displayName
  displayPath := record.displayPath
  objectFormat := objectFormatOf record
  worktreeIds := [record.worktreeId]
  primaryWorktreeId := record.worktreeId
  head := heads record

namespace ApplicationService

/-- `repositories` after its rows were read: a root is listed whether or not a repository
still lives there. -/
def respond (service : ApplicationService) (heads : Heads)
    (records : List Registration.RepositoryRecord) : RepositoriesResponse :=
  let summaries := records.map (summaryOf heads)
  { repositories := summaries
    allowedRoots := service.roots.roots.map fun root =>
      { allowedRootId := root.1
        displayPath := root.2.display
        repositoryIds := (summaries.filter fun summary => summary.allowedRootId = root.1).map
          RepositorySummary.repositoryId } }

def repositories (service : ApplicationService) (heads : Heads) : RepositoriesResponse :=
  service.respond heads service.registry.list

def requireTarget (service : ApplicationService) (targetId : String) :
    Except Problem TargetRecord :=
  match service.targets.find? fun target => target.targetId = targetId with
  | some target => .ok target
  | none =>
      .error (.new .unsupportedOperation
        s!"this session has no execution target {targetId}; it is not a target this service created, and answering from another one would misreport where Git runs")

def notReady (target : TargetRecord) : Problem :=
  let problem := target.unavailable.getD (.new .unavailable s!"target {target.targetId} is not ready")
  { problem with
    message := s!"target {target.targetId} ({target.label}) is not ready: {problem.message}" }

def executor (target : TargetRecord) : Except Problem ExecutionTargetKind :=
  match target.executor with
  | some executor => .ok executor
  | none =>
      .error (.new .unavailable
        s!"target {target.targetId} has no SSH provider on this machine; it was created without one")

structure Approved where
  directory : String
  allowedRootId : String
  targetId : String
  targetGeneration : String

def approvedOn (service : ApplicationService) (target : TargetRecord) (directory : String)
    (key : RootKey) : Approved × ApplicationService :=
  let (allowedRootId, roots) := service.roots.approve key
  ({ directory
     allowedRootId
     targetId := target.targetId
     targetGeneration := target.generation }, { service with roots })

/-- `register_local_repository` up to the query of the layout. -/
def approveLocal (service : ApplicationService) (target : TargetRecord) (path : String)
    (opening : Opening) : Except Problem Approved × ApplicationService :=
  let missing := Problem.new .notFound s!"the path selector directory does not exist: {path}"
  match opening.canonical, opening.isDirectory with
  | none, _ | some _, none => (.error missing, service)
  | some _, some false =>
      (.error (.new .invalidRequest s!"the path selector target is not a directory: {path}"),
        service)
  | some canonical, some true =>
      match executor target with
      | .error problem => (.error problem, service)
      | .ok .sshConfig =>
          (.error (internal
            "a local target holds an SSH executor, which is a construction bug rather than a request failure"),
            service)
      | .ok .local =>
          let (approved, service) := service.approvedOn target canonical (.local canonical)
          (.ok approved, service)

/-- `register_ssh_repository` up to the query of the layout. -/
def approveRemote (service : ApplicationService) (target : TargetRecord) (path : String) :
    Except Problem Approved × ApplicationService :=
  if path.toList.head? ≠ some '/' then
    (.error (.new .invalidRequest
      "a remote repository path must be an absolute POSIX path, because it is resolved on the remote host and not in this process"),
      service)
  else
    match executor target with
    | .error problem => (.error problem, service)
    | .ok .local =>
        (.error (internal
          "an SSH target holds a local executor, which is a construction bug rather than a request failure"),
          service)
    | .ok .sshConfig =>
        let (approved, service) := service.approvedOn target path (.remote path)
        (.ok approved, service)

/-- `register_repository_on` up to the query of the layout. -/
def approve (service : ApplicationService) (body : RegisterBody) (opening : Opening) :
    Except Problem Approved × ApplicationService :=
  match service.requireTarget (body.targetId.getD service.targetId) with
  | .error problem => (.error problem, service)
  | .ok target =>
      if !target.ready then (.error (notReady target), service)
      else
        match target.kind with
        | .local => service.approveLocal target body.path opening
        | .sshConfig => service.approveRemote target body.path

def exitStatus (exitCode : Option Int) : String :=
  match exitCode with
  | some code => toString code
  | none => "?"

def layoutProblem (exitCode : Option Int) (diagnostic : String) : Problem :=
  (Problem.new .gitCommandFailed
    s!"rev-parse layout exited with status {exitStatus exitCode}").withDetail
      "diagnostic" (.text diagnostic)

def Approved.request (approved : Approved) (layout : RepositoryLayout) : OpenRequest where
  layout := layout
  directory := approved.directory
  allowedRootId := approved.allowedRootId
  rootPath := approved.directory
  relativePath := ""
  targetId := approved.targetId
  targetGeneration := approved.targetGeneration

/-- Draws an id, builds the record and registers it, in one part between two awaits. The
answer is the record as it is filed. -/
def openAndRegister (registry : RepositoryRegistry) (request : OpenRequest) :
    Registration.RepositoryRecord × RepositoryRegistry :=
  let (repositoryId, registry) := registry.nextId
  registry.register (buildRecord request repositoryId)

/-- The part of `register_repository_on` behind the layout, up to the reading of the HEADs:
the record this request opened, and the records it will answer with. -/
def file (service : ApplicationService) (approved : Approved) (answer : LayoutAnswer) :
    Except Problem (Registration.RepositoryRecord × List Registration.RepositoryRecord) ×
      ApplicationService :=
  match answer with
  | .refused problem => (.error problem, service)
  | .failed exitCode diagnostic => (.error (layoutProblem exitCode diagnostic), service)
  | .opened layout =>
      let (own, registry) := openAndRegister service.registry (approved.request layout)
      (.ok (own, registry.list), { service with registry })

def revokeRepository (service : ApplicationService) (heads : Heads)
    (repositoryId : String) : Except Problem RepositoriesResponse × ApplicationService :=
  match service.registry.revoke repositoryId with
  | (false, _) => (.error (.new .notFound s!"unknown repository {repositoryId}"), service)
  | (true, registry) =>
      let service := { service with registry }
      (.ok (service.repositories heads), service)

end ApplicationService

/-- Everything a handler needs. The grants are those of every ticket this host mints. -/
structure HttpState where
  service : ApplicationService
  auth : AuthRun
  serviceInstanceId : String
  allowedOrigins : List String
  grants : Grants

namespace Scope

def read : String := "repository:read"
def write : String := "repository:write"
def workspace : String := "workspace:manage"
def network : String := "repository:network"

end Scope

def allowsScope (session : Session) (scope : String) : Bool :=
  session.grants.scopes.contains scope ||
    ((stripPrefix "repository:".toList scope.toList).isSome &&
      session.grants.scopes.contains "repository:*")

def requireScope (session : Session) (scope : String) : Except Problem Unit :=
  if allowsScope session scope then .ok ()
  else
    .error ((Problem.new .forbidden
      "this session does not carry the authority this request needs").withDetail
        "requiredScope" (.text scope))

namespace HttpState

/-- Resolves the `Authorization` header to a session, or refuses. -/
def authorize (state : HttpState) (moment : Moment) (authorization : Option String) :
    Except Problem Session :=
  state.auth.store.authorize moment authorization state.serviceInstanceId

/-- The approved root a repository lives in, from the service's own repository list. -/
def repositoryRootOf (state : HttpState) (heads : Heads)
    (repositoryId : String) : Option String :=
  ((state.service.repositories heads).repositories.find? fun record =>
    record.repositoryId = repositoryId).map RepositorySummary.allowedRootId

/-- A request may only touch a repository its session was granted, directly or through
its root. -/
def requireRepositoryGrant (state : HttpState) (heads : Heads)
    (session : Session) (repositoryId : String) : Except Problem Unit :=
  if AuthStore.allowsRepository session repositoryId then .ok ()
  else if (state.repositoryRootOf heads repositoryId).any fun root =>
      session.grants.allowedRootIds.contains root then .ok ()
  else
    .error ((Problem.new .forbidden "this session was not granted that repository").withDetail
      "repositoryId" (.text repositoryId))

structure Listed where
  sessionId : String
  body : RegisterBody
  before : List String

structure Filed where
  sessionId : String
  path : String
  before : List String
  own : Registration.RepositoryRecord
  records : List Registration.RepositoryRecord

/-- `register_repository` up to its first await. -/
def beginRegister (state : HttpState) (surroundings : Surroundings) (authorization : Option String)
    (body : Except Problem RegisterBody) : Except Problem Listed := do
  let session ← state.authorize surroundings.moment authorization
  requireScope session Scope.workspace
  let body ← body
  pure {
    sessionId := session.sessionId
    body
    before := (state.service.repositories surroundings.heads).repositories.map
      RepositorySummary.repositoryId }

def Listed.filed (listed : Listed) (own : Registration.RepositoryRecord)
    (records : List Registration.RepositoryRecord) : Filed where
  sessionId := listed.sessionId
  path := listed.body.path
  before := listed.before
  own := own
  records := records

def opens (before : List String) (path : String) (record : RepositorySummary) : Bool :=
  !before.contains record.repositoryId || record.displayPath = path

/-- The last part of `register_repository`: its answer, and the grants it makes. -/
def answerRegister (state : HttpState) (heads : Heads) (filed : Filed) :
    RepositoriesResponse × List AuthCall :=
  let answer := state.service.respond heads filed.records
  (answer, (answer.repositories.filter (opens filed.before filed.path)).map fun record =>
    .grant filed.sessionId record.allowedRootId record.repositoryId)

/-- `register_repository` while no other request comes in between. -/
def registerRepository (state : HttpState) (surroundings : Surroundings)
    (authorization : Option String) (body : Except Problem RegisterBody) (opening : Opening) :
    Except Problem RepositoriesResponse × List AuthCall × ApplicationService :=
  match state.beginRegister surroundings authorization body with
  | .error problem => (.error problem, [], state.service)
  | .ok listed =>
      match state.service.approve listed.body opening with
      | (.error problem, service) => (.error problem, [], service)
      | (.ok approved, service) =>
          match service.file approved opening.layout with
          | (.error problem, service) => (.error problem, [], service)
          | (.ok (own, records), service) =>
              let (answer, grants) := { state with service }.answerRegister surroundings.heads
                (listed.filed own records)
              (.ok answer, grants, service)

/-- `revoke_repository`. A root leaves the sessions only when the answer does not list it. -/
def revokeRepository (state : HttpState) (surroundings : Surroundings)
    (authorization : Option String) (body : Except Problem String) :
    Except Problem RepositoriesResponse × List AuthCall × ApplicationService :=
  let opened : Except Problem String := do
    let session ← state.authorize surroundings.moment authorization
    requireScope session Scope.workspace
    body
  match opened with
  | .error problem => (.error problem, [], state.service)
  | .ok repositoryId =>
      match state.service.revokeRepository surroundings.heads repositoryId with
      | (.error problem, service) => (.error problem, [], service)
      | (.ok answer, service) =>
          match state.repositoryRootOf surroundings.heads repositoryId with
          | none => (.ok answer, [], service)
          | some root =>
              let rootHasRepositories := answer.allowedRoots.any fun allowed =>
                allowed.allowedRootId = root
              (.ok answer, [.revokeRepository repositoryId root rootHasRepositories], service)

end HttpState
end Refyard.Http
