import NasOs.Shares.Requests
import NasOs.Storage.Planning
import NasOs.Web.Sessions

/-!
# Requests to the web process

The way of a request from its arrival to what its endpoint awaits: the guard against forged requests
comes first, then the dependencies of the route, which look the session up and may ask for its role,
and then the endpoint.  A login asks the agent, which asks PAM, and adds a session.

Requests are coroutines over one world, so that each may wait for another between any two operations.
What the agent and the tables answer to the operations of an endpoint is left open here.
-/

/-! ### Logging in -/

/-- An entry of the password database. -/
structure Passwd where
  name : String
  uid : ℤ
  gid : ℤ

/-- An entry of the group database. -/
structure GroupEntry where
  name : String
  gid : ℤ
  members : List String

/-- The accounts of the system, and the passwords that PAM accepts for them. -/
structure PosixDatabase where
  accepts : String → String → Bool
  passwd : List Passwd
  groups : List GroupEntry

namespace PosixDatabase

/-- `pwd.getpwnam`. -/
def getpwnam (db : PosixDatabase) (name : String) : Option Passwd :=
  db.passwd.find? fun entry => entry.name = name

/-- `grp.getgrgid`. -/
def getgrgid (db : PosixDatabase) (gid : ℤ) : Option GroupEntry :=
  db.groups.find? fun entry => entry.gid = gid

/-- The names of the groups of an account: those that list it, and its primary group. -/
def groupNames (db : PosixDatabase) (account : Passwd) : List String :=
  ((db.groups.filter fun entry => entry.members.contains account.name).map GroupEntry.name)
    ++ ((db.getgrgid account.gid).map GroupEntry.name).toList

end PosixDatabase

/-- `PamAuthenticator._authenticate_sync`. -/
def PamAuthenticator.authenticateSync (db : PosixDatabase) (username password : String) :
    Option AuthLoginResult :=
  if db.accepts username password then
    match db.getpwnam username with
    | none => none
    | some account =>
        if "nasos-admin" ∈ db.groupNames account then some ⟨account.uid, username, "admin"⟩
        else if "nasos-users" ∈ db.groupNames account then some ⟨account.uid, username, "user"⟩
        else none
  else none

/-! ### What requests await -/

/-- A row of the audit log about a login; a failed one has no role. -/
structure LoginAudit where
  username : String
  role : Option String
  ip : Option String
  statusCode : ℕ
  detail : Option String

/-- What every session may read: the routes whose endpoints only show something. -/
inductive ReadRoute where
  | users
  | groups
  | shares
  | permissions (shareId : ℤ)
  | volumes
  | roots
  | systemInfo

/-- The operations that requests await. -/
inductive WebOp where
  /-- The agent authenticates a user. -/
  | authenticate (username password : String)
  /-- `create_session`. -/
  | createSession (identity : AuthLoginResult) (ip userAgent : Option String)
  /-- `resolve_session`. -/
  | resolveSession (token : String)
  /-- `destroy_session`. -/
  | destroySession (token : String)
  /-- Record a login in the audit log. -/
  | auditLogin (entry : LoginAudit)
  /-- The agent has a file worker run for an account. -/
  | ensureWorker (uid : ℤ) (username : String)
  /-- An operation of a request about accounts, groups or shares. -/
  | shares (op : SharesOp)
  /-- Read what a route shows, from the tables or the agent. -/
  | read (route : ReadRoute)
  /-- Call `storage.inventory`. -/
  | inventory
  /-- Draw the identifier of a plan, and read the monotonic clock. -/
  | drawPlan
  /-- `_store.add`. -/
  | addPlan (plan : Plan)
  /-- An operation of a request to execute a plan. -/
  | plan (op : PlanOp)
  /-- Call `volumes.register`. -/
  | registerVolume (mountpoint : String)
  /-- Add a row to the `volumes` table. -/
  | addVolume (volume : Volume)

/-- The answers to the operations. -/
abbrev WebOp.Answer : WebOp → Type
  | .authenticate _ _ => Except Exc (Option AuthLoginResult)
  | .createSession _ _ _ => Except Exc String
  | .resolveSession _ => Option DbSession
  | .destroySession _ => Unit
  | .auditLogin _ => Except Exc Unit
  | .ensureWorker _ _ => Except Exc String
  | .shares op => op.Answer
  | .read _ => Except Exc Unit
  | .inventory => Except Exc StorageInventoryResult
  | .drawPlan => String × ℕ
  | .addPlan _ => Unit
  | .plan op => op.Answer
  | .registerVolume _ => Except Exc (String × String)
  | .addVolume _ => Except Exc Unit

/-- A computation of the web process. -/
abbrev WebM (α : Type) : Type :=
  Async WebOp WebOp.Answer α

namespace WebM

/-- A request about accounts, groups or shares. -/
def ofShares {α : Type} (c : SharesM α) : WebM α :=
  ExceptT.mk (c.run.interpret fun op => Coroutine.perform (WebOp.shares op))

/-- A request to execute a plan. -/
def ofPlan {α : Type} (c : PlanM α) : WebM α :=
  ExceptT.mk (c.run.interpret fun op => Coroutine.perform (WebOp.plan op))

end WebM

/-! ### Dependencies -/

/-- `get_current_session`, with the cookie of the request. -/
def getCurrentSession (cookie : Option String) : WebM DbSession :=
  match cookie with
  | none => throw (.httpException 401 "not authenticated")
  | some token =>
      if token = "" then throw (.httpException 401 "not authenticated")
      else do
        match ← Async.ask (WebOp.resolveSession token) with
        | none => throw (.httpException 401 "session expired")
        | some session => pure session

/-- `FileWorkerEnsureParams`. -/
structure FileWorkerEnsureParams where
  uid : ℤ
  username : String

/-- `agent.fileworker.ensure`. -/
def FileWorkerHandlers.ensure (params : FileWorkerEnsureParams) : WebM String :=
  ExceptT.mk (Coroutine.perform (WebOp.ensureWorker params.uid params.username))

/-- `get_file_worker_client`, less the closing of the client: the path of the socket of the file worker
of the account that the session belongs to. -/
def getFileWorkerClient (session : DbSession) : WebM String :=
  AgentClient.call (fun params => usernameError params.username) FileWorkerHandlers.ensure
    ⟨session.uid, session.username⟩

/-- What the API reads of a row of the `sessions` table. -/
def DbSession.forApi (session : DbSession) : Session :=
  ⟨session.uid, session.username, session.role⟩

/-! ### Endpoints -/

/-- `AuthLoginParams`. -/
structure AuthLoginParams where
  username : String
  password : String

/-- `auth.login`. -/
def AuthHandlers.login (params : AuthLoginParams) : WebM AuthLoginResult := do
  match ← ExceptT.mk (Coroutine.perform (WebOp.authenticate params.username params.password)) with
  | none => throw (.rpcException "invalid_credentials" "invalid username or password")
  | some identity => pure identity

namespace AuthApi

/-- `audit.record`, of a login. -/
def record (entry : LoginAudit) : WebM Unit :=
  ExceptT.mk (Coroutine.perform (WebOp.auditLogin entry))

/-- `POST /auth/login`: the token that becomes the cookie, and the identity. -/
def login (ip userAgent : Option String) (body : AuthLoginParams) :
    WebM (String × AuthLoginResult) := do
  let identity ← tryCatch
    (AgentClient.call (fun params => usernameError params.username) AuthHandlers.login body)
    fun
      | .rpcCallError code _ => do
          record ⟨body.username, none, ip, 401, some code⟩
          throw (.httpException 401 "invalid username or password")
      | e => throw e
  let token ← ExceptT.mk (Coroutine.perform (WebOp.createSession identity ip userAgent))
  record ⟨identity.username, some identity.role, ip, 200, none⟩
  pure (token, identity)

/-- `POST /auth/logout`. -/
def logout (cookie : Option String) : WebM Unit :=
  match cookie with
  | none => pure ()
  | some token => if token = "" then pure () else Async.ask (WebOp.destroySession token)

end AuthApi

/-- `POST /volumes`. -/
def VolumesApi.registerVolume (session : Session) (name mountpoint : String) : WebM Volume := do
  Async.raiseIf (session.role ≠ "admin") (.httpException 403 "admin role required")
  let info ← tryCatch (ExceptT.mk (Coroutine.perform (WebOp.registerVolume mountpoint)))
    fun
      | .rpcCallError _ message => throw (.httpException 400 message)
      | e => throw e
  let volume : Volume :=
    { name := name
      mountpoint := info.1
      filesystem := info.2
      managed := false
      device := none
      uuid := none
      raidLevel := none
      arrayName := .null
      diskSerials := .null }
  ExceptT.mk (Coroutine.perform (WebOp.addVolume volume))
  pure volume

/-- The settings that endpoints use. -/
structure WebSettings where
  shares : SharesSettings
  storage : Settings
  volumesRoot : String
  hmac : String → String

namespace StorageApi

/-- Answer an error of the service with the status 400. -/
def answer400 {α : Type} : Except Exc α → WebM α
  | .ok a => pure a
  | .error (.serviceError _ message) => throw (.httpException 400 message)
  | .error e => throw e

/-- `POST /storage/plans`, less its audit rows. -/
def createPlan (settings : WebSettings) (session : Session) (request : CreatePlanRequest) :
    WebM CreatedPlan := do
  Async.raiseIf (session.role ≠ "admin") (.httpException 403 "admin role required")
  answer400 (StorageService.checkCounts request)
  let answer ← Async.ask WebOp.inventory
  let (id, now) ← Async.ask WebOp.drawPlan
  let created ← answer400
    (StorageService.createPlan settings.storage settings.volumesRoot request answer id now)
  Async.ask (WebOp.addPlan created.plan)
  pure created

/-- `POST /storage/plans/{plan_id}/execute`, less its audit rows. -/
def executePlanAs (hmac : String → String) (session : Session) (request : ExecutePlanRequest) :
    WebM String := do
  Async.raiseIf (session.role ≠ "admin") (.httpException 403 "admin role required")
  WebM.ofPlan (executePlan hmac request)

end StorageApi

/-! ### Routes -/

/-- The routes that depend on a client of the file worker. -/
inductive FilesRoute where
  | listJobs
  | listDir
  | search
  | mkdir
  | rename
  | delete
  | copy
  | move
  | zipPaths
  | properties
  | getAcl
  | setAcl
  | content
  | createUpload
  | headUpload (uploadId : String)
  | patchUpload (uploadId : String)
  | deleteUpload (uploadId : String)

namespace FilesRoute

/-- The method of a route. -/
def method : FilesRoute → String
  | .listJobs | .listDir | .search | .properties | .getAcl | .content => "GET"
  | .mkdir | .rename | .delete | .copy | .move | .zipPaths | .createUpload => "POST"
  | .setAcl => "PUT"
  | .headUpload _ => "HEAD"
  | .patchUpload _ => "PATCH"
  | .deleteUpload _ => "DELETE"

/-- The path of a route, after the prefix of all. -/
def route : FilesRoute → String
  | .listJobs => "/files/jobs"
  | .listDir => "/files/list"
  | .search => "/files/search"
  | .mkdir => "/files/mkdir"
  | .rename => "/files/rename"
  | .delete => "/files/delete"
  | .copy => "/files/copy"
  | .move => "/files/move"
  | .zipPaths => "/files/zip"
  | .properties => "/files/properties"
  | .getAcl => "/files/acl"
  | .setAcl => "/files/acl"
  | .content => "/files/content"
  | .createUpload => "/uploads"
  | .headUpload uploadId => "/uploads/" ++ uploadId
  | .patchUpload uploadId => "/uploads/" ++ uploadId
  | .deleteUpload uploadId => "/uploads/" ++ uploadId

end FilesRoute

/-- The endpoints that a session is needed for, with what their requests carry. -/
inductive SessionCall where
  | me
  | read (route : ReadRoute)
  | getInventory
  | files (route : FilesRoute)
  | createUser (body : UserCreateRequest)
  | importUser (username description : String)
  | updateUser (uid : ℤ) (body : UserUpdateRequest)
  | setPassword (uid : ℤ) (password : String)
  | deleteUser (uid : ℤ) (deleteHome : Bool)
  | createGroup (name description : String)
  | deleteGroup (gid : ℤ)
  | addMember (gid : ℤ) (username : String)
  | removeMember (gid : ℤ) (username : String)
  | createShare (body : ShareCreateRequest)
  | deleteShare (shareId : ℤ) (deleteFiles : Bool)
  | setPermissions (shareId : ℤ) (body : SetPermissionsRequest)
  | registerVolume (name mountpoint : String)
  | createPlan (request : CreatePlanRequest)
  | executePlan (request : ExecutePlanRequest)

/-- The path of a route that only shows something, after the prefix of all. -/
def ReadRoute.route : ReadRoute → String
  | .users => "/users"
  | .groups => "/groups"
  | .shares => "/shares"
  | .permissions shareId => "/shares/" ++ toString shareId ++ "/permissions"
  | .volumes => "/volumes"
  | .roots => "/files/roots"
  | .systemInfo => "/system/info"

namespace SessionCall

/-- The method of an endpoint. -/
def method : SessionCall → String
  | .me | .read _ | .getInventory => "GET"
  | .files route => route.method
  | .createUser _ | .importUser _ _ | .setPassword _ _ | .createGroup _ _ | .addMember _ _
  | .createShare _ | .registerVolume _ _ | .createPlan _ | .executePlan _ => "POST"
  | .updateUser _ _ => "PATCH"
  | .setPermissions _ _ => "PUT"
  | .deleteUser _ _ | .deleteGroup _ | .removeMember _ _ | .deleteShare _ _ => "DELETE"

/-- The path of an endpoint, after the prefix of all. -/
def route : SessionCall → String
  | .me => "/auth/me"
  | .read route => route.route
  | .getInventory => "/storage/inventory"
  | .files route => route.route
  | .createUser _ => "/users"
  | .importUser _ _ => "/users/import"
  | .updateUser uid _ => "/users/" ++ toString uid
  | .setPassword uid _ => "/users/" ++ toString uid ++ "/password"
  | .deleteUser uid _ => "/users/" ++ toString uid
  | .createGroup _ _ => "/groups"
  | .deleteGroup gid => "/groups/" ++ toString gid
  | .addMember gid _ => "/groups/" ++ toString gid ++ "/members"
  | .removeMember gid username => "/groups/" ++ toString gid ++ "/members/" ++ username
  | .createShare _ => "/shares"
  | .deleteShare shareId _ => "/shares/" ++ toString shareId
  | .setPermissions shareId _ => "/shares/" ++ toString shareId ++ "/permissions"
  | .registerVolume _ _ => "/volumes"
  | .createPlan _ => "/storage/plans"
  | .executePlan request => "/storage/plans/" ++ request.planId ++ "/execute"

/-- What an endpoint does with the session of the request. -/
def program (settings : WebSettings) (ip : Option String) (session : DbSession) :
    SessionCall → WebM Unit
  | .me => pure ()
  | .read route => ExceptT.mk (Coroutine.perform (WebOp.read route))
  | .getInventory => do
      let _ ← Async.ask WebOp.inventory
  | .files _ => do
      let _ ← getFileWorkerClient session
  | .createUser body => do
      let _ ← WebM.ofShares (SharesM.ofUsers (UsersApi.createUser session.forApi ip body))
  | .importUser username description => do
      let _ ← WebM.ofShares
        (SharesM.ofUsers (UsersApi.importUser session.forApi username description))
  | .updateUser uid body => do
      let _ ← WebM.ofShares (SharesM.ofUsers (UsersApi.updateUser session.forApi uid body))
  | .setPassword uid password => do
      let _ ← WebM.ofShares (SharesM.ofUsers (UsersApi.setPassword session.forApi uid password))
  | .deleteUser uid deleteHome =>
      WebM.ofShares (SharesM.ofUsers (UsersApi.deleteUser session.forApi uid deleteHome))
  | .createGroup name description => do
      let _ ← WebM.ofShares (GroupsApi.createGroup session.forApi name description)
  | .deleteGroup gid => WebM.ofShares (GroupsApi.deleteGroup session.forApi gid)
  | .addMember gid username => WebM.ofShares (GroupsApi.addMember session.forApi gid username)
  | .removeMember gid username =>
      WebM.ofShares (GroupsApi.removeMember session.forApi gid username)
  | .createShare body => do
      let _ ← WebM.ofShares (SharesApi.createShare settings.shares session.forApi body)
  | .deleteShare shareId deleteFiles =>
      WebM.ofShares (SharesApi.deleteShare settings.shares session.forApi shareId deleteFiles)
  | .setPermissions shareId body => do
      let _ ← WebM.ofShares (SharesApi.setPermissions settings.shares session.forApi shareId body)
  | .registerVolume name mountpoint => do
      let _ ← VolumesApi.registerVolume session.forApi name mountpoint
  | .createPlan request => do
      let _ ← StorageApi.createPlan settings session.forApi request
  | .executePlan request => do
      let _ ← StorageApi.executePlanAs settings.hmac session.forApi request

end SessionCall

/-- The endpoints. -/
inductive WebCall where
  | login (body : AuthLoginParams)
  | logout
  | session (call : SessionCall)

namespace WebCall

/-- The method of an endpoint. -/
def method : WebCall → String
  | .login _ => "POST"
  | .logout => "POST"
  | .session call => call.method

/-- The path of an endpoint. -/
def path : WebCall → String
  | .login _ => "/api/v1" ++ "/auth/login"
  | .logout => "/api/v1" ++ "/auth/logout"
  | .session call => "/api/v1" ++ call.route

end WebCall

/-- `_UNPROTECTED_METHODS`. -/
def unprotectedMethods : List String :=
  ["GET", "HEAD", "OPTIONS"]

/-- The condition of `csrf_guard`, with the value of the header `x-nasos-request`. -/
def csrfGuard (method path : String) (header : Option String) : Bool :=
  !unprotectedMethods.contains method && "/api/".toList.isPrefixOf path.toList && header != some "1"

/-- A request, with its cookie, its header, and where it comes from. -/
structure WebRequest where
  call : WebCall
  cookie : Option String
  csrfHeader : Option String
  ip : Option String
  userAgent : Option String

namespace WebRequest

/-- What is done with a request that the guard lets through. -/
def endpoint (settings : WebSettings) (r : WebRequest) : WebM Unit :=
  match r.call with
  | .login body => do
      let _ ← AuthApi.login r.ip r.userAgent body
  | .logout => AuthApi.logout r.cookie
  | .session call => do
      let session ← getCurrentSession r.cookie
      call.program settings r.ip session

/-- What is done with a request. -/
def program (settings : WebSettings) (r : WebRequest) : WebM Unit := do
  Async.raiseIf (csrfGuard r.call.method r.call.path r.csrfHeader)
    (.httpException 403 "missing X-NASOS-Request header")
  r.endpoint settings

end WebRequest

/-! ### The world of the requests -/

/-- The accounts of the system, and the sessions with the clock. -/
structure WebWorld where
  posix : PosixDatabase
  sessions : SessionWorld

/-- What is left open by a step: whether the operation fails, the token that is drawn, and what the agent
and the tables answer. -/
structure WebChoice where
  fails : Option Exc
  token : String
  socketPath : String
  shares : (op : SharesOp) → op.Answer
  inventory : Except Exc StorageInventoryResult
  planId : String
  monotonic : ℕ
  plan : (op : PlanOp) → op.Answer
  volume : Except Exc (String × String)

/-- What happens beside the requests: time passes, or the accounts of the system are changed, in any
way. -/
inductive WebEvent where
  | tick (duration : ℕ)
  | accounts (posix : PosixDatabase)

/-- An operation that fails by its choice changes nothing. -/
def WebChoice.orElse {α : Type} (choice : WebChoice) (a : α) : Except Exc α :=
  match choice.fails with
  | none => .ok a
  | some e => .error e

namespace WebWorld

variable (hash : String → String) (idleTimeoutMinutes : ℤ)

/-- How an operation is answered. -/
def perform (w : WebWorld) : (op : WebOp) → WebChoice → op.Answer × WebWorld
  | .authenticate username password, choice =>
      (choice.orElse (PamAuthenticator.authenticateSync w.posix username password), w)
  | .createSession identity ip userAgent, choice =>
      let (a, sessions) := w.sessions.createSession hash identity ip userAgent choice.token
      (a, { w with sessions })
  | .resolveSession token, _ =>
      let (a, sessions) := w.sessions.resolveSession hash token (idleTimeoutMinutes * 60 * 1000000)
      (a, { w with sessions })
  | .destroySession token, _ => ((), { w with sessions := w.sessions.destroySession hash token })
  | .auditLogin _, choice => (choice.orElse (), w)
  | .ensureWorker _ _, choice => (choice.orElse choice.socketPath, w)
  | .shares op, choice => (choice.shares op, w)
  | .read _, choice => (choice.orElse (), w)
  | .inventory, choice => (choice.inventory, w)
  | .drawPlan, choice => ((choice.planId, choice.monotonic), w)
  | .addPlan _, _ => ((), w)
  | .plan op, choice => (choice.plan op, w)
  | .registerVolume _, choice => (choice.volume, w)
  | .addVolume _, choice => (choice.orElse (), w)

/-- What happens beside the requests. -/
def happen (w : WebWorld) : WebEvent → WebWorld
  | .tick duration => { w with sessions := { w.sessions with now := w.sessions.now + duration } }
  | .accounts posix => { w with posix }

end WebWorld

/-- The effects of requests. -/
def webEffects (hash : String → String) (idleTimeoutMinutes : ℤ) :
    Effects WebOp WebOp.Answer WebWorld WebChoice WebEvent :=
  ⟨fun w op choice => some (w.perform hash idleTimeoutMinutes op choice), fun w e => some (w.happen e)⟩

/-- A pool of requests. -/
abbrev WebPool : Type :=
  Pool WebOp WebOp.Answer WebWorld (Except Exc Unit)

/-- The pool of unstarted requests. -/
def webPool (settings : WebSettings) (requests : List WebRequest) (w : WebWorld) : WebPool :=
  Pool.start w (requests.map fun r => (r.program settings).run)
