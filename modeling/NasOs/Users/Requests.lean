import NasOs.System.Users

/-!
# Requests about users

The way of a request about users, from the REST API of the web process over its service
layer and the agent's handlers to the adapter.  Nothing on the way looks at a password: the
schemas take any string for it, and constrain only the username.
-/

/-- `USERNAME_RE`: a lower case letter or an underscore, then at most 31 lower case letters,
digits, underscores and hyphens. -/
def usernameRe : List Char → Bool
  | [] => false
  | c :: l =>
      (c.isLower || c == '_') && decide (l.length ≤ 31)
        && l.all fun c => c.isLower || c.isDigit || c == '_' || c == '-'

/-- The error of a schema whose only constrained field is a username. -/
def usernameError (username : String) : Option String :=
  if usernameRe username.toList then none
  else some "username: String should match pattern '^[a-z_][a-z0-9_-]\x7b0,31\x7d$'"

/-! ### The agent's handlers -/

/-- `UserCreateParams`. -/
structure UserCreateParams where
  username : String
  password : String
  description : String

/-- `UserInfo`. -/
structure UserInfo where
  uid : ℤ
  username : String

/-- `UserSetSmbEnabledParams`. -/
structure UserSetSmbEnabledParams where
  username : String
  enabled : Bool

/-- `UserDeleteParams`. -/
structure UserDeleteParams where
  username : String
  deleteHome : Bool

/-- `UserSetPasswordParams`. -/
structure UserSetPasswordParams where
  username : String
  password : String

/-- `UserImportParams`. -/
structure UserImportParams where
  username : String

/-- Raise the error of an adapter as an `RpcException` with the given code. -/
def raiseAs (code : String) {α : Type} : Exc → UsersM α
  | .adapterError message => throw (.rpcException code message)
  | e => throw e

namespace UsersHandlers

/-- `users.create`. -/
def create (params : UserCreateParams) : UsersM UserInfo := do
  let homeDir := "/home/" ++ params.username
  let uid ← tryCatch
    (do
      let uid ← RealPosixUsers.create params.username homeDir params.description
      RealPosixUsers.setUnixPassword params.username params.password
      RealPosixUsers.smbCreate params.username params.password
      pure uid)
    (raiseAs "system_error")
  pure ⟨uid, params.username⟩

/-- `users.set_smb_enabled`. -/
def setSmbEnabled (params : UserSetSmbEnabledParams) : UsersM Unit :=
  tryCatch (RealPosixUsers.smbSetEnabled params.username params.enabled) (raiseAs "system_error")

/-- `users.delete`: an account that never had a Samba password is deleted all the same. -/
def delete (params : UserDeleteParams) : UsersM Unit := do
  tryCatch (RealPosixUsers.smbDelete params.username)
    fun
      | .adapterError _ => pure ()
      | e => throw e
  tryCatch (RealPosixUsers.delete params.username params.deleteHome) (raiseAs "system_error")

/-- `users.set_password`: the Unix password first, then Samba's. -/
def setPassword (params : UserSetPasswordParams) : UsersM Unit := do
  tryCatch (RealPosixUsers.setUnixPassword params.username params.password)
    (raiseAs "system_error")
  tryCatch (RealPosixUsers.smbSetPassword params.username params.password)
    (raiseAs "smb_password_sync_failed")

/-- `users.import_existing`. -/
def importExisting (params : UserImportParams) : UsersM UserInfo := do
  match ← RealPosixUsers.lookup params.username with
  | none => throw (.rpcException "not_found" ("no such POSIX account: " ++ params.username))
  | some uid =>
      tryCatch (RealPosixUsers.addToGroup params.username "nasos-users") (raiseAs "system_error")
      pure ⟨uid, params.username⟩

end UsersHandlers

/-- `GroupCreateParams`, less the description, which nothing reads. -/
structure GroupCreateParams where
  name : String

/-- `GroupInfo`. -/
structure GroupInfo where
  gid : ℤ
  name : String

/-- `GroupDeleteParams`. -/
structure GroupDeleteParams where
  name : String

/-- The error of a schema whose only constrained field is the name of a group. -/
def groupNameError (name : String) : Option String :=
  if usernameRe name.toList then none
  else some "name: String should match pattern '^[a-z_][a-z0-9_-]\x7b0,31\x7d$'"

/-- `GroupMembershipParams`. -/
structure GroupMembershipParams where
  name : String
  username : String

/-- The error of the schema of a membership. -/
def membershipError (params : GroupMembershipParams) : Option String :=
  (groupNameError params.name).or (usernameError params.username)

namespace GroupsHandlers

/-- `groups.create`. -/
def create (params : GroupCreateParams) : UsersM GroupInfo := do
  let gid ← tryCatch (RealPosixUsers.groupCreate params.name) (raiseAs "system_error")
  pure ⟨gid, params.name⟩

/-- `groups.delete`. -/
def delete (params : GroupDeleteParams) : UsersM Unit :=
  tryCatch (RealPosixUsers.groupDelete params.name) (raiseAs "system_error")

/-- `groups.add_member`. -/
def addMember (params : GroupMembershipParams) : UsersM Unit :=
  tryCatch (RealPosixUsers.addToGroup params.username params.name) (raiseAs "system_error")

/-- `groups.remove_member`. -/
def removeMember (params : GroupMembershipParams) : UsersM Unit :=
  tryCatch (RealPosixUsers.removeFromGroup params.username params.name) (raiseAs "system_error")

end GroupsHandlers

/-! ### The service layer of the web process -/

/-- Raise a failed call as a `UserServiceError`. -/
def userServiceError {α : Type} : Exc → UsersM α
  | .rpcCallError code message => throw (.serviceError code message)
  | e => throw e

namespace UsersService

/-- `get_user`. -/
def getUser (uid : ℤ) : UsersM (Option User) :=
  ExceptT.mk (Coroutine.perform (UsersOp.getUser uid))

/-- Add a row and commit. -/
def addUser (user : User) : UsersM Unit :=
  ExceptT.mk (Coroutine.perform (UsersOp.addUser user))

/-- Commit a changed row. -/
def updateUser (user : User) (notification : Option Notification) : UsersM Unit :=
  ExceptT.mk (Coroutine.perform (UsersOp.updateUser user notification))

/-- `create_user`. -/
def createUser (username password description : String) : UsersM User := do
  let info ← tryCatch
    (AgentClient.call (fun p => usernameError p.username) UsersHandlers.create
      ⟨username, password, description⟩)
    userServiceError
  let user : User :=
    { uid := info.uid
      username := info.username
      description := some description
      smbEnabled := true
      ftpEnabled := false
      createdByNasos := true
      smbPasswordSynced := true }
  addUser user
  pure user

/-- `import_user`. -/
def importUser (username description : String) : UsersM User := do
  let info ← tryCatch
    (AgentClient.call (fun p => usernameError p.username) UsersHandlers.importExisting ⟨username⟩)
    userServiceError
  let user : User :=
    { uid := info.uid
      username := info.username
      description := some description
      smbEnabled := false
      ftpEnabled := false
      createdByNasos := false
      smbPasswordSynced := false }
  addUser user
  pure user

/-- `set_smb_enabled`. -/
def setSmbEnabled (user : User) (enabled : Bool) : UsersM User := do
  tryCatch
    (AgentClient.call (fun p => usernameError p.username) UsersHandlers.setSmbEnabled
      ⟨user.username, enabled⟩)
    userServiceError
  let user := { user with smbEnabled := enabled }
  updateUser user none
  pure user

/-- The notification of a Samba password that was not changed with the Unix password. -/
def outOfSync (user : User) (message : String) : Notification :=
  { level := "warning"
    title := "Samba password out of sync"
    message := user.username ++ "'s SMB password wasn't updated: " ++ message
    source := "users" }

/-- `set_password`: a Samba password out of sync is noted, and is not a failure. -/
def setPassword (user : User) (password : String) : UsersM User := do
  let (user, notification) ← tryCatch
    (do
      AgentClient.call (fun p => usernameError p.username) UsersHandlers.setPassword
        ⟨user.username, password⟩
      pure ({ user with smbPasswordSynced := true }, none))
    fun
      | .rpcCallError code message =>
          if code ≠ "smb_password_sync_failed" then throw (.serviceError code message)
          else pure ({ user with smbPasswordSynced := false }, some (outOfSync user message))
      | e => throw e
  updateUser user notification
  pure user

/-- `delete_user`. -/
def deleteUser (user : User) (deleteHome : Bool) : UsersM Unit := do
  tryCatch
    (AgentClient.call (fun p => usernameError p.username) UsersHandlers.delete
      ⟨user.username, deleteHome⟩)
    userServiceError
  ExceptT.mk (Coroutine.perform (UsersOp.deleteUser user))

/-- `update_description`. -/
def updateDescription (user : User) (description : String) : UsersM User := do
  let user := { user with description := some description }
  updateUser user none
  pure user

end UsersService

/-! ### The REST API -/

/-- What the API reads of a session. -/
structure Session where
  uid : ℤ
  username : String
  role : String

/-- `UserOut`. -/
structure UserOut where
  uid : ℤ
  username : String
  description : String
  smbEnabled : Bool
  ftpEnabled : Bool
  createdByNasos : Bool
  smbPasswordSynced : Bool
  deriving DecidableEq

/-- `UserOut.from_model`. -/
def UserOut.fromModel (user : User) : UserOut :=
  { uid := user.uid
    username := user.username
    description := user.description.getD ""
    smbEnabled := user.smbEnabled
    ftpEnabled := user.ftpEnabled
    createdByNasos := user.createdByNasos
    smbPasswordSynced := user.smbPasswordSynced }

/-- `UserCreateRequest`. -/
structure UserCreateRequest where
  username : String
  password : String
  description : String

/-- `UserUpdateRequest`. -/
structure UserUpdateRequest where
  description : Option String
  smbEnabled : Option Bool

/-- Answer a `UserServiceError` with the status 400. -/
def badRequest {α : Type} : Exc → UsersM α
  | .serviceError _ message => throw (.httpException 400 message)
  | e => throw e

/-- `require_admin`. -/
def requireAdmin (session : Session) : UsersM Unit :=
  Async.raiseIf (session.role ≠ "admin") (.httpException 403 "admin role required")

/-- `_get_user_or_404`. -/
def getUserOr404 (uid : ℤ) : UsersM User := do
  match ← UsersService.getUser uid with
  | none => throw (.httpException 404 "no such user")
  | some user => pure user

/-- `audit.record`. -/
def Audit.record (entry : AuditLog) : UsersM Unit :=
  ExceptT.mk (Coroutine.perform (UsersOp.audit entry))

namespace UsersApi

/-- `POST /users`, from the address `ip`. -/
def createUser (session : Session) (ip : Option String) (body : UserCreateRequest) :
    UsersM UserOut := do
  requireAdmin session
  let entry (statusCode : ℕ) (detail : Option String) : AuditLog :=
    { username := session.username
      role := session.role
      ip := ip
      method := "POST"
      path := "/api/v1/users"
      action := "users.create"
      statusCode := statusCode
      detail := detail }
  let user ← tryCatch (UsersService.createUser body.username body.password body.description)
    fun
      | .serviceError _ message => do
          Audit.record (entry 400 (some message))
          throw (.httpException 400 message)
      | e => throw e
  Audit.record (entry 200 none)
  pure (.fromModel user)

/-- `POST /users/import`. -/
def importUser (session : Session) (username description : String) : UsersM UserOut := do
  requireAdmin session
  let user ← tryCatch (UsersService.importUser username description) badRequest
  pure (.fromModel user)

/-- `PATCH /users/{uid}`. -/
def updateUser (session : Session) (uid : ℤ) (body : UserUpdateRequest) : UsersM UserOut := do
  requireAdmin session
  let user ← getUserOr404 uid
  let user ← match body.description with
    | some description => UsersService.updateDescription user description
    | none => pure user
  let user ← match body.smbEnabled with
    | some enabled => tryCatch (UsersService.setSmbEnabled user enabled) badRequest
    | none => pure user
  pure (.fromModel user)

/-- `POST /users/{uid}/password`: an admin sets anyone's password, a user only their own. -/
def setPassword (session : Session) (uid : ℤ) (password : String) : UsersM UserOut := do
  Async.raiseIf (session.role ≠ "admin" ∧ session.uid ≠ uid)
    (.httpException 403 "can only change your own password")
  let user ← getUserOr404 uid
  let updated ← tryCatch (UsersService.setPassword user password) badRequest
  pure (.fromModel updated)

/-- `DELETE /users/{uid}`. -/
def deleteUser (session : Session) (uid : ℤ) (deleteHome : Bool) : UsersM Unit := do
  requireAdmin session
  let user ← getUserOr404 uid
  tryCatch (UsersService.deleteUser user deleteHome)
    fun
      | .rpcCallError code message => throw (.httpException 400 (code ++ ": " ++ message))
      | e => badRequest e

end UsersApi
