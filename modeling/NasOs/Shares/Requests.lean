import NasOs.System.Shares

/-!
# Requests about shares and groups

The way of a request about shares or groups, from the REST API of the web process over its service
layer and the agent's handlers to what they await.  A request about accounts is one of
`NasOs.Users.Requests`.

A request on a share goes through the stores one after the other: first the directory or its access
control list, then the tables, and last the configuration, which is rendered from the tables.
-/

/-! ### The agent's handlers -/

/-- The error of a schema on a path. -/
def pathError (path : String) : Option String :=
  if path.length = 0 then some "path: String should have at least 1 character"
  else if 255 < path.length then some "path: String should have at most 255 characters"
  else none

/-- `ShareDeleteParams`. -/
structure ShareDeleteParams where
  path : String
  deleteFiles : Bool

/-- `ShareSetPermissionsParams`. -/
structure ShareSetPermissionsParams where
  path : String
  entries : List AclEntry
  recursive : Bool

/-- `SambaApplyConfigParams`. -/
structure SambaApplyConfigParams where
  content : String
  restart : Bool

/-- Raise an `OSError` as an `RpcException`. -/
def orSystemError : Except String Unit → SharesM Unit
  | .ok () => pure ()
  | .error message => throw (.rpcException "system_error" message)

namespace SharesHandlers

/-- `_SHARE_MODE`. -/
def shareMode : ℕ :=
  0o2700

/-- The group that directories of shares belong to; a sandbox has none. -/
def directoryGroup (sandboxed : Bool) : SharesM (Option ℤ) :=
  if sandboxed then pure none
  else do
    match ← Async.ask (SharesOp.getgrnam "nasos-users") with
    | none => throw (.rpcException "system_error" "nasos-users group does not exist")
    | some gid => pure (some gid)

/-- `os.chown` to the group, if there is one. -/
def chown (path : String) : Option ℤ → SharesM Unit
  | none => pure ()
  | some gid => do orSystemError (← Async.ask (SharesOp.chown path gid))

/-- `shares.create`. -/
def create (sandboxed : Bool) (path : String) : SharesM Unit := do
  let found ← Async.ask (SharesOp.pathExists path)
  Async.raiseIf (found = true) (.rpcException "already_exists" (path ++ " already exists"))
  let gid ← directoryGroup sandboxed
  orSystemError (← Async.ask (SharesOp.makedirs path))
  chown path gid
  orSystemError (← Async.ask (SharesOp.chmod path shareMode))

/-- `shares.delete`. -/
def delete (params : ShareDeleteParams) : SharesM Unit :=
  if params.deleteFiles then ExceptT.mk (Coroutine.perform (SharesOp.rmtree params.path))
  else pure ()

/-- `shares.set_permissions` up to the job that it submits for a whole tree. -/
def submitPermissions (params : ShareSetPermissionsParams) : SharesM (Option String) :=
  if params.recursive then do
    let jobId ← Async.ask (SharesOp.submit params.path params.entries)
    pure (some jobId)
  else do
    SharesM.ofAcl (setPermissions params.path params.entries false)
    pure none

end SharesHandlers

/-- `samba.apply_config`. -/
def SambaHandlers.applyConfig (sha256 : List UInt8 → String) (params : SambaApplyConfigParams) :
    SharesM String := do
  let managed : ManagedFile :=
    { content := params.content.toUTF8.toList
      validates := true
      applies := true }
  match ← SharesM.ofConfig (managed.writeAndApply sha256) with
  | .ok sha256 => pure sha256
  | .error (.invalid detail) => throw (.rpcException "config_invalid" detail)
  | .error (.applyFailed detail) => throw (.rpcException "apply_failed" detail)
  | .error (.other message) => throw (.other message)

/-! ### The service layer of the web process -/

/-- Raise a failed call as the error of the service. -/
def serviceError {α : Type} : Exc → SharesM α
  | .rpcCallError code message => throw (.serviceError code message)
  | e => throw e

namespace GroupsService

/-- `create_group`. -/
def createGroup (name description : String) : SharesM GroupMeta := do
  let info ← tryCatch
    (SharesM.ofUsers (AgentClient.call (fun p => groupNameError p.name) GroupsHandlers.create ⟨name⟩))
    serviceError
  let group : GroupMeta :=
    { gid := info.gid
      name := info.name
      description := some description
      createdByNasos := true }
  ExceptT.mk (Coroutine.perform (SharesOp.addGroup group))
  pure group

/-- `delete_group`. -/
def deleteGroup (group : GroupMeta) : SharesM Unit := do
  tryCatch
    (SharesM.ofUsers
      (AgentClient.call (fun p => groupNameError p.name) GroupsHandlers.delete ⟨group.name⟩))
    serviceError
  ExceptT.mk (Coroutine.perform (SharesOp.deleteGroup group))

/-- `add_member`. -/
def addMember (group : GroupMeta) (username : String) : SharesM Unit :=
  tryCatch
    (SharesM.ofUsers
      (AgentClient.call membershipError GroupsHandlers.addMember ⟨group.name, username⟩))
    serviceError

/-- `remove_member`. -/
def removeMember (group : GroupMeta) (username : String) : SharesM Unit :=
  tryCatch
    (SharesM.ofUsers
      (AgentClient.call membershipError GroupsHandlers.removeMember ⟨group.name, username⟩))
    serviceError

end GroupsService

/-- What the web process and the agent are configured with. -/
structure SharesSettings where
  /-- The agent runs in development or in tests. -/
  sandboxed : Bool
  sha256 : List UInt8 → String

namespace SharesService

/-- `apply_samba_config`. -/
def applySambaConfig (settings : SharesSettings) : SharesM String := do
  let shares ← Async.ask SharesOp.listShares
  let content := renderNasosConf (shares.map fun share => buildShareView share.1 share.2)
  tryCatch
    (AgentClient.call (fun _ => none) (SambaHandlers.applyConfig settings.sha256) ⟨content, false⟩)
    serviceError

/-- `create_share`. -/
def createShare (settings : SharesSettings) (name : String) (volumeId : ℤ) (description : String) :
    SharesM Share := do
  match ← Async.ask (SharesOp.getVolume volumeId) with
  | none => throw (.serviceError "not_found" ("no such volume: " ++ toString volumeId))
  | some volume => do
      let path := volume.mountpoint ++ "/" ++ name
      tryCatch (AgentClient.call pathError (SharesHandlers.create settings.sandboxed) path)
        serviceError
      let share ← ExceptT.mk (Coroutine.perform (SharesOp.addShare name volumeId path description))
      let _ ← applySambaConfig settings
      pure share

/-- `delete_share`. -/
def deleteShare (settings : SharesSettings) (share : Share) (deleteFiles : Bool) : SharesM Unit := do
  tryCatch
    (AgentClient.call (fun params => pathError params.path) SharesHandlers.delete
      ⟨share.path, deleteFiles⟩)
    serviceError
  ExceptT.mk (Coroutine.perform (SharesOp.deleteShare share))
  let _ ← applySambaConfig settings
  pure ()

/-- `_resolve_numeric_id`. -/
def resolveNumericId (kind : PrincipalKind) (principal : String) : SharesM ℤ :=
  match kind with
  | .user => do
      match ← Async.ask (SharesOp.findUser principal) with
      | none => throw (.serviceError "not_found" ("no such NAS-OS user: " ++ principal))
      | some user => pure user.uid
  | .group => do
      match ← Async.ask (SharesOp.findGroup principal) with
      | none => throw (.serviceError "not_found" ("no such NAS-OS group: " ++ principal))
      | some group => pure group.gid

/-- A permission as a request names it. -/
structure Permission where
  principalType : PrincipalKind
  principal : String
  level : AclLevel

/-- The entries that permissions stand for. -/
def resolveEntries : List Permission → SharesM (List AclEntry)
  | [] => pure []
  | p :: permissions => do
      let numericId ← resolveNumericId p.principalType p.principal
      let entries ← resolveEntries permissions
      pure (⟨p.principalType, numericId, p.level⟩ :: entries)

/-- The row of a permission on a share. -/
def Permission.row (shareId : ℤ) (p : Permission) : SharePermission :=
  ⟨shareId, p.principalType, p.principal, p.level⟩

/-- `set_share_permissions`. -/
def setSharePermissions (settings : SharesSettings) (share : Share) (permissions : List Permission)
    (recursive : Bool) : SharesM (Option String) := do
  let entries ← resolveEntries permissions
  let jobId ← tryCatch
    (AgentClient.call (fun params => pathError params.path) SharesHandlers.submitPermissions
      ⟨share.path, entries, recursive⟩)
    serviceError
  ExceptT.mk (Coroutine.perform
    (SharesOp.replacePermissions share.id (permissions.map (Permission.row share.id))))
  let _ ← applySambaConfig settings
  pure jobId

end SharesService

/-! ### The REST API -/

/-- Answer an error of the service with the status 400. -/
def answer400 {α : Type} : Exc → SharesM α
  | .serviceError _ message => throw (.httpException 400 message)
  | e => throw e

/-- `_get_share_or_404`. -/
def getShareOr404 (shareId : ℤ) : SharesM Share := do
  match ← Async.ask (SharesOp.getShare shareId) with
  | none => throw (.httpException 404 "no such share")
  | some share => pure share

/-- `_get_group_or_404`. -/
def getGroupOr404 (gid : ℤ) : SharesM GroupMeta := do
  match ← Async.ask (SharesOp.getGroup gid) with
  | none => throw (.httpException 404 "no such group")
  | some group => pure group

/-- `ShareCreateRequest`: any text can be a name. -/
structure ShareCreateRequest where
  name : String
  volumeId : ℤ
  description : String

/-- `SetPermissionsRequest`. -/
structure SetPermissionsRequest where
  permissions : List SharesService.Permission
  recursive : Bool

namespace GroupsApi

/-- `POST /groups`. -/
def createGroup (session : Session) (name description : String) : SharesM GroupMeta := do
  SharesM.ofUsers (requireAdmin session)
  tryCatch (GroupsService.createGroup name description) answer400

/-- `DELETE /groups/{gid}`. -/
def deleteGroup (session : Session) (gid : ℤ) : SharesM Unit := do
  SharesM.ofUsers (requireAdmin session)
  let group ← getGroupOr404 gid
  tryCatch (GroupsService.deleteGroup group) answer400

/-- `POST /groups/{gid}/members`. -/
def addMember (session : Session) (gid : ℤ) (username : String) : SharesM Unit := do
  SharesM.ofUsers (requireAdmin session)
  let group ← getGroupOr404 gid
  tryCatch (GroupsService.addMember group username) answer400

/-- `DELETE /groups/{gid}/members/{username}`. -/
def removeMember (session : Session) (gid : ℤ) (username : String) : SharesM Unit := do
  SharesM.ofUsers (requireAdmin session)
  let group ← getGroupOr404 gid
  tryCatch (GroupsService.removeMember group username) answer400

end GroupsApi

namespace SharesApi

/-- `POST /shares`. -/
def createShare (settings : SharesSettings) (session : Session) (body : ShareCreateRequest) :
    SharesM Share := do
  SharesM.ofUsers (requireAdmin session)
  tryCatch
    (do
      let share ← SharesService.createShare settings body.name body.volumeId body.description
      ExceptT.mk (Coroutine.perform SharesOp.ensureSamba)
      pure share)
    answer400

/-- `DELETE /shares/{share_id}`. -/
def deleteShare (settings : SharesSettings) (session : Session) (shareId : ℤ) (deleteFiles : Bool) :
    SharesM Unit := do
  SharesM.ofUsers (requireAdmin session)
  let share ← getShareOr404 shareId
  tryCatch (SharesService.deleteShare settings share deleteFiles) answer400

/-- `PUT /shares/{share_id}/permissions`. -/
def setPermissions (settings : SharesSettings) (session : Session) (shareId : ℤ)
    (body : SetPermissionsRequest) : SharesM (Option String) := do
  SharesM.ofUsers (requireAdmin session)
  let share ← getShareOr404 shareId
  tryCatch (SharesService.setSharePermissions settings share body.permissions body.recursive)
    answer400

end SharesApi
