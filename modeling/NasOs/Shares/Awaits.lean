import NasOs.Shares.Requests
import NasOs.Users.Chpasswd

/-!
# What requests about shares await

The operations that each part of a request may await, whatever it is answered: a property of operations that
holds of these holds of everything the part awaits.
-/

/-! ### Requests about accounts -/

/-- An operation of a request about accounts that changes no table. -/
def UsersOp.Reads : UsersOp → Prop
  | .addUser _ => False
  | .updateUser _ _ => False
  | .deleteUser _ => False
  | _ => True

section

variable {P : UsersOp → Prop} (hP : ∀ op, op.Reads → P op) {α : Type}
include hP

theorem awaits_runReads (argv : List String) (error : String) (input : Option String) :
  (RealPosixUsers.run argv error input).run.Awaits P
  := awaits_runOrRaise (hP _ trivial)

/-- Creating an account or a group runs commands; so does what follows. -/
theorem awaits_commandThen {argv : List String} {f : CommandResult → UsersM α}
    (hf : ∀ result, (f result).run.Awaits P) (input : Option String) :
  (Runner.run argv input >>= f).run.Awaits P
  := by
  apply Coroutine.awaits_exceptT_bind _ hf
  exact ⟨hP _ trivial, fun _ => trivial⟩

/-- The handler for a new account changes no table. -/
theorem awaits_usersCreate (params : UserCreateParams) :
  (UsersHandlers.create params).run.Awaits P
  := by
  apply Coroutine.awaits_exceptT_bind
  · apply Coroutine.awaits_tryCatch
    · apply Coroutine.awaits_exceptT_bind
      · apply Coroutine.awaits_exceptT_bind (awaits_runReads hP _ _ _)
        intro _
        apply awaits_commandThen hP
        intro idResult
        apply Coroutine.awaits_exceptT_bind (Async.awaits_raiseIf _ _)
        intro _
        split
        · apply Coroutine.awaits_pure
        · apply Coroutine.awaits_throw
      · intro uid
        apply Coroutine.awaits_exceptT_bind (awaits_runReads hP _ _ _)
        intro _
        apply Coroutine.awaits_exceptT_bind (awaits_runReads hP _ _ _)
        intro _
        trivial
    · apply awaits_raiseAs
  · intro uid
    trivial

/-- The handler for an account that exists changes no table. -/
theorem awaits_usersImport (params : UserImportParams) :
  (UsersHandlers.importExisting params).run.Awaits P
  := by
  constructor
  · exact hP _ trivial
  · rintro (e | _ | uid)
    · trivial
    · trivial
    · apply Coroutine.awaits_exceptT_bind
      · apply Coroutine.awaits_tryCatch (awaits_runReads hP _ _ _)
        apply awaits_raiseAs
      · intro _
        trivial

/-- The handler that deletes an account changes no table. -/
theorem awaits_usersDelete (params : UserDeleteParams) :
  (UsersHandlers.delete params).run.Awaits P
  := by
  apply Coroutine.awaits_exceptT_bind
  · apply Coroutine.awaits_tryCatch (awaits_runReads hP _ _ _)
    intro e
    cases e
    all_goals trivial
  · intro _
    apply Coroutine.awaits_tryCatch (awaits_runReads hP _ _ _)
    apply awaits_raiseAs

/-- The handler for a new group changes no table. -/
theorem awaits_groupsCreate (params : GroupCreateParams) :
  (GroupsHandlers.create params).run.Awaits P
  := by
  apply Coroutine.awaits_exceptT_bind
  · apply Coroutine.awaits_tryCatch
    · apply Coroutine.awaits_exceptT_bind (awaits_runReads hP _ _ _)
      intro _
      apply awaits_commandThen hP
      intro getent
      apply Coroutine.awaits_exceptT_bind (Async.awaits_raiseIf _ _)
      intro _
      split
      · apply Coroutine.awaits_throw
      · split
        · apply Coroutine.awaits_pure
        · apply Coroutine.awaits_throw
    · apply awaits_raiseAs
  · intro gid
    trivial

/-- The handler that deletes a group changes no table. -/
theorem awaits_groupsDelete (params : GroupDeleteParams) :
  (GroupsHandlers.delete params).run.Awaits P
  := by
  apply Coroutine.awaits_tryCatch (awaits_runReads hP _ _ _)
  apply awaits_raiseAs

omit hP in
/-- Raising the error of a service awaits nothing. -/
theorem awaits_userServiceError (e : Exc) :
  (userServiceError e : UsersM α).run.Awaits P
  := by
  cases e
  all_goals trivial

omit hP in
/-- Answering with an error awaits nothing. -/
theorem awaits_badRequest (e : Exc) :
  (badRequest e : UsersM α).run.Awaits P
  := by
  cases e
  all_goals trivial

/-- A request for a new account adds a row and changes no table otherwise. -/
theorem awaits_apiCreateUser (hadd : ∀ user, P (.addUser user)) (session : Session)
    (ip : Option String) (body : UserCreateRequest) :
  (UsersApi.createUser session ip body).run.Awaits P
  := by
  apply Coroutine.awaits_exceptT_bind (Async.awaits_raiseIf _ _)
  intro _
  apply Coroutine.awaits_exceptT_bind
  · apply Coroutine.awaits_tryCatch
    · apply Coroutine.awaits_exceptT_bind
      · apply Coroutine.awaits_tryCatch
        · apply AgentClient.awaits_call
          intro _
          apply awaits_usersCreate hP
        · apply awaits_userServiceError
      · intro info
        apply Coroutine.awaits_exceptT_bind
        · exact ⟨hadd _, fun _ => trivial⟩
        · intro _
          trivial
    · intro e
      cases e with
      | serviceError code message =>
          apply Coroutine.awaits_exceptT_bind
          · exact ⟨hP _ trivial, fun _ => trivial⟩
          · intro _
            trivial
      | _ => trivial
  · intro user
    apply Coroutine.awaits_exceptT_bind
    · exact ⟨hP _ trivial, fun _ => trivial⟩
    · intro _
      trivial

/-- A request to import an account adds a row and changes no table otherwise. -/
theorem awaits_apiImportUser (hadd : ∀ user, P (.addUser user)) (session : Session)
    (username description : String) :
  (UsersApi.importUser session username description).run.Awaits P
  := by
  apply Coroutine.awaits_exceptT_bind (Async.awaits_raiseIf _ _)
  intro _
  apply Coroutine.awaits_exceptT_bind
  · apply Coroutine.awaits_tryCatch
    · apply Coroutine.awaits_exceptT_bind
      · apply Coroutine.awaits_tryCatch
        · apply AgentClient.awaits_call
          intro _
          apply awaits_usersImport hP
        · apply awaits_userServiceError
      · intro info
        apply Coroutine.awaits_exceptT_bind
        · exact ⟨hadd _, fun _ => trivial⟩
        · intro _
          trivial
    · apply awaits_badRequest
  · intro user
    trivial

/-- A request to delete an account deletes rows and changes no table otherwise. -/
theorem awaits_apiDeleteUser (hdelete : ∀ user, P (.deleteUser user)) (session : Session) (uid : ℤ)
    (deleteHome : Bool) :
  (UsersApi.deleteUser session uid deleteHome).run.Awaits P
  := by
  apply Coroutine.awaits_exceptT_bind (Async.awaits_raiseIf _ _)
  intro _
  apply Coroutine.awaits_exceptT_bind
  · constructor
    · exact hP _ trivial
    · rintro (e | _ | user)
      all_goals trivial
  · intro user
    apply Coroutine.awaits_tryCatch
    · apply Coroutine.awaits_exceptT_bind
      · apply Coroutine.awaits_tryCatch
        · apply AgentClient.awaits_call
          intro _
          apply awaits_usersDelete hP
        · apply awaits_userServiceError
      · intro _
        exact ⟨hdelete _, fun _ => trivial⟩
    · intro e
      cases e
      all_goals trivial

end

/-- A part of a request that is about accounts awaits operations on them. -/
theorem awaits_usersPart {α : Type} {P : UsersOp → Prop} {Q : SharesOp → Prop} {c : UsersM α}
    (hc : c.run.Awaits P) (hP : ∀ op, P op → Q (.users op)) :
  (SharesM.ofUsers c).run.Awaits Q
  := hc.interpret fun op hop => ⟨hP op hop, fun _ => trivial⟩

/-! ### Parts of requests about shares -/

/-- A part of a request about access control lists awaits operations on them. -/
theorem awaits_ofAcl {α : Type} {P : AclOp → Prop} {Q : SharesOp → Prop} {c : AclM α}
    (hc : c.run.Awaits P) (hP : ∀ op, P op → Q (.acl op)) :
  (SharesM.ofAcl c).run.Awaits Q
  := hc.interpret fun op hop => ⟨hP op hop, fun _ => trivial⟩

section

variable {P : SharesOp → Prop} {α : Type}

/-- A part of a request that is about the configuration awaits steps on it. -/
theorem awaits_ofConfig (hconfig : ∀ op, P (.config op)) (c : ConfigM α) :
  (SharesM.ofConfig c).run.Awaits P
  := by
  rw [SharesM.ofConfig, ExceptT.run_lift, map_eq_pure_bind]
  apply Coroutine.Awaits.bind
  · apply (Coroutine.awaits_of_forall (P := fun _ => True) (fun _ => trivial) c.run).interpret
    intro op _
    exact ⟨hconfig op, fun _ => trivial⟩
  · intro _
    trivial

/-- Asking for an administrator awaits nothing. -/
theorem awaits_requireAdmin (session : Session) :
  (SharesM.ofUsers (requireAdmin session)).run.Awaits P
  := awaits_usersPart (P := fun _ => False) (Async.awaits_raiseIf _ _) fun _ => False.elim

/-- Raising the error of a service awaits nothing. -/
theorem awaits_serviceError (e : Exc) :
  (serviceError e : SharesM α).run.Awaits P
  := by
  cases e
  all_goals trivial

/-- Answering with an error awaits nothing. -/
theorem awaits_answer400 (e : Exc) :
  (answer400 e : SharesM α).run.Awaits P
  := by
  cases e
  all_goals trivial

/-- Raising an `OSError` awaits nothing. -/
theorem awaits_orSystemError (r : Except String Unit) :
  (orSystemError r).run.Awaits P
  := by
  cases r
  all_goals trivial

/-- Applying the configuration selects the shares and takes steps on the configuration. -/
theorem awaits_applySambaConfig (settings : SharesSettings) (hlist : P .listShares)
    (hconfig : ∀ op, P (.config op)) :
  (SharesService.applySambaConfig settings).run.Awaits P
  := by
  apply Coroutine.awaits_exceptT_bind
  · exact ⟨hlist, fun _ => trivial⟩
  · intro shares
    apply Coroutine.awaits_tryCatch
    · apply AgentClient.awaits_call
      intro _
      apply Coroutine.awaits_exceptT_bind (awaits_ofConfig hconfig _)
      rintro ((detail | detail | message) | sha256)
      all_goals trivial
    · apply awaits_serviceError

/-- A request for a new group runs commands and adds a row. -/
theorem awaits_createGroup (husers : ∀ op : UsersOp, op.Reads → P (.users op))
    (hadd : ∀ group, P (.addGroup group)) (session : Session) (name description : String) :
  (GroupsApi.createGroup session name description).run.Awaits P
  := by
  apply Coroutine.awaits_exceptT_bind (awaits_requireAdmin session)
  intro _
  apply Coroutine.awaits_tryCatch
  · apply Coroutine.awaits_exceptT_bind
    · apply Coroutine.awaits_tryCatch
      · apply awaits_usersPart (P := UsersOp.Reads) _ husers
        apply AgentClient.awaits_call
        intro _
        apply awaits_groupsCreate fun _ h => h
      · apply awaits_serviceError
    · intro info
      apply Coroutine.awaits_exceptT_bind
      · exact ⟨hadd _, fun _ => trivial⟩
      · intro _
        trivial
  · apply awaits_answer400

/-- A request to delete a group looks it up, runs commands and deletes a row. -/
theorem awaits_deleteGroup (husers : ∀ op : UsersOp, op.Reads → P (.users op))
    (hget : ∀ gid, P (.getGroup gid)) (hdelete : ∀ group, P (.deleteGroup group)) (session : Session)
    (gid : ℤ) :
  (GroupsApi.deleteGroup session gid).run.Awaits P
  := by
  apply Coroutine.awaits_exceptT_bind (awaits_requireAdmin session)
  intro _
  constructor
  · apply hget
  · rintro (_ | group)
    · trivial
    · apply Coroutine.awaits_tryCatch
      · apply Coroutine.awaits_exceptT_bind
        · apply Coroutine.awaits_tryCatch
          · apply awaits_usersPart (P := UsersOp.Reads) _ husers
            apply AgentClient.awaits_call
            intro _
            apply awaits_groupsDelete fun _ h => h
          · apply awaits_serviceError
        · intro _
          exact ⟨hdelete group, fun _ => trivial⟩
      · apply awaits_answer400

/-- Deleting a share removes the tree at its path, if it is to be removed, and deletes the row. -/
theorem awaits_deleteShare (settings : SharesSettings) (share : Share) (deleteFiles : Bool)
    (hremove : P (.rmtree share.path)) (hdelete : P (.deleteShare share)) (hlist : P .listShares)
    (hconfig : ∀ op, P (.config op)) :
  (SharesService.deleteShare settings share deleteFiles).run.Awaits P
  := by
  apply Coroutine.awaits_exceptT_bind
  · apply Coroutine.awaits_tryCatch
    · apply AgentClient.awaits_call
      intro _
      rw [SharesHandlers.delete]
      split
      · exact ⟨hremove, fun _ => trivial⟩
      · trivial
    · apply awaits_serviceError
  · intro _
    apply Coroutine.awaits_exceptT_bind
    · exact ⟨hdelete, fun _ => trivial⟩
    · intro _
      apply Coroutine.awaits_exceptT_bind (awaits_applySambaConfig settings hlist hconfig)
      intro _
      trivial

end
