import NasOs.Users.Backends

/-!
# The stages of a request about a password

A request that sets a password loads the row of the user, sets the password of the account and then that
of Samba, and commits the flag that says whether both were set.  A request that creates an account sets
both passwords, and adds a row only then.  Each request obeys a protocol whose stages say which of the
backends it has changed.
-/

/-- The exception makes the service note that the Samba password was not changed; the error of the
adapter does so when it is that of the Samba step. -/
def Exc.drifts (adapter : Bool) : Exc → Bool
  | .adapterError _ => adapter
  | .rpcException code _ => code = "smb_password_sync_failed"
  | .rpcCallError code _ => code = "smb_password_sync_failed"
  | _ => false

/-- Where a request is. -/
inductive PasswordStage where
  /-- Nothing of a password is under way. -/
  | idle
  /-- A change of a password has loaded the row. -/
  | loaded (row : User)
  | unixSet (row : User)
  | bothSet (row : User)
  /-- The Samba password was not changed. -/
  | unixOnly (row : User)
  /-- An account was created. -/
  | created
  /-- The uid of the new account is known. -/
  | identified
  | createdUnix
  | createdBoth
  /-- The account to import is there. -/
  | found

namespace PasswordStage

/-- What a request may await at a stage. -/
inductive Allowed : UserRequest → PasswordStage → UsersOp → Prop where
  | getUser (uid : ℤ) (password : String) :
      Allowed (.password (.setPassword uid password)) .idle (.getUser uid)
  | chpasswd (uid : ℤ) (password : String) (row : User) :
      Allowed (.password (.setPassword uid password)) (.loaded row)
        (.run ["chpasswd"] (some (chpasswdLine row.username password)))
  | smbpasswd (uid : ℤ) (password : String) (row : User) :
      Allowed (.password (.setPassword uid password)) (.unixSet row)
        (.run ["smbpasswd", "-s", row.username] (some (password ++ "\n" ++ password ++ "\n")))
  | synced (uid : ℤ) (password : String) (row : User) :
      Allowed (.password (.setPassword uid password)) (.bothSet row)
        (.updateUser { row with smbPasswordSynced := true } none)
  | drifted (uid : ℤ) (password : String) (row : User) (notification : Option Notification) :
      Allowed (.password (.setPassword uid password)) (.unixOnly row)
        (.updateUser { row with smbPasswordSynced := false } notification)
  | useradd (ip : Option String) (body : UserCreateRequest) (homeDir : String) :
      Allowed (.password (.create ip body)) .idle
        (.run ["useradd", "-m", "-d", homeDir, "-s", "/sbin/nologin", "-G", "nasos-users", "-c",
          body.description, body.username] none)
  | id (ip : Option String) (body : UserCreateRequest) :
      Allowed (.password (.create ip body)) .created (.run ["id", "-u", body.username] none)
  | chpasswdNew (ip : Option String) (body : UserCreateRequest)
      (h : usernameRe body.username.toList = true) :
      Allowed (.password (.create ip body)) .identified
        (.run ["chpasswd"] (some (chpasswdLine body.username body.password)))
  | smbCreate (ip : Option String) (body : UserCreateRequest) :
      Allowed (.password (.create ip body)) .createdUnix
        (.run ["smbpasswd", "-s", "-a", body.username]
          (some (body.password ++ "\n" ++ body.password ++ "\n")))
  | addUser (ip : Option String) (body : UserCreateRequest) (row : User)
      (h : row.username = body.username) :
      Allowed (.password (.create ip body)) .createdBoth (.addUser row)
  | audit (ip : Option String) (body : UserCreateRequest) (entry : AuditLog) :
      Allowed (.password (.create ip body)) .idle (.audit entry)
  | getpwnam (username description : String) :
      Allowed (.importUser username description) .idle (.getpwnam username)
  | usermod (username description : String) :
      Allowed (.importUser username description) .found
        (.run ["usermod", "-aG", "nasos-users", username] none)
  | importUser (username description : String) (row : User) (husername : row.username = username)
      (hsynced : row.smbPasswordSynced = false) :
      Allowed (.importUser username description) .found (.addUser row)

/-- The stage that an answer leads to. -/
def next : PasswordStage → (op : UsersOp) → op.Answer → PasswordStage
  | .idle, .getUser _, .ok (some row) =>
      if usernameRe row.username.toList then .loaded row else .idle
  | .loaded row, .run _ _, .ok result => if result.ok then .unixSet row else .idle
  | .loaded row, .run _ _, .error e => if e.drifts false then .unixOnly row else .idle
  | .unixSet row, .run _ _, .ok result => if result.ok then .bothSet row else .unixOnly row
  | .unixSet row, .run _ _, .error e => if e.drifts true then .unixOnly row else .idle
  | .idle, .run ("useradd" :: _) _, .ok result => if result.ok then .created else .idle
  | .created, .run _ _, .ok result =>
      if result.ok && (Text.int result.stdout.strip.toList).isSome then .identified else .idle
  | .identified, .run _ _, .ok result => if result.ok then .createdUnix else .idle
  | .createdUnix, .run _ _, .ok result => if result.ok then .createdBoth else .idle
  | .idle, .getpwnam _, .ok (some _) => .found
  | .found, .run _ _, .ok result => if result.ok then .found else .idle
  | _, _, _ => .idle

end PasswordStage

/-- The protocol of a request. -/
def UserRequest.protocol (request : UserRequest) : Protocol UsersOp UsersOp.Answer PasswordStage :=
  ⟨PasswordStage.Allowed request, PasswordStage.next⟩

namespace UserRequest

/-- A request ends when nothing of a password is under way. -/
def ends {α : Type} (stage : PasswordStage) (_ : Except Exc α) : Prop :=
  stage = .idle

/-- The rule for a command that must succeed. -/
theorem obeys_run {request : UserRequest} {stage : PasswordStage} {argv : List String}
    {error : String} {input : Option String} {Q : PasswordStage → Except Exc Unit → Prop}
    (hallowed : PasswordStage.Allowed request stage (.run argv input))
    (hok : ∀ result : CommandResult, result.ok = true →
      Q (stage.next (.run argv input) (.ok result)) (.ok ()))
    (hfails : ∀ (result : CommandResult) (message : String), result.ok = false →
      Q (stage.next (.run argv input) (.ok result)) (.error (.adapterError message)))
    (hraises : ∀ e : Exc, Q (stage.next (.run argv input) (.error e)) (.error e)) :
  (RealPosixUsers.run argv error input).run.Obeys request.protocol Q stage
  := by
  constructor
  · apply hallowed
  · rintro (e | result)
    · apply hraises e
    · change (Async.raiseIf (!result.ok)
        (.adapterError (result.stderr.strip.orElse error)) : UsersM Unit).run.Obeys _ Q _
      cases hresult : result.ok with
      | true => apply hok result hresult
      | false => apply hfails result _ hresult

/-- What a handler does to a stage where a password is changed: both were, or an error tells whether
the Unix password only was. -/
def changed {α : Type} (row : User) (stage : PasswordStage) : Except Exc α → Prop
  | .ok _ => stage = .bothSet row
  | .error e => stage = if e.drifts false then .unixOnly row else .idle

/-- The rule for raising the error of an adapter as another exception. -/
theorem obeys_raiseAs {request : UserRequest} {stage : PasswordStage} {code : String} {α : Type}
    {Q : PasswordStage → Except Exc α → Prop} {e : Exc}
    (hadapter : ∀ message, e = .adapterError message →
      Q stage (.error (.rpcException code message)))
    (hother : (∀ message, e ≠ .adapterError message) → Q stage (.error e)) :
  (raiseAs code e : UsersM α).run.Obeys request.protocol Q stage
  := by
  cases e with
  | adapterError message => apply hadapter message rfl
  | _ =>
      apply hother
      rintro message ⟨⟩

/-- An exception that is seen from the caller drifts as the one that was raised. -/
@[simp]
theorem drifts_callError (e : Exc) :
  (AgentClient.callError e).drifts false = e.drifts false
  := by
  cases e
  all_goals rfl

/-- What the caller sees is the error of a call. -/
theorem callError_eq (e : Exc) :
  ∃ code message, AgentClient.callError e = .rpcCallError code message
  := by
  cases e
  all_goals exact ⟨_, _, rfl⟩

/-- A user to create or import validates exactly when the username does. -/
theorem usernameError_eq_none {username : String} :
  usernameError username = none ↔ usernameRe username.toList = true
  := by
  rw [usernameError]
  split
  · simpa
  · rename_i h
    simpa using h

/-! ### The change of a password -/

section

variable {uid : ℤ} {newPassword : String} {row : User}

/-- The stage is the one that is reached by an answer, or the one that a failure leaves. -/
def stageAfter {α : Type} (reached : PasswordStage) (left : Exc → PasswordStage) (stage : PasswordStage) :
    Except Exc α → Prop
  | .ok _ => stage = reached
  | .error e => stage = left e

/-- The agent changes both passwords. -/
theorem obeys_setPasswordHandler :
  (UsersHandlers.setPassword ⟨row.username, newPassword⟩).run.Obeys
    (password (.setPassword uid newPassword)).protocol (changed row) (.loaded row)
  := by
  apply Coroutine.Obeys.exceptT_bind
    (Q := stageAfter (.unixSet row) fun e => if e.drifts false then .unixOnly row else .idle)
  · apply Coroutine.Obeys.tryCatch
      (Q := stageAfter (.unixSet row) fun e => if e.drifts false then .unixOnly row else .idle)
    · apply obeys_run (PasswordStage.Allowed.chpasswd uid newPassword row)
      · intro result hresult
        simp [PasswordStage.next, stageAfter, hresult]
      · intro result message hresult
        simp [PasswordStage.next, stageAfter, hresult, Exc.drifts]
      · intro e
        rfl
    · intro stage a h
      apply h
    · intro stage e h
      apply obeys_raiseAs
      · rintro message rfl
        apply h
      · intro _
        apply h
  · rintro stage - rfl
    apply Coroutine.Obeys.tryCatch
      (Q := stageAfter (.bothSet row) fun e => if e.drifts true then .unixOnly row else .idle)
    · apply obeys_run (PasswordStage.Allowed.smbpasswd uid newPassword row)
      · intro result hresult
        simp [PasswordStage.next, stageAfter, hresult]
      · intro result message hresult
        simp [PasswordStage.next, stageAfter, hresult, Exc.drifts]
      · intro e
        rfl
    · intro stage a h
      apply h
    · intro stage e h
      apply obeys_raiseAs
      · rintro message rfl
        apply h
      · intro hother
        cases e with
        | adapterError message => exact absurd rfl (hother message)
        | _ => apply h
  · intro stage e h
    apply h

/-- The service changes the password of the row and commits its flag. -/
theorem obeys_setPassword (hrow : usernameRe row.username.toList = true) :
  (UsersService.setPassword row newPassword).run.Obeys
    (password (.setPassword uid newPassword)).protocol ends (.loaded row)
  := by
  apply Coroutine.Obeys.exceptT_bind (Q := fun stage a => match a with
    | .ok (user, notification) =>
        (stage = .bothSet row ∧ user = { row with smbPasswordSynced := true } ∧ notification = none)
          ∨ stage = .unixOnly row ∧ user = { row with smbPasswordSynced := false }
    | .error _ => stage = .idle)
  · apply Coroutine.Obeys.tryCatch (Q := fun stage a => match a with
      | .ok (user, notification) => stage = .bothSet row
          ∧ user = { row with smbPasswordSynced := true } ∧ notification = none
      | .error e => (∃ code message, e = .rpcCallError code message)
          ∧ stage = if e.drifts false then .unixOnly row else .idle)
    · apply Coroutine.Obeys.exceptT_bind (Q := fun stage a => changed row stage a
        ∧ ∀ e, a = .error e → ∃ code message, e = .rpcCallError code message)
      · apply AgentClient.obeys_call (E := changed row)
        · intro _
          apply obeys_setPasswordHandler
        · intro message hinvalid
          rw [usernameError_eq_none.mpr hrow] at hinvalid
          cases hinvalid
        · rintro stage (e | a) h
          · constructor
            · rw [changed, ← drifts_callError] at h
              apply h
            · rintro _ ⟨⟩
              apply callError_eq
          · exact ⟨h, by rintro _ ⟨⟩⟩
      · intro stage _ h
        exact ⟨h.1, rfl, rfl⟩
      · intro stage e h
        exact ⟨h.2 e rfl, h.1⟩
    · intro stage a h
      left
      apply h
    · rintro stage e ⟨⟨code, message, rfl⟩, rfl⟩
      by_cases hcode : code = "smb_password_sync_failed"
      · rw [Exc.drifts, hcode]
        right
        exact ⟨rfl, rfl⟩
      · simp only [ne_eq, hcode, not_false_eq_true, if_true, Exc.drifts, decide_false]
        rfl
  · rintro stage ⟨user, notification⟩ (⟨rfl, rfl, rfl⟩ | ⟨rfl, rfl⟩)
    · constructor
      · apply PasswordStage.Allowed.synced
      · rintro (e | _)
        · rfl
        · rfl
    · constructor
      · apply PasswordStage.Allowed.drifted
      · rintro (e | _)
        · rfl
        · rfl
  · intro stage e h
    apply h

/-- A row whose username does not validate reaches no backend. -/
theorem obeys_setPassword_invalid (hrow : ¬ usernameRe row.username.toList = true) :
  (UsersService.setPassword row newPassword).run.Obeys
    (password (.setPassword uid newPassword)).protocol ends .idle
  := by
  apply Coroutine.Obeys.exceptT_bind (Q := fun stage a => stage = .idle ∧ ∃ e, a = .error e)
  · apply Coroutine.Obeys.tryCatch (Q := fun stage a =>
      stage = .idle ∧ ∃ message, a = .error (.other message))
    · apply Coroutine.Obeys.exceptT_bind (Q := fun stage a =>
        stage = .idle ∧ ∃ message, a = .error (.other message))
      · apply AgentClient.obeys_call (E := fun _ _ => False)
        · intro hvalid
          apply absurd (usernameError_eq_none.mp hvalid) hrow
        · intro message _
          exact ⟨rfl, message, rfl⟩
        · intro stage a h
          apply h.elim
      · rintro stage a ⟨-, message, ⟨⟩⟩
      · rintro stage e ⟨hstage, message, ⟨⟩⟩
        exact ⟨hstage, message, rfl⟩
    · rintro stage a ⟨-, message, ⟨⟩⟩
    · rintro stage e ⟨hstage, message, ⟨⟩⟩
      exact ⟨hstage, _, rfl⟩
  · rintro stage a ⟨-, e, ⟨⟩⟩
  · rintro stage e ⟨hstage, -⟩
    apply hstage

/-- A request to set a password obeys its protocol. -/
theorem obeys_setPasswordApi (session : Session) :
  (UsersApi.setPassword session uid newPassword).run.Obeys
    (password (.setPassword uid newPassword)).protocol ends .idle
  := by
  obtain hrun | hrun := setPassword_run session uid newPassword
  · rw [hrun]
    rfl
  · rw [hrun]
    constructor
    · apply PasswordStage.Allowed.getUser
    · rintro (e | _ | row)
      · rfl
      · rfl
      · apply Coroutine.Obeys.exceptT_bind (Q := ends)
        · apply Coroutine.Obeys.tryCatch (Q := ends)
          · by_cases hrow : usernameRe row.username.toList = true
            · have hstage : (password (.setPassword uid newPassword)).protocol.next .idle
                  (.getUser uid) (.ok (some row)) = .loaded row := if_pos hrow
              rw [hstage]
              apply obeys_setPassword hrow
            · have hstage : (password (.setPassword uid newPassword)).protocol.next .idle
                  (.getUser uid) (.ok (some row)) = .idle := if_neg hrow
              rw [hstage]
              apply obeys_setPassword_invalid hrow
          · intro stage a h
            apply h
          · intro stage e h
            cases e
            all_goals apply h
        · intro stage a h
          apply h
        · intro stage e h
          apply h

end

/-! ### The creation of an account -/

section

variable {ip : Option String} {body : UserCreateRequest}

/-- Where the creation of an account is once the agent has done its part. -/
def createdFor {α : Type} (stage : PasswordStage) : Except Exc α → Prop
  | .ok _ => stage = .createdBoth
  | .error _ => stage = .idle

/-- The adapter creates an account and looks its uid up. -/
theorem obeys_create (homeDir : String) :
  (RealPosixUsers.create body.username homeDir body.description).run.Obeys
    (password (.create ip body)).protocol
    (fun stage a => match a with
      | .ok _ => stage = .identified
      | .error _ => stage = .idle)
    .idle
  := by
  apply Coroutine.Obeys.exceptT_bind (Q := stageAfter .created fun _ => .idle)
  · apply obeys_run (PasswordStage.Allowed.useradd ip body homeDir)
    · intro result hresult
      simp [PasswordStage.next, stageAfter, hresult]
    · intro result message hresult
      simp [PasswordStage.next, stageAfter, hresult]
    · intro e
      rfl
  · rintro stage - rfl
    constructor
    · apply PasswordStage.Allowed.id
    · rintro (e | idResult)
      · rfl
      · apply Async.obeys_raiseIf_bind
        · intro hfailed
          rw [Bool.not_eq_true', ← Bool.not_eq_true] at hfailed
          simp [UserRequest.protocol, PasswordStage.next, hfailed]
        · intro hok
          rw [Bool.not_eq_true', Bool.not_eq_false] at hok
          cases hint : Text.int idResult.stdout.strip.toList with
          | none => simp [UserRequest.protocol, PasswordStage.next, hint]
          | some uid => simp [UserRequest.protocol, PasswordStage.next, hok, hint]
  · intro stage e h
    apply h

/-- The agent creates an account with both passwords. -/
theorem obeys_createHandler (hbody : usernameRe body.username.toList = true) :
  (UsersHandlers.create ⟨body.username, body.password, body.description⟩).run.Obeys
    (password (.create ip body)).protocol
    (fun stage a => createdFor stage a ∧ ∀ info, a = .ok info → info.username = body.username) .idle
  := by
  apply Coroutine.Obeys.exceptT_bind (Q := createdFor)
  · apply Coroutine.Obeys.tryCatch (Q := createdFor)
    · apply (obeys_create _).exceptT_bind
      · rintro stage uid rfl
        apply Coroutine.Obeys.exceptT_bind (Q := stageAfter .createdUnix fun _ => .idle)
        · apply obeys_run (PasswordStage.Allowed.chpasswdNew ip body hbody)
          · intro result hresult
            simp [PasswordStage.next, stageAfter, hresult]
          · intro result message hresult
            simp [PasswordStage.next, stageAfter, hresult]
          · intro e
            rfl
        · rintro stage - rfl
          apply Coroutine.Obeys.exceptT_bind (Q := createdFor)
          · apply obeys_run (PasswordStage.Allowed.smbCreate ip body)
            · intro result hresult
              simp [PasswordStage.next, hresult, createdFor]
            · intro result message hresult
              simp [PasswordStage.next, hresult, createdFor]
            · intro e
              rfl
          · intro stage _ h
            apply h
          · intro stage e h
            apply h
        · intro stage e h
          apply h
      · intro stage e h
        apply h
    · intro stage a h
      apply h
    · intro stage e h
      apply obeys_raiseAs
      · intro message _
        apply h
      · intro _
        apply h
  · intro stage uid h
    refine ⟨h, ?_⟩
    rintro info ⟨⟩
    rfl
  · intro stage e h
    exact ⟨h, by rintro info ⟨⟩⟩

/-- The service creates an account and adds its row. -/
theorem obeys_createUser :
  (UsersService.createUser body.username body.password body.description).run.Obeys
    (password (.create ip body)).protocol ends .idle
  := by
  apply Coroutine.Obeys.exceptT_bind (Q := fun stage a => createdFor stage a
    ∧ ∀ info, a = .ok info → info.username = body.username)
  · apply Coroutine.Obeys.tryCatch (Q := fun stage a => createdFor stage a
      ∧ ∀ info, a = .ok info → info.username = body.username)
    · apply AgentClient.obeys_call (E := fun stage a => createdFor stage a
        ∧ ∀ info, a = .ok info → info.username = body.username)
      · intro hvalid
        apply obeys_createHandler (usernameError_eq_none.mp hvalid)
      · intro message _
        exact ⟨rfl, by rintro info ⟨⟩⟩
      · rintro stage (e | info) h
        · exact ⟨h.1, by rintro info ⟨⟩⟩
        · apply h
    · intro stage a h
      apply h
    · intro stage e h
      cases e
      all_goals exact ⟨h.1, by rintro info ⟨⟩⟩
  · rintro stage info ⟨hstage, husername⟩
    rw [createdFor] at hstage
    rw [hstage]
    constructor
    · apply PasswordStage.Allowed.addUser
      apply husername info rfl
    · rintro (e | _)
      · rfl
      · rfl
  · intro stage e h
    apply h.1

/-- A request to create a user obeys its protocol. -/
theorem obeys_createApi (session : Session) :
  (UsersApi.createUser session ip body).run.Obeys (password (.create ip body)).protocol ends .idle
  := by
  apply Async.obeys_raiseIf_bind
  · intro _
    rfl
  · intro _
    apply Coroutine.Obeys.exceptT_bind (Q := ends)
    · apply Coroutine.Obeys.tryCatch obeys_createUser
      · intro stage a h
        apply h
      · rintro stage e rfl
        cases e with
        | serviceError code message =>
            constructor
            · apply PasswordStage.Allowed.audit
            · rintro (e | _)
              · rfl
              · rfl
        | _ => rfl
    · rintro stage user rfl
      constructor
      · apply PasswordStage.Allowed.audit
      · rintro (e | _)
        · rfl
        · rfl
    · intro stage e h
      apply h

end

/-! ### Imports -/

/-- Where an import is once the agent has done its part. -/
def foundFor (username : String) (stage : PasswordStage) : Except Exc UserInfo → Prop
  | .ok info => stage = .found ∧ info.username = username
  | .error _ => stage = .idle

/-- The agent looks an account up that is there, and puts it into the group. -/
theorem obeys_importExisting (username description : String) :
  (UsersHandlers.importExisting ⟨username⟩).run.Obeys (importUser username description).protocol
    (foundFor username) .idle
  := by
  constructor
  · apply PasswordStage.Allowed.getpwnam
  · rintro (e | _ | uid)
    · rfl
    · rfl
    · apply Coroutine.Obeys.exceptT_bind (Q := stageAfter .found fun _ => .idle)
      · apply Coroutine.Obeys.tryCatch (Q := stageAfter .found fun _ => .idle)
        · apply obeys_run (PasswordStage.Allowed.usermod username description)
          · intro result hresult
            simp [PasswordStage.next, stageAfter, hresult]
          · intro result message hresult
            simp [PasswordStage.next, stageAfter, hresult]
          · intro e
            rfl
        · intro stage a h
          apply h
        · intro stage e h
          apply obeys_raiseAs
          · intro message _
            apply h
          · intro _
            apply h
      · intro stage _ h
        exact ⟨h, rfl⟩
      · intro stage e h
        apply h

/-- A request to import a user obeys its protocol: nothing of a password is ever under way. -/
theorem obeys_importApi (session : Session) (username description : String) :
  (UsersApi.importUser session username description).run.Obeys
    (importUser username description).protocol ends .idle
  := by
  apply Async.obeys_raiseIf_bind
  · intro _
    rfl
  · intro _
    apply Coroutine.Obeys.exceptT_bind (Q := ends)
    · apply Coroutine.Obeys.tryCatch (Q := ends)
      · apply Coroutine.Obeys.exceptT_bind (Q := foundFor username)
        · apply Coroutine.Obeys.tryCatch (Q := foundFor username)
          · apply AgentClient.obeys_call (E := foundFor username)
            · intro _
              apply obeys_importExisting
            · intro message _
              rfl
            · rintro stage (e | info) h
              · apply h
              · apply h
          · intro stage a h
            apply h
          · intro stage e h
            cases e
            all_goals apply h
        · rintro stage info ⟨rfl, husername⟩
          constructor
          · apply PasswordStage.Allowed.importUser
            · apply husername
            · rfl
          · rintro (e | _)
            · rfl
            · rfl
        · intro stage e h
          apply h
      · intro stage a h
        apply h
      · intro stage e h
        cases e
        all_goals apply h
    · intro stage user h
      apply h
    · intro stage e h
      apply h

/-- A request obeys its protocol. -/
theorem obeys_api (session : Session) (request : UserRequest) :
  (request.api session).run.Obeys request.protocol ends .idle
  := by
  cases request with
  | password request =>
      cases request with
      | create ip body => apply obeys_createApi
      | setPassword uid newPassword => apply obeys_setPasswordApi
  | importUser username description => apply obeys_importApi

/-- The request of a number. -/
def requestAt (requests : List (Session × UserRequest)) (i : ℕ) : UserRequest :=
  (requests.getD i (⟨0, "", ""⟩, .importUser "" "")).2

/-- The request of a number that there is. -/
theorem requestAt_eq {requests : List (Session × UserRequest)} {i : ℕ} {request : Session × UserRequest}
    (h : requests[i]? = some request) :
  requestAt requests i = request.2
  := by
  rw [requestAt, List.getD_eq_getElem?_getD, h, Option.getD_some]

/-- The requests of a pool obey their protocols. -/
theorem obeying_usersPool (requests : List (Session × UserRequest)) (world : AccountsWorld) :
  (usersPool requests world).Obeying (fun i => (requestAt requests i).protocol) (fun _ => ends)
    fun _ => .idle
  := by
  intro i c hc
  obtain ⟨request, hi, rfl⟩ := Option.map_eq_some_iff.mp (List.getElem?_map ▸ hc)
  dsimp only
  rw [requestAt_eq hi]
  apply obeys_api

end UserRequest
