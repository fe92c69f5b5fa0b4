import NasOs.Users.Requests

/-!
# Passwords and chpasswd

`chpasswd` reads one record a line, `name:password`, split at the first colon.  What a
request writes to it is a single record exactly when the password has no newline in it
(`chpasswd_record_iff`); every line after the first in a password is a record of its own,
which sets the password of whatever account it names.
-/

/-! ### The format -/

/-- The records `chpasswd` reads from its input; a line without a colon is no record. -/
def chpasswdRecords (stdin : String) : List (Option (String × String)) :=
  (Text.records '\n' stdin.toList).map fun line =>
    (Text.splitFirst ':' line).map fun p => (String.ofList p.1, String.ofList p.2)

/-- The line that `set_unix_password` writes. -/
def chpasswdLine (username password : String) : String :=
  username ++ ":" ++ password ++ "\n"

/-- A username has neither a colon nor a newline in it. -/
theorem separators_notMem_of_usernameRe {l : List Char} (h : usernameRe l = true) :
  ':' ∉ l ∧ '\n' ∉ l
  := by
  cases l with
  | nil => simp
  | cons c l =>
      simp only [usernameRe, Bool.and_eq_true, List.all_eq_true] at h
      obtain ⟨⟨hc, -⟩, hl⟩ := h
      constructor
      · intro hmem
        rcases List.mem_cons.mp hmem with rfl | hmem
        · revert hc
          decide
        · have := hl _ hmem
          revert this
          decide
      · intro hmem
        rcases List.mem_cons.mp hmem with rfl | hmem
        · revert hc
          decide
        · have := hl _ hmem
          revert this
          decide

/-- The line written for a user is read as the one record of that user and password exactly
when the password has no newline. -/
theorem chpasswdRecords_line_iff {username password : String}
    (h : usernameRe username.toList = true) :
  chpasswdRecords (chpasswdLine username password) = [some (username, password)]
    ↔ '\n' ∉ password.toList
  := by
  obtain ⟨hcolon, hnewline⟩ := separators_notMem_of_usernameRe h
  have hline : (chpasswdLine username password).toList
      = (username.toList ++ ':' :: password.toList) ++ ['\n'] := by
    simp [chpasswdLine, String.toList_append]
  have hmem : '\n' ∈ username.toList ++ ':' :: password.toList ↔ '\n' ∈ password.toList := by
    simp [hnewline]
  constructor
  · intro hrecords
    have hlength := congrArg List.length hrecords
    rw [chpasswdRecords, List.length_map, hline, List.length_singleton] at hlength
    rw [Text.records_append_sep_length, hmem] at hlength
    apply hlength
  · intro hpassword
    rw [chpasswdRecords, hline, Text.records_append_sep]
    rw [List.splitOn_eq_singleton (mt hmem.mp hpassword)]
    rw [List.map_singleton, Text.splitFirst_append hcolon]
    simp only [Option.map_some, String.ofList_toList]

/-! ### What the requests do -/

/-- The accounts an operation changes the password or the existence of. -/
def accountsChanged : UsersOp → List String
  | .run ["chpasswd"] (some stdin) => (chpasswdRecords stdin).filterMap (·.map Prod.fst)
  | .run ("useradd" :: args) _ => args.getLast?.toList
  | .run ("userdel" :: args) _ => args.getLast?.toList
  | .run ("usermod" :: args) _ => args.getLast?.toList
  | .run ("smbpasswd" :: args) _ => args.getLast?.toList
  | .run ("pdbedit" :: args) _ => args.getLast?.toList
  | _ => []

/-- The operation runs `chpasswd`. -/
def IsChpasswd (op : UsersOp) : Prop :=
  ∃ input, op = .run ["chpasswd"] input

/-- The operations that a request awaits that sets the password of an account. -/
inductive Concerns (account password : String) : UsersOp → Prop where
  | useradd (homeDir description : String) :
      Concerns account password (.run ["useradd", "-m", "-d", homeDir, "-s", "/sbin/nologin",
        "-G", "nasos-users", "-c", description, account] none)
  | id : Concerns account password (.run ["id", "-u", account] none)
  | chpasswd (h : usernameRe account.toList = true) :
      Concerns account password (.run ["chpasswd"] (some (chpasswdLine account password)))
  | smbCreate (stdin : Option String) :
      Concerns account password (.run ["smbpasswd", "-s", "-a", account] stdin)
  | smbSetPassword (stdin : Option String) :
      Concerns account password (.run ["smbpasswd", "-s", account] stdin)
  | addUser (user : User) : Concerns account password (.addUser user)
  | updateUser (user : User) (notification : Option Notification) :
      Concerns account password (.updateUser user notification)
  | audit (entry : AuditLog) : Concerns account password (.audit entry)

/-- A request runs `chpasswd` on the line of its account and password only. -/
theorem Concerns.of_chpasswd {account password : String} {input : Option String}
    (h : Concerns account password (.run ["chpasswd"] input)) :
  usernameRe account.toList = true ∧ input = some (chpasswdLine account password)
  := by
  generalize hop : UsersOp.run ["chpasswd"] input = op at h
  cases h with
  | chpasswd hname =>
      cases hop
      use hname
  | useradd | id | smbCreate | smbSetPassword | addUser | updateUser | audit => simp at hop

/-- Apart from `chpasswd`, the operations of a request change its own account only. -/
theorem Concerns.accountsChanged_of_not_chpasswd {account password : String} {op : UsersOp}
    (h : Concerns account password op) (hop : ¬ IsChpasswd op) :
  ∀ a ∈ accountsChanged op, a = account
  := by
  cases h with
  | chpasswd => apply absurd ⟨_, rfl⟩ hop
  | useradd | id | smbCreate | smbSetPassword | addUser | updateUser | audit =>
      simp [accountsChanged]

section

variable {account password : String}

/-- A command is the only thing that running it awaits. -/
theorem awaits_runOrRaise {P : UsersOp → Prop} {argv : List String} {error : String}
    {input : Option String} (h : P (.run argv input)) :
  (RealPosixUsers.run argv error input).run.Awaits P
  := by
  apply Coroutine.awaits_exceptT_bind
  · use h
    intro r
    trivial
  · intro result
    apply Async.awaits_raiseIf

/-- Raising an exception as another awaits nothing. -/
theorem awaits_raiseAs {P : UsersOp → Prop} (code : String) {α : Type} (e : Exc) :
  (raiseAs code e : UsersM α).run.Awaits P
  := by
  cases e
  all_goals trivial

/-- Creating an account awaits `useradd` and `id` on it. -/
theorem awaits_create (homeDir description : String) :
  (RealPosixUsers.create account homeDir description).run.Awaits (Concerns account password)
  := by
  apply Coroutine.awaits_exceptT_bind
  · apply awaits_runOrRaise (Concerns.useradd homeDir description)
  · intro _
    apply Coroutine.awaits_exceptT_bind
    · use Concerns.id
      intro r
      trivial
    · intro idResult
      apply Coroutine.awaits_exceptT_bind (Async.awaits_raiseIf _ _)
      intro _
      split
      · apply Coroutine.awaits_pure
      · apply Coroutine.awaits_throw

theorem awaits_createHandler (description : String) (h : usernameRe account.toList = true) :
  (UsersHandlers.create ⟨account, password, description⟩).run.Awaits (Concerns account password)
  := by
  apply Coroutine.awaits_exceptT_bind
  · apply Coroutine.awaits_tryCatch
    · apply Coroutine.awaits_exceptT_bind (awaits_create _ description)
      intro uid
      apply Coroutine.awaits_exceptT_bind (awaits_runOrRaise (Concerns.chpasswd h))
      intro _
      apply Coroutine.awaits_exceptT_bind (awaits_runOrRaise (Concerns.smbCreate _))
      intro _
      trivial
    · apply awaits_raiseAs
  · intro uid
    trivial

theorem awaits_setPasswordHandler (h : usernameRe account.toList = true) :
  (UsersHandlers.setPassword ⟨account, password⟩).run.Awaits (Concerns account password)
  := by
  apply Coroutine.awaits_exceptT_bind
  · apply Coroutine.awaits_tryCatch (awaits_runOrRaise (Concerns.chpasswd h))
    apply awaits_raiseAs
  · intro _
    apply Coroutine.awaits_tryCatch (awaits_runOrRaise (Concerns.smbSetPassword _))
    apply awaits_raiseAs

/-- A username that gives no error is one. -/
theorem usernameRe_of_usernameError (h : usernameError account = none) :
  usernameRe account.toList = true
  := by
  rw [usernameError] at h
  split at h
  · assumption
  · cases h

/-- A request to create an account awaits operations on that account only. -/
theorem awaits_createUser (session : Session) (ip : Option String) (body : UserCreateRequest) :
  (UsersApi.createUser session ip body).run.Awaits (Concerns body.username body.password)
  := by
  apply Coroutine.awaits_exceptT_bind
  · apply Async.awaits_raiseIf
  · intro _
    apply Coroutine.awaits_exceptT_bind
    · apply Coroutine.awaits_tryCatch
      · apply Coroutine.awaits_exceptT_bind
        · apply Coroutine.awaits_tryCatch
          · apply AgentClient.awaits_call
            intro h
            apply awaits_createHandler _ (usernameRe_of_usernameError h)
          · intro e
            cases e
            all_goals trivial
        · intro info
          apply Coroutine.awaits_exceptT_bind
          · use Concerns.addUser _
            intro r
            trivial
          · intro _
            trivial
      · intro e
        cases e with
        | serviceError code message =>
            use Concerns.audit _
            rintro (e | _)
            · trivial
            · trivial
        | _ => trivial
    · intro user
      apply Coroutine.awaits_exceptT_bind
      · use Concerns.audit _
        intro r
        trivial
      · intro _
        trivial

/-- Setting the password of a user awaits operations on that user's account only. -/
theorem awaits_setPassword (user : User) :
  (UsersService.setPassword user password).run.Awaits (Concerns user.username password)
  := by
  apply Coroutine.awaits_exceptT_bind
  · apply Coroutine.awaits_tryCatch
    · apply Coroutine.awaits_exceptT_bind
      · apply AgentClient.awaits_call
        intro h
        apply awaits_setPasswordHandler (usernameRe_of_usernameError h)
      · intro _
        trivial
    · intro e
      cases e with
      | rpcCallError code message =>
          by_cases hcode : code ≠ "smb_password_sync_failed"
          · simp only [hcode, if_pos, ne_eq, not_false_eq_true]
            trivial
          · simp only [hcode, if_false]
            trivial
      | _ => trivial
  · rintro ⟨user', notification⟩
    apply Coroutine.awaits_exceptT_bind
    · use Concerns.updateUser _ _
      intro r
      trivial
    · intro _
      trivial

end

/-! ### Accepted requests run chpasswd -/

section

variable {account password : String}

theorem visits_setUnixPassword (Q : Except Exc Unit → Prop) :
  (RealPosixUsers.setUnixPassword account password).run.Visits IsChpasswd Q
  := Or.inl ⟨_, rfl⟩

/-- An account is created only when its password was set. -/
theorem visits_createHandler (description : String) :
  (UsersHandlers.create ⟨account, password, description⟩).run.Visits IsChpasswd
    Coroutine.Returned
  := by
  apply Coroutine.visits_exceptT_bind_left
  apply Coroutine.visits_tryCatch
  · apply Coroutine.visits_exceptT_bind_right
    intro uid
    apply Coroutine.visits_exceptT_bind_left
    apply visits_setUnixPassword
  · intro e
    cases e
    all_goals apply Coroutine.not_returned_error

/-- Setting a password starts with `chpasswd`, whatever follows. -/
theorem visits_setPasswordHandler (Q : Except Exc Unit → Prop) :
  (UsersHandlers.setPassword ⟨account, password⟩).run.Visits IsChpasswd Q
  := Or.inl ⟨_, rfl⟩

theorem visits_createUser (session : Session) (ip : Option String) (body : UserCreateRequest) :
  (UsersApi.createUser session ip body).run.Visits IsChpasswd Coroutine.Returned
  := by
  apply Coroutine.visits_exceptT_bind_right
  intro _
  apply Coroutine.visits_exceptT_bind_left
  apply Coroutine.visits_tryCatch
  · apply Coroutine.visits_exceptT_bind_left
    apply Coroutine.visits_tryCatch
    · apply AgentClient.visits_call
      intro _
      apply visits_createHandler
    · intro e
      cases e
      all_goals apply Coroutine.not_returned_error
  · intro e
    cases e with
    | serviceError code message =>
        apply Coroutine.visits_exceptT_bind_right
        intro _
        apply Coroutine.not_returned_error
    | _ => apply Coroutine.not_returned_error

/-- A failed call is not the failure of the params to validate. -/
def Validated {α : Type} (a : Except Exc α) : Prop :=
  ∀ message, a ≠ .error (.other message)

/-- The call sets the Unix password, unless its params do not validate. -/
theorem visits_setPasswordCall (user : User) :
  (AgentClient.call (fun p => usernameError p.username) UsersHandlers.setPassword
      ⟨user.username, password⟩).run.Visits IsChpasswd Validated
  := by
  generalize herror : (fun p : UserSetPasswordParams => usernameError p.username) = error
  cases h : error ⟨user.username, password⟩ with
  | none =>
      rw [AgentClient.call_of_valid h]
      apply (visits_setPasswordHandler fun _ => True).bind
      intro a
      left
      trivial
  | some message =>
      rw [AgentClient.call_of_invalid h]
      intro hvalidated
      apply hvalidated message rfl

/-- A password is reported as set only when the Unix password was. -/
theorem visits_setPassword (user : User) :
  (UsersService.setPassword user password).run.Visits IsChpasswd Coroutine.Returned
  := by
  apply Coroutine.visits_exceptT_bind_left
  apply Coroutine.Visits.bind (R := Validated)
  · apply (visits_setPasswordCall user).bind
    rintro (e | a)
    · by_cases he : ∃ message, e = .other message
      · obtain ⟨message, rfl⟩ := he
        right
        intro hvalidated
        apply hvalidated message rfl
      · left
        rintro message ⟨⟩
        apply he ⟨message, rfl⟩
    · left
      rintro message ⟨⟩
  · rintro (e | a)
    · cases e with
      | rpcCallError code message =>
          left
          rintro message' ⟨⟩
      | _ =>
          right
          apply Coroutine.not_returned_error
    · left
      rintro message ⟨⟩

end

/-! ### The requests that take a password -/

/-- A request that takes a password: the creation of an account, from an address, or the
change of the password of the user with a uid. -/
inductive PasswordRequest where
  | create (ip : Option String) (body : UserCreateRequest)
  | setPassword (uid : ℤ) (password : String)

namespace PasswordRequest

/-- The password the request takes. -/
def password : PasswordRequest → String
  | .create _ body => body.password
  | .setPassword _ password => password

/-- What the API does with the request. -/
def api (session : Session) : PasswordRequest → UsersM UserOut
  | .create ip body => UsersApi.createUser session ip body
  | .setPassword uid password => UsersApi.setPassword session uid password

/-- The account the request names: the one in its body, or the one in the row of its uid,
which is what the request looks up first. -/
def account (h : List (Event UsersOp UsersOp.Answer)) : PasswordRequest → Option String
  | .create _ body => some body.username
  | .setPassword _ _ =>
      match h with
      | ⟨.getUser _, .ok (some user)⟩ :: _ => some user.username
      | _ => none

end PasswordRequest

/-- The operation gives `chpasswd` nothing but the one record of the account and password,
and changes no other account. -/
def KeepsTo (account password : String) (op : UsersOp) : Prop :=
  (∀ input, op = .run ["chpasswd"] input →
      ∃ stdin, input = some stdin ∧ chpasswdRecords stdin = [some (account, password)])
    ∧ ∀ a ∈ accountsChanged op, a = account

/-- A request to set a password looks a user up, and then sets that user's password. -/
theorem setPassword_run (session : Session) (uid : ℤ) (password : String) :
  (UsersApi.setPassword session uid password).run
      = .done (.error (.httpException 403 "can only change your own password"))
    ∨ (UsersApi.setPassword session uid password).run
      = .await (.getUser uid) fun
          | .ok (some user) => ExceptT.run do
              let updated ← tryCatch (UsersService.setPassword user password) badRequest
              pure (.fromModel updated)
          | .ok none => .done (.error (.httpException 404 "no such user"))
          | .error e => .done (.error e)
  := by
  by_cases h : session.role ≠ "admin" ∧ session.uid ≠ uid
  · left
    simp only [UsersApi.setPassword, Async.raiseIf, if_pos h]
    rfl
  · right
    simp only [UsersApi.setPassword, Async.raiseIf, if_neg h]
    apply congrArg (Coroutine.await (UsersOp.getUser uid))
    funext r
    rcases r with e | _ | user
    all_goals rfl

/-- Every operation of a request looks its user up or concerns the account it names. -/
theorem concerns_of_follows {session : Session} {request : PasswordRequest}
    {h : List (Event UsersOp UsersOp.Answer)} {c : Coroutine UsersOp UsersOp.Answer _}
    (hf : (request.api session).run.Follows h c) :
  ∀ e ∈ h, (∃ uid, e.1 = .getUser uid)
    ∨ ∃ account, request.account h = some account ∧ Concerns account request.password e.1
  := by
  intro e he
  cases request with
  | create ip body =>
      right
      use body.username, rfl
      apply (hf.awaits (awaits_createUser session ip body)).1 e he
  | setPassword uid password =>
      rcases setPassword_run session uid password with hrun | hrun
      · rw [PasswordRequest.api, hrun, Coroutine.follows_done] at hf
        rw [hf.1] at he
        cases he
      · rw [PasswordRequest.api, hrun, Coroutine.follows_await] at hf
        rcases hf with ⟨rfl, -⟩ | ⟨r, h', rfl, hf⟩
        · cases he
        rcases List.mem_cons.mp he with rfl | hmem
        · left
          use uid
        · right
          rcases r with error | _ | user
          · obtain ⟨rfl, -⟩ := Coroutine.follows_done.mp hf
            cases hmem
          · obtain ⟨rfl, -⟩ := Coroutine.follows_done.mp hf
            cases hmem
          · use user.username, rfl
            apply (hf.awaits _).1 e hmem
            apply Coroutine.awaits_exceptT_bind
            · apply Coroutine.awaits_tryCatch (awaits_setPassword user)
              intro e
              cases e
              all_goals trivial
            · intro updated
              trivial

/-- A request is accepted only when `chpasswd` was run. -/
theorem chpasswd_of_accepted {session : Session} {request : PasswordRequest}
    {h : List (Event UsersOp UsersOp.Answer)} {out : UserOut}
    (hf : (request.api session).run.Follows h (.done (.ok out))) :
  ∃ e ∈ h, IsChpasswd e.1
  := by
  apply hf.visits (Q := Coroutine.Returned) (Coroutine.returned_ok out)
  cases request with
  | create ip body => apply visits_createUser
  | setPassword uid password =>
      rw [PasswordRequest.api]
      rcases setPassword_run session uid password with hrun | hrun
      · rw [hrun]
        apply Coroutine.not_returned_error
      · rw [hrun]
        right
        rintro (error | _ | user)
        · apply Coroutine.not_returned_error
        · apply Coroutine.not_returned_error
        · apply Coroutine.visits_exceptT_bind_left
          apply Coroutine.visits_tryCatch (visits_setPassword user)
          intro e
          cases e
          all_goals apply Coroutine.not_returned_error

/-- What a request does keeps to the account and password it names exactly when the
password has no newline, or `chpasswd` was not run; an accepted request has run it. -/
theorem chpasswd_record_iff {session : Session} {request : PasswordRequest}
    {h : List (Event UsersOp UsersOp.Answer)} {c : Coroutine UsersOp UsersOp.Answer _}
    (hf : (request.api session).run.Follows h c) :
  ((∀ account ∈ request.account h, ∀ e ∈ h, KeepsTo account request.password e.1)
      ↔ '\n' ∉ request.password.toList ∨ ∀ e ∈ h, ¬ IsChpasswd e.1)
    ∧ ∀ out, c = .done (.ok out) → ∃ e ∈ h, IsChpasswd e.1
  := by
  constructor
  · constructor
    · intro hkeeps
      by_cases hchpasswd : ∃ e ∈ h, IsChpasswd e.1
      · left
        obtain ⟨e, he, input, hop⟩ := hchpasswd
        rcases concerns_of_follows hf e he with ⟨uid, huid⟩ | ⟨account, haccount, hconcerns⟩
        · rw [hop] at huid
          cases huid
        · obtain ⟨stdin, hstdin, hrecords⟩ := (hkeeps account haccount e he).1 input hop
          rw [hop] at hconcerns
          obtain ⟨hname, hinput⟩ := hconcerns.of_chpasswd
          cases hstdin.symm.trans hinput
          apply (chpasswdRecords_line_iff hname).mp hrecords
      · right
        intro e he hop
        apply hchpasswd ⟨e, he, hop⟩
    · intro hpassword account haccount e he
      rcases concerns_of_follows hf e he with ⟨uid, huid⟩ | ⟨account', haccount', hconcerns⟩
      · rw [huid]
        constructor
        · rintro input ⟨⟩
        · simp [accountsChanged]
      · obtain rfl : account' = account := by
          rw [haccount'] at haccount
          apply Option.some_inj.mp haccount
        by_cases hop : IsChpasswd e.1
        · have hnewline := hpassword.resolve_right fun hno => hno e he hop
          obtain ⟨input, hop⟩ := hop
          rw [hop] at hconcerns ⊢
          obtain ⟨hname, rfl⟩ := hconcerns.of_chpasswd
          have hrecords := (chpasswdRecords_line_iff hname).mpr hnewline
          constructor
          · rintro input ⟨⟩
            use chpasswdLine account' request.password, rfl
          · simp [accountsChanged, hrecords]
        · constructor
          · intro input hinput
            apply absurd ⟨input, hinput⟩ hop
          · apply hconcerns.accountsChanged_of_not_chpasswd hop
  · rintro out rfl
    apply chpasswd_of_accepted hf

/-- What happens when alice, who is no admin, sets her password, up to `chpasswd`. -/
def aliceHistory (password : String) : List (Event UsersOp UsersOp.Answer) :=
  [⟨.getUser 1001, .ok (some ⟨1001, "alice", none, true, false, true, true⟩)⟩,
    ⟨.run ["chpasswd"] (some (chpasswdLine "alice" password)), .ok ⟨0, "", ""⟩⟩]

/-- A password without a newline sets the password of alice and nothing else. -/
theorem chpasswd_record_iff_alice :
  KeepsTo "alice" "hunter2" (.run ["chpasswd"] (some (chpasswdLine "alice" "hunter2")))
  := by
  obtain ⟨c, hf⟩ : ∃ c, ((PasswordRequest.setPassword 1001 "hunter2").api
      ⟨1001, "alice", "user"⟩).run.Follows (aliceHistory "hunter2") c :=
    Coroutine.follows_of_replay (by decide)
  obtain ⟨hiff, -⟩ := chpasswd_record_iff hf
  apply hiff.mpr (Or.inl (by decide)) "alice" rfl
    ⟨.run ["chpasswd"] (some (chpasswdLine "alice" "hunter2")), .ok ⟨0, "", ""⟩⟩
  simp [aliceHistory]

/-- A password with a newline in it sets the password of another account: root's, by a user
who may change their own only. -/
theorem chpasswd_other_account :
  ¬ ∀ (session : Session) (request : PasswordRequest) (h : List (Event UsersOp UsersOp.Answer))
      (c : Coroutine UsersOp UsersOp.Answer (Except Exc UserOut)),
      (request.api session).run.Follows h c →
      ∀ account ∈ request.account h, ∀ e ∈ h, KeepsTo account request.password e.1
  := by
  intro hall
  obtain ⟨c, hf⟩ : ∃ c, ((PasswordRequest.setPassword 1001 "x\nroot:pwned").api
      ⟨1001, "alice", "user"⟩).run.Follows (aliceHistory "x\nroot:pwned") c :=
    Coroutine.follows_of_replay (by decide)
  have hkeeps : KeepsTo "alice" "x\nroot:pwned"
      (.run ["chpasswd"] (some "alice:x\nroot:pwned\n")) :=
    hall _ _ _ _ hf "alice" rfl
      ⟨.run ["chpasswd"] (some "alice:x\nroot:pwned\n"), .ok ⟨0, "", ""⟩⟩
      (by simp [aliceHistory, chpasswdLine])
  have hroot : "root" ∈ accountsChanged (.run ["chpasswd"] (some "alice:x\nroot:pwned\n")) := by
    decide
  have := hkeeps.2 "root" hroot
  revert this
  decide
