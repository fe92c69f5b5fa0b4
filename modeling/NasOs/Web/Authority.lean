import NasOs.Library.Protocol
import NasOs.Shares.World
import NasOs.Web.Requests

/-!
# By whose authority

Requests are served at the same time, accounts come and go, and a session outlives what it was issued
for.  What is awaited about accounts, groups, shares, volumes and plans goes back to a login all the
same: whenever a request awaits such an operation, it carried the token of a session, a login issued
that token earlier in the run and no logout took it back before it was looked up, and PAM accepted the
password of that login when it was asked, of an account that was in `nasos-admin` then.  The exceptions
are those that the source makes: every user may set their own password, has a file worker of their own,
and may read the tables and the inventory of the disks.
-/

/-! ### What PAM accepts -/

/-- An identity is that of an account whose password was accepted, and its role is that of the groups of
the account. -/
theorem PamAuthenticator.authenticateSync_eq_some {db : PosixDatabase} {username password : String}
    {identity : AuthLoginResult}
    (h : authenticateSync db username password = some identity) :
  db.accepts username password = true
    ∧ ∃ account, db.getpwnam username = some account ∧ identity.uid = account.uid
        ∧ identity.username = username
        ∧ (identity.role = "admin" ∧ "nasos-admin" ∈ db.groupNames account
          ∨ identity.role = "user" ∧ "nasos-users" ∈ db.groupNames account)
  := by
  rw [authenticateSync] at h
  split at h
  · rename_i haccepts
    use haccepts
    split at h
    · cases h
    · rename_i account haccount
      use account, haccount
      split at h
      · rename_i hadmin
        cases h
        exact ⟨rfl, rfl, .inl ⟨rfl, hadmin⟩⟩
      · split at h
        · rename_i huser
          cases h
          exact ⟨rfl, rfl, .inr ⟨rfl, huser⟩⟩
        · cases h
  · cases h

/-! ### What an endpoint may await -/

/-- What an account may have a request await: an admin anything that its endpoint does, others only what
sets their own password, and everyone a file worker of their own and what endpoints only show. -/
def SessionCall.Grants (call : SessionCall) (admin : Prop) (uid : ℤ) (username : String) : WebOp → Prop
  | .ensureWorker uid' username' =>
      (∃ route, call = .files route) ∧ uid' = uid ∧ username' = username
  | .shares _ => admin ∨ ∃ password, call = .setPassword uid password
  | .read route => call = .read route
  | .inventory => admin ∨ call = .getInventory
  | .drawPlan => admin
  | .addPlan _ => admin
  | .plan _ => admin
  | .registerVolume _ => admin
  | .addVolume _ => admin
  | _ => False

/-- What is granted to some is granted to admins. -/
theorem SessionCall.Grants.mono {call : SessionCall} {admin admin' : Prop} {uid : ℤ} {username : String}
    {op : WebOp} (h : call.Grants admin uid username op) (hadmin : admin → admin') :
  call.Grants admin' uid username op
  := by
  cases op with
  | ensureWorker uid' username' => apply h
  | read route => apply h
  | shares op => exact Or.imp_left hadmin h
  | inventory => exact Or.imp_left hadmin h
  | drawPlan => exact hadmin h
  | addPlan plan => exact hadmin h
  | plan op => exact hadmin h
  | registerVolume mountpoint => exact hadmin h
  | addVolume volume => exact hadmin h
  | _ => exact h.elim

/-- What a session grants. -/
def SessionCall.GrantsIn (call : SessionCall) (session : DbSession) : WebOp → Prop :=
  call.Grants (session.role = "admin") session.uid session.username

/-- An operation that a session is needed for. -/
def WebOp.IsGuarded : WebOp → Prop
  | .ensureWorker _ _ | .shares _ | .read _ | .inventory | .drawPlan | .addPlan _ | .plan _
  | .registerVolume _ | .addVolume _ => True
  | _ => False

/-- Without the role of an admin, what needs it raises at once. -/
theorem requireAdmin_bind_of_ne {α : Type} {session : Session} (h : session.role ≠ "admin")
    (f : Unit → UsersM α) :
  requireAdmin session >>= f = throw (.httpException 403 "admin role required")
  := Async.raiseIf_bind_of h f

/-- A request that does nothing where it is not granted awaits only what is granted. -/
theorem WebM.awaits_ofShares {α : Type} {call : SessionCall} {session : DbSession} {c : SharesM α}
    (h : call.GrantsIn session (.shares .listShares) ∨ ∃ e, c = throw e) :
  (WebM.ofShares c).run.Awaits (call.GrantsIn session)
  := by
  rcases h with h | ⟨e, rfl⟩
  · apply Coroutine.Awaits.interpret (Coroutine.awaits_of_forall (fun _ => trivial) c.run)
    intro op _
    exact ⟨h, fun _ => trivial⟩
  · trivial

/-- The same, where what it returns is not looked at. -/
theorem WebM.awaits_ofShares_bind {α : Type} {call : SessionCall} {session : DbSession} {c : SharesM α}
    (h : call.GrantsIn session (.shares .listShares) ∨ ∃ e, c = throw e) :
  (WebM.ofShares c >>= fun _ => (pure () : WebM Unit)).run.Awaits (call.GrantsIn session)
  := by
  apply Coroutine.awaits_exceptT_bind (WebM.awaits_ofShares h)
  intro _
  trivial

/-- Answering an error awaits nothing. -/
theorem StorageApi.awaits_answer400 {P : WebOp → Prop} {α : Type} (answer : Except Exc α) :
  (answer400 answer).run.Awaits P
  := by
  rcases answer with (_ | _ | _ | _ | _ | _) | _
  all_goals trivial

/-- Registering a volume awaits only what admins are granted. -/
theorem VolumesApi.awaits_registerVolume (call : SessionCall) (session : DbSession)
    (name mountpoint : String) :
  (registerVolume session.forApi name mountpoint).run.Awaits (call.GrantsIn session)
  := by
  rw [registerVolume]
  by_cases hrole : session.forApi.role = "admin"
  · rw [Async.raiseIf_bind_of_not (not_not_intro hrole)]
    apply Coroutine.awaits_exceptT_bind
    · apply Coroutine.awaits_tryCatch
      · exact ⟨hrole, fun _ => trivial⟩
      · rintro (_ | _ | _ | _ | _ | _)
        all_goals trivial
    · intro info
      exact ⟨hrole, by rintro (_ | _) <;> trivial⟩
  · rw [Async.raiseIf_bind_of hrole]
    trivial

/-- Making a plan awaits only what admins are granted. -/
theorem StorageApi.awaits_createPlan (settings : WebSettings) (call : SessionCall) (session : DbSession)
    (request : CreatePlanRequest) :
  (createPlan settings session.forApi request).run.Awaits (call.GrantsIn session)
  := by
  rw [createPlan]
  by_cases hrole : session.forApi.role = "admin"
  · rw [Async.raiseIf_bind_of_not (not_not_intro hrole)]
    apply Coroutine.awaits_exceptT_bind (awaits_answer400 _)
    intro _
    refine ⟨.inl hrole, fun answer => ⟨hrole, fun drawn => ?_⟩⟩
    apply Coroutine.awaits_exceptT_bind (awaits_answer400 _)
    intro created
    exact ⟨hrole, fun _ => trivial⟩
  · rw [Async.raiseIf_bind_of hrole]
    trivial

/-- Executing a plan awaits only what admins are granted. -/
theorem StorageApi.awaits_executePlanAs (hmac : String → String) (call : SessionCall)
    (session : DbSession) (request : ExecutePlanRequest) :
  (executePlanAs hmac session.forApi request).run.Awaits (call.GrantsIn session)
  := by
  rw [executePlanAs]
  by_cases hrole : session.forApi.role = "admin"
  · rw [Async.raiseIf_bind_of_not (not_not_intro hrole)]
    apply Coroutine.Awaits.interpret (Coroutine.awaits_of_forall (fun _ => trivial) _)
    intro op _
    exact ⟨hrole, fun _ => trivial⟩
  · rw [Async.raiseIf_bind_of hrole]
    trivial

/-- An endpoint awaits only what it is granted. -/
theorem SessionCall.awaits_program (settings : WebSettings) (ip : Option String) (session : DbSession)
    (call : SessionCall) :
  (call.program settings ip session).run.Awaits (call.GrantsIn session)
  := by
  have hadmin {call : SessionCall} {α : Type} {c : SharesM α}
      (hc : session.forApi.role ≠ "admin" → ∃ e, c = throw e) :
      call.GrantsIn session (.shares .listShares) ∨ ∃ e, c = throw e := by
    by_cases hrole : session.role = "admin"
    · exact .inl (.inl hrole)
    · exact .inr (hc hrole)
  have husers {α : Type} (f : Unit → UsersM α) (hrole : session.forApi.role ≠ "admin") :
      ∃ e, SharesM.ofUsers (requireAdmin session.forApi >>= f) = throw e := by
    rw [requireAdmin_bind_of_ne hrole]
    exact ⟨_, rfl⟩
  have hshares {α : Type} (f : Unit → SharesM α) (hrole : session.forApi.role ≠ "admin") :
      ∃ e, SharesM.ofUsers (requireAdmin session.forApi) >>= f = throw e := by
    rw [requireAdmin, Async.raiseIf, if_pos hrole]
    exact ⟨_, rfl⟩
  cases call with
  | me => trivial
  | read route => exact ⟨rfl, fun _ => trivial⟩
  | getInventory => exact ⟨.inr rfl, fun _ => trivial⟩
  | files route =>
      apply Coroutine.awaits_exceptT_bind
      · apply AgentClient.awaits_call
        intro _
        exact ⟨⟨⟨route, rfl⟩, rfl, rfl⟩, fun _ => trivial⟩
      · intro _
        trivial
  | createUser body => exact WebM.awaits_ofShares_bind (hadmin (husers _))
  | importUser username description => exact WebM.awaits_ofShares_bind (hadmin (husers _))
  | updateUser uid body => exact WebM.awaits_ofShares_bind (hadmin (husers _))
  | setPassword uid password =>
      apply WebM.awaits_ofShares_bind
      by_cases hrole : session.forApi.role ≠ "admin" ∧ session.forApi.uid ≠ uid
      · right
        rw [UsersApi.setPassword, Async.raiseIf_bind_of hrole]
        exact ⟨_, rfl⟩
      · rw [not_and_or, not_not, not_not] at hrole
        rcases hrole with hrole | hown
        · exact .inl (.inl hrole)
        · exact .inl (.inr ⟨password, by rw [← hown]; rfl⟩)
  | deleteUser uid deleteHome => exact WebM.awaits_ofShares (hadmin (husers _))
  | createGroup name description => exact WebM.awaits_ofShares_bind (hadmin (hshares _))
  | deleteGroup gid => exact WebM.awaits_ofShares (hadmin (hshares _))
  | addMember gid username => exact WebM.awaits_ofShares (hadmin (hshares _))
  | removeMember gid username => exact WebM.awaits_ofShares (hadmin (hshares _))
  | createShare body => exact WebM.awaits_ofShares_bind (hadmin (hshares _))
  | deleteShare shareId deleteFiles => exact WebM.awaits_ofShares (hadmin (hshares _))
  | setPermissions shareId body => exact WebM.awaits_ofShares_bind (hadmin (hshares _))
  | registerVolume name mountpoint =>
      apply Coroutine.awaits_exceptT_bind (VolumesApi.awaits_registerVolume _ session name mountpoint)
      intro _
      trivial
  | createPlan request =>
      apply Coroutine.awaits_exceptT_bind (StorageApi.awaits_createPlan settings _ session request)
      intro _
      trivial
  | executePlan request =>
      apply Coroutine.awaits_exceptT_bind
        (StorageApi.awaits_executePlanAs settings.hmac _ session request)
      intro _
      trivial

/-! ### The stages of a request -/

/-- How far a request has come: PAM accepted its password, or its token was resolved. -/
inductive WebStage where
  | arrived
  | authenticated (username password : String) (identity : AuthLoginResult)
  | admitted (token : String) (session : DbSession)

namespace WebRequest

/-- The guard lets a request through. -/
def Passes (r : WebRequest) : Prop :=
  csrfGuard r.call.method r.call.path r.csrfHeader = false

/-- A login is authenticated and then adds a session of the identity; what an endpoint with a session
awaits comes after its token was resolved, and is granted. -/
def protocol (r : WebRequest) : Protocol WebOp WebOp.Answer WebStage where
  allowed stage op :=
    match stage, op with
    | .arrived, .resolveSession token => r.cookie = some token
    | .arrived, .authenticate _ _ => True
    | .arrived, .destroySession _ => True
    | .arrived, .auditLogin _ => True
    | .authenticated _ _ identity, .createSession identity' _ _ => identity' = identity
    | .authenticated _ _ _, .auditLogin _ => True
    | .admitted _ session, op =>
        r.Passes ∧ ∃ call, r.call = .session call ∧ call.GrantsIn session op
    | _, _ => False
  next stage op :=
    match stage, op with
    | .arrived, .authenticate username password => fun
        | .ok (some identity) => .authenticated username password identity
        | _ => .arrived
    | .arrived, .resolveSession token => fun
        | some session => .admitted token session
        | none => .arrived
    | stage, _ => fun _ => stage

variable {settings : WebSettings} {r : WebRequest}

/-- An audit row of a login leaves the stage as it is. -/
theorem obeys_record {stage : WebStage} (entry : LoginAudit)
    (h : ∀ token session, stage ≠ .admitted token session) :
  (AuthApi.record entry).run.Obeys r.protocol (fun s _ => s = stage) stage
  := by
  cases stage with
  | arrived => exact ⟨trivial, fun _ => rfl⟩
  | authenticated username password identity => exact ⟨trivial, fun _ => rfl⟩
  | admitted token session => exact absurd rfl (h token session)

/-- A login that goes on has the identity that was answered for what it was given. -/
def Identified (body : AuthLoginParams) (stage : WebStage) : Except Exc AuthLoginResult → Prop
  | .ok identity => stage = .authenticated body.username body.password identity
  | .error _ => stage = .arrived

/-- A login obeys the protocol. -/
theorem obeys_login (ip userAgent : Option String) (body : AuthLoginParams) :
  (AuthApi.login ip userAgent body).run.Obeys r.protocol (fun _ _ => True) .arrived
  := by
  have hcall : (AgentClient.call (fun params => usernameError params.username) AuthHandlers.login
      body).run.Obeys r.protocol (Identified body) .arrived := by
    apply AgentClient.obeys_call (E := Identified body)
    · intro _
      refine ⟨trivial, ?_⟩
      rintro (e | _ | identity)
      · rfl
      · rfl
      · rfl
    · intro message _
      rfl
    · rintro stage (e | identity) h
      · apply h
      · apply h
  apply Coroutine.Obeys.exceptT_bind (Q := Identified body)
  · apply hcall.tryCatch
    · intro stage identity h
      apply h
    · rintro stage e rfl
      cases e with
      | rpcCallError code message =>
          apply (obeys_record _ (by rintro _ _ ⟨⟩)).exceptT_bind
          · rintro stage _ rfl
            rfl
          · rintro stage e rfl
            rfl
      | _ => rfl
  · rintro stage identity rfl
    refine ⟨rfl, ?_⟩
    rintro (e | token)
    · trivial
    · apply (obeys_record _ (by rintro _ _ ⟨⟩)).exceptT_bind
      · intro _ _ _
        trivial
      · intro _ _ _
        trivial
  · intro _ _ _
    trivial

/-- A logout obeys the protocol. -/
theorem obeys_logout (cookie : Option String) :
  (AuthApi.logout cookie).run.Obeys r.protocol (fun _ _ => True) .arrived
  := by
  rw [AuthApi.logout.eq_def]
  split
  · trivial
  · split
    · trivial
    · exact ⟨trivial, fun _ => trivial⟩

/-- What is granted is allowed to a request that is admitted, and leaves it admitted. -/
theorem obeys_granted {token : String} {session : DbSession} {call : SessionCall} {c : WebM Unit}
    (hpasses : r.Passes) (hcall : r.call = .session call) (hc : c.run.Awaits (call.GrantsIn session)) :
  c.run.Obeys r.protocol (fun _ _ => True) (.admitted token session)
  := by
  apply (Coroutine.Obeys.of_awaits hc _).mono
  · intro _ _ _
    trivial
  · intro op hop
    refine ⟨⟨hpasses, call, hcall, hop⟩, ?_⟩
    intro answer
    cases op with
    | _ => rfl

/-- Every request obeys the protocol. -/
theorem obeys_program (settings : WebSettings) (r : WebRequest) :
  (r.program settings).run.Obeys r.protocol (fun _ _ => True) .arrived
  := by
  rw [program]
  apply Async.obeys_raiseIf_bind
  · intro _
    trivial
  intro hpasses
  rw [Bool.not_eq_true] at hpasses
  rw [endpoint]
  cases hcall : r.call with
  | login body =>
      apply (obeys_login r.ip r.userAgent body).exceptT_bind
      · intro _ _ _
        trivial
      · intro _ _ _
        trivial
  | logout => apply obeys_logout
  | session call =>
      have hsession : (getCurrentSession r.cookie).run.Obeys r.protocol
          (fun stage a => ∀ session, a = .ok session → ∃ token, stage = .admitted token session)
          .arrived := by
        rw [getCurrentSession.eq_def]
        split
        · rintro _ ⟨⟩
        · rename_i token hcookie
          split
          · rintro _ ⟨⟩
          · refine ⟨hcookie, ?_⟩
            rintro (_ | session)
            · rintro _ ⟨⟩
            · rintro _ ⟨⟩
              exact ⟨token, rfl⟩
      apply hsession.exceptT_bind
      · rintro stage session h
        obtain ⟨token, rfl⟩ := h session rfl
        apply obeys_granted hpasses hcall
        apply call.awaits_program
      · intro _ _ _
        trivial

end WebRequest

/-! ### Sessions go back to logins -/

/-- Two rows of the `sessions` table are of one token and one account. -/
structure DbSession.SameAccount (row row' : DbSession) : Prop where
  tokenHash : row'.tokenHash = row.tokenHash
  uid : row'.uid = row.uid
  username : row'.username = row.username
  role : row'.role = row.role

/-- A login: the request that it is, what was given, and the identity and the token it got. -/
structure WebLogin where
  task : ℕ
  username : String
  password : String
  identity : AuthLoginResult
  ip : Option String
  userAgent : Option String
  token : String

/-- A login issued the token of a session: in the history the password was accepted, then the session was
created, and since then the token was not logged out. -/
structure WebLogin.Issues (login : WebLogin) (hash : String → String)
    (history : List (ℕ × Event WebOp WebOp.Answer)) (session : DbSession) : Prop where
  created : ∃ before after,
    history = before
        ++ (login.task, ⟨.createSession login.identity login.ip login.userAgent, .ok login.token⟩)
          :: after
      ∧ (login.task, ⟨.authenticate login.username login.password, .ok (some login.identity)⟩) ∈ before
      ∧ ∀ e ∈ after, e.2.1 ≠ .destroySession login.token
  tokenHash : session.tokenHash = hash login.token
  uid : session.uid = login.identity.uid
  username : session.username = login.identity.username
  role : session.role = login.identity.role

/-- Whatever happens but a logout, a login has issued the token of a session. -/
theorem WebLogin.Issues.snoc {login : WebLogin} {hash : String → String}
    {history : List (ℕ × Event WebOp WebOp.Answer)} {row row' : DbSession}
    (h : login.Issues hash history row) (hsame : row.SameAccount row')
    {e : ℕ × Event WebOp WebOp.Answer} (he : e.2.1 ≠ .destroySession login.token) :
  login.Issues hash (history ++ [e]) row'
  := by
  obtain ⟨before, after, rfl, haccepted, hkept⟩ := h.created
  constructor
  · refine ⟨before, after ++ [e], by simp, haccepted, ?_⟩
    intro e' he'
    rcases List.mem_append.mp he' with he' | he'
    · apply hkept e' he'
    · rw [List.mem_singleton.mp he']
      apply he
  · rw [hsame.tokenHash, h.tokenHash]
  · rw [hsame.uid, h.uid]
  · rw [hsame.username, h.username]
  · rw [hsame.role, h.role]

namespace WebWorld

variable {hash : String → String} {idleTimeoutMinutes : ℤ} {w : WebWorld}

/-- A session that is resolved is there, and was there for the same account. -/
theorem find?_resolveSession {s : SessionWorld} {token : String} {idleTimeout : ℤ} {key : String}
    {row : DbSession}
    (h : (s.resolveSession hash token idleTimeout).2.sessions.find? key = some row) :
  ∃ row₀, s.sessions.find? key = some row₀ ∧ row₀.SameAccount row
  := by
  rw [SessionWorld.resolveSession] at h
  split at h
  · exact ⟨row, h, rfl, rfl, rfl, rfl⟩
  · rename_i row₁ hfound
    split at h
    · rw [Table.find?_erase] at h
      split at h
      · cases h
      · exact ⟨row, h, rfl, rfl, rfl, rfl⟩
    · rw [Table.find?_replace] at h
      obtain ⟨row₀, hrow₀, heq⟩ := Option.map_eq_some_iff.mp h
      refine ⟨row₀, hrow₀, ?_⟩
      split at heq
      · rename_i hkey
        cases heq
        have hrows : row₁ = row₀ := by
          rw [← Option.some_inj, ← hfound, ← hrow₀]
          congr 1
          rw [← hkey]
          exact (Table.find?_eq_some_iff.mp hfound).2.symm
        cases hrows
        exact ⟨rfl, rfl, rfl, rfl⟩
      · cases heq
        exact ⟨rfl, rfl, rfl, rfl⟩

/-- What resolves is a session that is there, of the same account. -/
theorem resolveSession_eq_some {s : SessionWorld} {token : String} {idleTimeout : ℤ} {row : DbSession}
    (h : (s.resolveSession hash token idleTimeout).1 = some row) :
  ∃ row₀, s.sessions.find? (hash token) = some row₀ ∧ row₀.SameAccount row
  := by
  rw [SessionWorld.resolveSession] at h
  split at h
  · cases h
  · rename_i row₀ hfound
    split at h
    · cases h
    · cases h
      exact ⟨row₀, hfound, rfl, rfl, rfl, rfl⟩

/-- A session that is there after an operation was added by it, or was there before for the same account
and was not logged out. -/
theorem find?_perform {op : WebOp} {choice : WebChoice} {answer : op.Answer} {w' : WebWorld}
    (hperform : w.perform hash idleTimeoutMinutes op choice = (answer, w')) {key : String}
    {row : DbSession} (h : w'.sessions.sessions.find? key = some row) :
  (∃ row₀, w.sessions.sessions.find? key = some row₀ ∧ row₀.SameAccount row
      ∧ ∀ token, op = .destroySession token → key ≠ hash token)
    ∨ ∃ identity ip userAgent token, (⟨op, answer⟩ : Event WebOp WebOp.Answer)
          = ⟨.createSession identity ip userAgent, .ok token⟩
        ∧ row.tokenHash = hash token ∧ row.uid = identity.uid ∧ row.username = identity.username
        ∧ row.role = identity.role
  := by
  have hsame : row.SameAccount row := ⟨rfl, rfl, rfl, rfl⟩
  cases op with
  | createSession identity ip userAgent =>
      rw [perform, SessionWorld.createSession] at hperform
      dsimp only at hperform
      split at hperform
      · cases hperform
        exact .inl ⟨row, h, hsame, by rintro token ⟨⟩⟩
      · rename_i sessions hinsert
        cases hperform
        rw [Table.find?_insert hinsert] at h
        split at h
        · cases h
          exact .inr ⟨identity, ip, userAgent, choice.token, rfl, rfl, rfl, rfl, rfl⟩
        · exact .inl ⟨row, h, hsame, by rintro token ⟨⟩⟩
  | resolveSession token =>
      cases hperform
      obtain ⟨row₀, hrow₀, hsame⟩ := find?_resolveSession h
      exact .inl ⟨row₀, hrow₀, hsame, by rintro token ⟨⟩⟩
  | destroySession token =>
      cases hperform
      rw [SessionWorld.destroySession, Table.find?_erase] at h
      split at h
      · cases h
      · rename_i hkey
        left
        refine ⟨row, h, hsame, ?_⟩
        rintro _ ⟨⟩
        apply hkey
  | _ =>
      cases hperform
      exact .inl ⟨row, h, hsame, by rintro token ⟨⟩⟩

end WebWorld

/-- Every path of the API is guarded: a request gets through with a method that changes nothing, or with
the header. -/
theorem csrfGuard_eq_false_iff {method route : String} {header : Option String} :
  csrfGuard method ("/api/v1" ++ route) header = false
    ↔ method ∈ unprotectedMethods ∨ header = some "1"
  := by
  have hprefix : "/api/".toList.isPrefixOf ("/api/v1" ++ route).toList = true := by
    rw [String.toList_append, List.isPrefixOf_iff_prefix]
    exact ⟨'v' :: '1' :: route.toList, rfl⟩
  rw [csrfGuard, hprefix, Bool.and_true, Bool.and_eq_false_iff, Bool.not_eq_false',
    List.contains_iff_mem, bne_eq_false_iff_eq]

namespace WebRequest

variable {r : WebRequest}

/-- A request is authenticated by what PAM answers, and stays it. -/
theorem next_eq_authenticated {stage : WebStage} {op : WebOp} {answer : op.Answer}
    {username password : String} {identity : AuthLoginResult}
    (h : r.protocol.next stage op answer = .authenticated username password identity) :
  stage = .authenticated username password identity
    ∨ (⟨op, answer⟩ : Event WebOp WebOp.Answer)
        = ⟨.authenticate username password, .ok (some identity)⟩
  := by
  rw [protocol] at h
  dsimp only at h
  split at h
  · split at h
    · cases h
      exact .inr rfl
    · cases h
  · split at h
    · cases h
    · cases h
  · exact .inl h

/-- A request is admitted by the session that its token resolves to, and stays it. -/
theorem next_eq_admitted {stage : WebStage} {op : WebOp} {answer : op.Answer} {token : String}
    {session : DbSession} (h : r.protocol.next stage op answer = .admitted token session) :
  stage = .admitted token session
    ∨ stage = .arrived
      ∧ (⟨op, answer⟩ : Event WebOp WebOp.Answer) = ⟨.resolveSession token, some session⟩
  := by
  rw [protocol] at h
  dsimp only at h
  split at h
  · split at h
    · cases h
    · cases h
  · split at h
    · cases h
      exact .inr ⟨rfl, rfl⟩
    · cases h
  · exact .inl h

/-- Only who is authenticated gets a session, and it is theirs. -/
theorem authenticated_of_createSession {stage : WebStage} {identity : AuthLoginResult}
    {ip userAgent : Option String}
    (h : r.protocol.allowed stage (.createSession identity ip userAgent)) :
  ∃ username password, stage = .authenticated username password identity
  := by
  cases stage with
  | arrived => exact h.elim
  | authenticated username password identity' =>
      obtain rfl : identity = identity' := h
      exact ⟨username, password, rfl⟩
  | admitted token session =>
      obtain ⟨-, call, -, hgrants⟩ := h
      exact hgrants.elim

end WebRequest

namespace WebPool

variable {hash : String → String} {idleTimeoutMinutes : ℤ} {requests : List WebRequest}
  {stages : ℕ → WebStage} {p : WebPool}

/-- What is done with the requests. -/
def request (requests : List WebRequest) (i : ℕ) : WebRequest :=
  requests.getD i ⟨.logout, none, none, none, none⟩

/-- Sessions go back to logins, those who are authenticated to what PAM accepted, and those who are
admitted to a session that went back to a login. -/
structure Traced (hash : String → String) (requests : List WebRequest) (stages : ℕ → WebStage)
    (p : WebPool) : Prop where
  issued : ∀ key row, p.world.sessions.sessions.find? key = some row →
    ∃ login : WebLogin, login.Issues hash p.history row
  authenticated : ∀ i username password identity,
    stages i = .authenticated username password identity →
      (i, ⟨.authenticate username password, .ok (some identity)⟩) ∈ p.history
  admitted : ∀ i token session, stages i = .admitted token session →
    (request requests i).cookie = some token ∧ session.tokenHash = hash token
      ∧ ∃ before after, p.history = before ++ (i, ⟨.resolveSession token, some session⟩) :: after
          ∧ ∃ login : WebLogin, login.Issues hash before session

/-- Sessions go back to logins after an operation. -/
theorem Traced.issued_step (h : Traced hash requests stages p) {i : ℕ} {op : WebOp}
    {choice : WebChoice} {answer : op.Answer} {w : WebWorld}
    (hallowed : (request requests i).protocol.allowed (stages i) op)
    (hperform : p.world.perform hash idleTimeoutMinutes op choice = (answer, w)) {key : String}
    {row : DbSession} (hrow : w.sessions.sessions.find? key = some row) :
  ∃ login : WebLogin, login.Issues hash (p.history ++ [(i, ⟨op, answer⟩)]) row
  := by
  rcases WebWorld.find?_perform hperform hrow with ⟨row₀, hrow₀, hsame, hkept⟩ | hnew
  · obtain ⟨login, hissues⟩ := h.issued key row₀ hrow₀
    refine ⟨login, hissues.snoc hsame ?_⟩
    intro hlogout
    apply hkept login.token hlogout
    rw [← (Table.find?_eq_some_iff.mp hrow₀).2, hissues.tokenHash]
  · obtain ⟨identity, ip, userAgent, token, hevent, hhash, huid, husername, hrole⟩ := hnew
    cases hevent
    obtain ⟨username, password, hstage⟩ := WebRequest.authenticated_of_createSession hallowed
    refine ⟨⟨i, username, password, identity, ip, userAgent, token⟩, ?_, hhash, huid, husername, hrole⟩
    refine ⟨p.history, [], rfl, h.authenticated i username password identity hstage, ?_⟩
    rintro e ⟨⟩

/-- The step lemma of `Traced`: an operation of a request. -/
theorem Traced.resumed (h : Traced hash requests stages p) {i : ℕ} {op : WebOp}
    {resume : op.Answer → Coroutine WebOp WebOp.Answer (Except Exc Unit)}
    {choice : WebChoice} {answer : op.Answer} {w : WebWorld}
    (hallowed : (request requests i).protocol.allowed (stages i) op)
    (hperform : p.world.perform hash idleTimeoutMinutes op choice = (answer, w)) :
  Traced hash requests
    (Function.update stages i ((request requests i).protocol.next (stages i) op answer))
    (p.resumed i op resume answer w)
  := by
  constructor
  · intro key row hrow
    apply h.issued_step hallowed hperform hrow
  · intro j username password identity hstage
    by_cases hj : j = i
    · subst hj
      rw [Function.update_self] at hstage
      rcases WebRequest.next_eq_authenticated hstage with hstage | hevent
      · apply List.mem_append_left
        apply h.authenticated j username password identity hstage
      · rw [← hevent]
        apply List.mem_append_right
        apply List.mem_singleton.mpr rfl
    · rw [Function.update_of_ne hj] at hstage
      apply List.mem_append_left
      apply h.authenticated j username password identity hstage
  · intro j token session hstage
    have hearlier (hstage : stages j = .admitted token session) :
        (request requests j).cookie = some token ∧ session.tokenHash = hash token
          ∧ ∃ before after, (p.resumed i op resume answer w).history
                = before ++ (j, ⟨.resolveSession token, some session⟩) :: after
              ∧ ∃ login : WebLogin, login.Issues hash before session := by
      obtain ⟨hcookie, hhash, before, after, hhistory, hlogin⟩ := h.admitted j token session hstage
      refine ⟨hcookie, hhash, before, after ++ [(i, ⟨op, answer⟩)], ?_, hlogin⟩
      rw [Pool.resumed, hhistory, List.append_assoc, List.cons_append]
    by_cases hj : j = i
    · subst hj
      rw [Function.update_self] at hstage
      rcases WebRequest.next_eq_admitted hstage with hstage | ⟨harrived, hevent⟩
      · apply hearlier hstage
      · cases hevent
        rw [harrived] at hallowed
        have hsession := congrArg Prod.fst hperform
        obtain ⟨row₀, hrow₀, hsame⟩ := WebWorld.resolveSession_eq_some hsession
        obtain ⟨login, hissues⟩ := h.issued _ row₀ hrow₀
        refine ⟨hallowed, ?_, p.history, [], rfl, login, hissues.created, ?_, ?_, ?_, ?_⟩
        · rw [hsame.tokenHash, (Table.find?_eq_some_iff.mp hrow₀).2]
        · rw [hsame.tokenHash, hissues.tokenHash]
        · rw [hsame.uid, hissues.uid]
        · rw [hsame.username, hissues.username]
        · rw [hsame.role, hissues.role]
    · rw [Function.update_of_ne hj] at hstage
      apply hearlier hstage

/-- The step lemma of `Traced`: what happens beside the requests leaves the sessions as they are. -/
theorem Traced.happen (h : Traced hash requests stages p) (e : WebEvent) :
  Traced hash requests stages { p with world := p.world.happen e }
  := by
  constructor
  · intro key row hrow
    apply h.issued key row
    cases e with
    | tick duration => apply hrow
    | accounts posix => apply hrow
  · apply h.authenticated
  · apply h.admitted

/-- A request with an endpoint that needs a session is one of those that were made. -/
theorem getElem?_request {i : ℕ} {call : SessionCall} (h : (request requests i).call = .session call) :
  requests[i]? = some (request requests i)
  := by
  rw [request, List.getD_eq_getElem?_getD] at h ⊢
  cases hr : requests[i]? with
  | none =>
      rw [hr] at h
      cases h
  | some r => rfl

/-- In every run every request obeys the protocol, and its stage is traced. -/
theorem traced_of_run {settings : WebSettings} {w : WebWorld}
    (hempty : w.sessions.sessions = Table.empty) {labels : List (Pool.Label WebChoice WebEvent)}
    (hrun : (Pool.machine (webEffects hash idleTimeoutMinutes)).run
      (webPool settings requests w) labels = some p) :
  ∃ stages, p.Obeying (fun i => (request requests i).protocol) (fun _ _ _ => True) stages
    ∧ Traced hash requests stages p
  := by
  have hobeying : (webPool settings requests w).Obeying
      (fun i => (request requests i).protocol) (fun _ _ _ => True) fun _ => .arrived := by
    intro i c hc
    obtain ⟨r, hr, rfl⟩ := Option.map_eq_some_iff.mp (List.getElem?_map ▸ hc)
    have hrequest : request requests i = r := by
      rw [request, List.getD_eq_getElem?_getD, hr, Option.getD_some]
    dsimp only
    rw [hrequest]
    apply r.obeys_program
  have hstart : Traced hash requests (fun _ => .arrived) (webPool settings requests w) := by
    constructor
    · intro key row hrow
      rw [webPool, Pool.start, hempty] at hrow
      cases hrow
    · rintro i username password identity ⟨⟩
    · rintro i token session ⟨⟩
  have hresult := Pool.run_obeys (D := fun _ _ => True) (I := Traced hash requests) hobeying hstart
    ?_ ?_ (Machine.along_of_forall _ (fun _ _ => trivial) _ _) hrun
  · exact hresult.2
  · intro q stages i choice op resume answer w' _ _ hI _ _ hallowed hperform
    apply hI.resumed hallowed (Option.some_inj.mp hperform)
  · intro q stages e w' hI _ hworld
    cases hworld
    apply hI.happen e

/-- When a login issued a session, PAM had answered it with its identity at some step of the run. -/
theorem accepted_of_issues {settings : WebSettings} {w : WebWorld}
    {labels : List (Pool.Label WebChoice WebEvent)}
    (hrun : (Pool.machine (webEffects hash idleTimeoutMinutes)).run
      (webPool settings requests w) labels = some p)
    {before after : List (ℕ × Event WebOp WebOp.Answer)} (hhistory : p.history = before ++ after)
    {login : WebLogin} {session : DbSession} (hissues : login.Issues hash before session) :
  ∃ earlier choice later q, labels = earlier ++ .task login.task choice :: later
    ∧ (Pool.machine (webEffects hash idleTimeoutMinutes)).run
        (webPool settings requests w) earlier = some q
    ∧ PamAuthenticator.authenticateSync q.world.posix login.username login.password
        = some login.identity
  := by
  obtain ⟨before', after', rfl, haccepted, -⟩ := hissues.created
  have hmem : (login.task, (⟨.authenticate login.username login.password,
      .ok (some login.identity)⟩ : Event WebOp WebOp.Answer)) ∈ p.history := by
    rw [hhistory]
    apply List.mem_append_left
    apply List.mem_append_left
    apply haccepted
  obtain ⟨earlier, choice, later, q, w', hlabels, hq, hperform⟩ := Pool.performed_of_run hrun hmem
  refine ⟨earlier, choice, later, q, hlabels, hq, ?_⟩
  have hanswer := congrArg Prod.fst (Option.some_inj.mp hperform)
  simp only [WebWorld.perform, WebChoice.orElse] at hanswer
  split at hanswer
  · exact Except.ok.inj hanswer
  · cases hanswer

/-- Whenever a request awaits an operation that a session is needed for, it was let through by the guard
and carried the token of a session, which a login had issued before and which was not logged out before it
was looked up; and PAM had accepted the password of that login, of an account to which the operation was
granted then. -/
theorem authority_of_run {settings : WebSettings} {w : WebWorld}
    (hempty : w.sessions.sessions = Table.empty) {labels : List (Pool.Label WebChoice WebEvent)}
    (hrun : (Pool.machine (webEffects hash idleTimeoutMinutes)).run
      (webPool settings requests w) labels = some p)
    {i : ℕ} {op : WebOp} (hpending : p.pendingOf i = some op) (hguarded : op.IsGuarded) :
  ∃ (r : WebRequest) (call : SessionCall) (token : String) (session : DbSession) (login : WebLogin),
    requests[i]? = some r ∧ r.call = .session call
      ∧ (call.method ∈ unprotectedMethods ∨ r.csrfHeader = some "1")
      ∧ r.cookie = some token ∧ session.tokenHash = hash token
      ∧ (∃ before after, p.history = before ++ (i, ⟨.resolveSession token, some session⟩) :: after
          ∧ login.Issues hash before session)
      ∧ ∃ before choice after q account, labels = before ++ .task login.task choice :: after
          ∧ (Pool.machine (webEffects hash idleTimeoutMinutes)).run
              (webPool settings requests w) before = some q
          ∧ q.world.posix.accepts login.username login.password = true
          ∧ q.world.posix.getpwnam login.username = some account
          ∧ call.Grants ("nasos-admin" ∈ q.world.posix.groupNames account) account.uid login.username op
  := by
  obtain ⟨stages, hobeying, htraced⟩ := traced_of_run hempty hrun
  have hallowed := hobeying.allowed hpending
  cases hstage : stages i with
  | arrived =>
      rw [hstage] at hallowed
      cases op with
      | _ => first | exact hguarded.elim | exact hallowed.elim
  | authenticated username password identity =>
      rw [hstage] at hallowed
      cases op with
      | _ => first | exact hguarded.elim | exact hallowed.elim
  | admitted token session =>
      rw [hstage] at hallowed
      obtain ⟨hpasses, call, hcall, hgrants⟩ := hallowed
      obtain ⟨hcookie, hhash, before, after, hhistory, login, hissues⟩ :=
        htraced.admitted i token session hstage
      obtain ⟨earlier, choice, later, q, hlabels, hq, hidentity⟩ :=
        accepted_of_issues hrun hhistory hissues
      obtain ⟨haccepts, account, haccount, huid, husername, hrole⟩ :=
        PamAuthenticator.authenticateSync_eq_some hidentity
      rw [WebRequest.Passes, hcall] at hpasses
      refine ⟨request requests i, call, token, session, login, getElem?_request hcall, hcall,
        csrfGuard_eq_false_iff.mp hpasses, hcookie, hhash, ⟨before, after, hhistory, hissues⟩,
        earlier, choice, later, q, account, hlabels, hq, haccepts, haccount, ?_⟩
      rw [SessionCall.GrantsIn, hissues.uid, hissues.username, huid, husername] at hgrants
      apply hgrants.mono
      intro hadmin
      rcases hrole with ⟨-, hmember⟩ | ⟨huser, -⟩
      · apply hmember
      · rw [hissues.role, huser] at hadmin
        exact absurd hadmin (by decide)

/-- Ada is an admin. -/
def adminAda : PosixDatabase :=
  ⟨fun username password => username = "ada" && password = "lovelace", [⟨"ada", 1001, 1001⟩],
    [⟨"ada", 1001, []⟩, ⟨"nasos-admin", 990, ["ada"]⟩]⟩

/-- A step of a request that nothing fails of. -/
def adaChoice : WebChoice :=
  { fails := none
    token := sampleToken
    socketPath := "/run/nasos/fileworker-1001.sock"
    shares := fun op => (SharesWorld.answer ⟨[], [], [], [], [], fun _ => none, none, []⟩
      SharesWorld.smooth op).1
    inventory := .error (.rpcCallError "internal_error" "internal error")
    planId := "plan"
    monotonic := 0
    plan := fun
      | .getPlan _ => none
      | .managedMountpoints => .ok []
      | .executePlan _ => .ok "job"
      | .popPlan _ => none
    volume := .ok ("/mnt/films", "ext4") }

/-- Settings of the web process. -/
def adaSettings : WebSettings :=
  { shares := ⟨false, fun _ => ""⟩
    storage := ⟨false, "", "/var/lib/nasos"⟩
    volumesRoot := "/volume"
    hmac := id }

/-- Ada logs in, and later makes a group. -/
def adaRequests : List WebRequest :=
  [⟨.login ⟨"ada", "lovelace"⟩, none, some "1", none, none⟩,
    ⟨.session (.createGroup "films" ""), some sampleToken, some "1", none, none⟩]

/-- She is no admin any more when the group is made. -/
def adaLabels : List (Pool.Label WebChoice WebEvent) :=
  [.task 0 adaChoice, .task 0 adaChoice, .task 0 adaChoice,
    .environment (.accounts { adminAda with groups := [] }), .task 1 adaChoice]

/-- The group that Ada makes goes back to her login. -/
theorem authority_groupOfAda :
  ∃ p, (Pool.machine (webEffects sampleHash 30)).run
      (webPool adaSettings adaRequests ⟨adminAda, ⟨0, Table.empty, []⟩⟩) adaLabels = some p
    ∧ ∃ (r : WebRequest) (call : SessionCall) (token : String) (session : DbSession) (login : WebLogin),
      adaRequests[1]? = some r ∧ r.call = .session call
        ∧ (call.method ∈ unprotectedMethods ∨ r.csrfHeader = some "1")
        ∧ r.cookie = some token ∧ session.tokenHash = sampleHash token
        ∧ (∃ before after, p.history = before ++ (1, ⟨.resolveSession token, some session⟩) :: after
            ∧ login.Issues sampleHash before session)
        ∧ ∃ before choice after q account, adaLabels = before ++ .task login.task choice :: after
            ∧ (Pool.machine (webEffects sampleHash 30)).run
                (webPool adaSettings adaRequests ⟨adminAda, ⟨0, Table.empty, []⟩⟩) before
                  = some q
            ∧ q.world.posix.accepts login.username login.password = true
            ∧ q.world.posix.getpwnam login.username = some account
            ∧ call.Grants ("nasos-admin" ∈ q.world.posix.groupNames account) account.uid login.username
                (.shares (.users (.run ["groupadd", "films"] none)))
  := ⟨_, rfl, authority_of_run rfl rfl rfl trivial⟩

end WebPool
