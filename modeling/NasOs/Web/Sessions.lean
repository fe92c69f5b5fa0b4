import Mathlib.Data.List.Chain
import NasOs.Library.Machine
import NasOs.Library.Table
import NasOs.Users.Requests

/-!
# Sessions

A login adds a row to the `sessions` table, with the hash of a token that is drawn for it.  A request
presents the token: the row is looked up by the hash and, unless it was seen too long ago, it is touched.
A row that was seen too long ago is deleted, and so is one that is logged out.

Tokens are drawn by `secrets.token_urlsafe` and hashed by SHA-256.  What is relied on is that the token
of a login is none that was presented before, and that no two tokens have the same hash.
-/

/-- A row of the `sessions` table.  An instant is a number of microseconds. -/
structure DbSession where
  tokenHash : String
  uid : ℤ
  username : String
  role : String
  created : ℤ
  lastSeen : ℤ
  ip : Option String
  userAgent : Option String

/-- `AuthLoginResult`. -/
structure AuthLoginResult where
  uid : ℤ
  username : String
  role : String

/-- The clock, and the tables that the web process keeps about accounts and sessions. -/
structure SessionWorld where
  now : ℤ
  sessions : Table DbSession.tokenHash
  users : List User

namespace SessionWorld

variable (hash : String → String)

/-- `create_session`, with the token that is drawn. -/
def createSession (w : SessionWorld) (identity : AuthLoginResult) (ip userAgent : Option String)
    (token : String) : Except Exc String × SessionWorld :=
  let row : DbSession :=
    { tokenHash := hash token
      uid := identity.uid
      username := identity.username
      role := identity.role
      created := w.now
      lastSeen := w.now
      ip := ip
      userAgent := userAgent }
  match w.sessions.insert row with
  | none => (.error (.other "IntegrityError"), w)
  | some sessions => (.ok token, { w with sessions := sessions })

/-- `resolve_session`. -/
def resolveSession (w : SessionWorld) (token : String) (idleTimeout : ℤ) :
    Option DbSession × SessionWorld :=
  match w.sessions.find? (hash token) with
  | none => (none, w)
  | some row =>
      if idleTimeout < w.now - row.lastSeen then
        (none, { w with sessions := w.sessions.erase row.tokenHash })
      else
        let row := { row with lastSeen := w.now }
        (some row, { w with sessions := w.sessions.replace row })

/-- `destroy_session`. -/
def destroySession (w : SessionWorld) (token : String) : SessionWorld :=
  { w with sessions := w.sessions.erase (hash token) }

/-- `get_current_session`, with the cookie of the request. -/
def getCurrentSession (idleTimeoutMinutes : ℤ) (w : SessionWorld) (cookie : Option String) :
    Except Exc DbSession × SessionWorld :=
  match cookie with
  | none => (.error (.httpException 401 "not authenticated"), w)
  | some token =>
      if token = "" then (.error (.httpException 401 "not authenticated"), w)
      else
        match w.resolveSession hash token (idleTimeoutMinutes * 60 * 1000000) with
        | (none, w) => (.error (.httpException 401 "session expired"), w)
        | (some session, w) => (.ok session, w)

/-- The operations of a request about users: the agent runs its commands, and the rows of the table are
those of the world. -/
def answerUsers (answers : (op : UsersOp) → op.Answer) (w : SessionWorld) :
    (op : UsersOp) → op.Answer × SessionWorld
  | .deleteUser user =>
      match answers (.deleteUser user) with
      | .error e => (.error e, w)
      | .ok () => (.ok (), { w with users := w.users.filter fun u => u.uid ≠ user.uid })
  | op => (answers op, w)

/-- `delete_user`, where the agent answers in some way. -/
def deleteUser (w : SessionWorld) (user : User) (deleteHome : Bool)
    (answers : (op : UsersOp) → op.Answer) : Except Exc Unit × SessionWorld :=
  (UsersService.deleteUser user deleteHome).run.execute (answerUsers answers) w

/-- Deleting an account leaves the clock and the sessions alone. -/
theorem deleteUser_keeps (w : SessionWorld) (user : User) (deleteHome : Bool)
    (answers : (op : UsersOp) → op.Answer) :
  (w.deleteUser user deleteHome answers).2.now = w.now
    ∧ (w.deleteUser user deleteHome answers).2.sessions = w.sessions
  := by
  have hkeeps : ∀ (w' : SessionWorld) (op : UsersOp), w'.now = w.now ∧ w'.sessions = w.sessions →
      (answerUsers answers w' op).2.now = w.now
        ∧ (answerUsers answers w' op).2.sessions = w.sessions := by
    intro w' op h
    rw [answerUsers.eq_def]
    split
    · split
      · apply h
      · apply h
    · apply h
  exact Coroutine.execute_keeps (I := fun w' : SessionWorld => w'.now = w.now ∧ w'.sessions = w.sessions)
    hkeeps _ ⟨rfl, rfl⟩

/-- A request goes on with a session when it has a token that resolves to it. -/
theorem getCurrentSession_eq_ok_iff {idleTimeoutMinutes : ℤ} {w w' : SessionWorld}
    {cookie : Option String} {session : DbSession} :
  w.getCurrentSession hash idleTimeoutMinutes cookie = (.ok session, w')
    ↔ ∃ token, cookie = some token ∧ token ≠ ""
        ∧ w.resolveSession hash token (idleTimeoutMinutes * 60 * 1000000) = (some session, w')
  := by
  cases cookie with
  | none => simp [getCurrentSession]
  | some token =>
      by_cases hempty : token = ""
      · simp [getCurrentSession, hempty]
      · rcases h : w.resolveSession hash token (idleTimeoutMinutes * 60 * 1000000) with ⟨_ | row, w''⟩
        · simp [getCurrentSession, hempty, h]
        · simp [getCurrentSession, hempty, h]

end SessionWorld

/-! ### Runs -/

/-- The steps of a run: a login, with the token that is drawn for it, a lookup of a token, a logout, the
deletion of an account, and time that passes. -/
inductive SessionLabel where
  | login (identity : AuthLoginResult) (ip userAgent : Option String) (token : String)
  | resolve (token : String) (idleTimeout : ℤ)
  | logout (token : String)
  | deleteUser (user : User) (deleteHome : Bool) (answers : (op : UsersOp) → op.Answer)
  | tick (duration : ℕ)

namespace SessionLabel

/-- The token of a step. -/
def token? : SessionLabel → Option String
  | .login _ _ _ token => some token
  | .resolve token _ => some token
  | .logout token => some token
  | _ => none

/-- The token that is drawn at a step. -/
def drawn? : SessionLabel → Option String
  | .login _ _ _ token => some token
  | _ => none

end SessionLabel

/-- No token is drawn that was presented or drawn before. -/
def FreshlyDrawn (labels : List SessionLabel) : Prop :=
  labels.Pairwise fun earlier later => ∀ token, later.drawn? = some token → earlier.token? ≠ some token

/-- What happened at a step, and when. -/
structure SessionEvent where
  instant : ℤ
  label : SessionLabel
  succeeded : Bool

/-- A world, and what happened until then. -/
structure SessionHistory where
  world : SessionWorld
  events : List SessionEvent

namespace SessionWorld

variable (hash : String → String)

/-- A step succeeds or fails, and leaves a world. -/
def perform (w : SessionWorld) : SessionLabel → Bool × SessionWorld
  | .login identity ip userAgent token =>
      match w.createSession hash identity ip userAgent token with
      | (.error _, w) => (false, w)
      | (.ok _, w) => (true, w)
  | .resolve token idleTimeout =>
      ((w.resolveSession hash token idleTimeout).1.isSome,
        (w.resolveSession hash token idleTimeout).2)
  | .logout token => (true, w.destroySession hash token)
  | .deleteUser user deleteHome answers =>
      match w.deleteUser user deleteHome answers with
      | (.error _, w) => (false, w)
      | (.ok (), w) => (true, w)
  | .tick duration => (true, { w with now := w.now + duration })

/-- The machine of the sessions, with its history. -/
def machine : Machine SessionHistory SessionLabel where
  step s a :=
    some ⟨(s.world.perform hash a).2, s.events ++ [⟨s.world.now, a, (s.world.perform hash a).1⟩]⟩

/-- No account has a session at the start. -/
def start (now : ℤ) (users : List User) : SessionHistory :=
  ⟨⟨now, Table.empty, users⟩, []⟩

end SessionWorld

namespace SessionEvent

/-- A token resolves. -/
def Resolves (token : String) (e : SessionEvent) : Prop :=
  (∃ idleTimeout, e.label = .resolve token idleTimeout) ∧ e.succeeded = true

/-- A token fails to resolve. -/
def Fails (token : String) (e : SessionEvent) : Prop :=
  (∃ idleTimeout, e.label = .resolve token idleTimeout) ∧ e.succeeded = false

/-- A token is issued, or it resolves. -/
def touches (token : String) (e : SessionEvent) : Bool :=
  e.succeeded &&
    match e.label with
    | .login _ _ _ token' => token' = token
    | .resolve token' _ => token' = token
    | _ => false

/-- A token resolves at most its idle timeout after it was touched. -/
def InTime (e e' : SessionEvent) : Prop :=
  ∃ token idleTimeout, e'.label = .resolve token idleTimeout ∧ e'.instant - e.instant ≤ idleTimeout

/-- The account of a session is deleted. -/
def Deletes (identity : AuthLoginResult) (e : SessionEvent) : Prop :=
  ∃ user deleteHome answers, e.label = .deleteUser user deleteHome answers ∧ user.uid = identity.uid
    ∧ user.username = identity.username ∧ e.succeeded = true

end SessionEvent

/-- A token was issued by a login, it was never logged out, it never failed to resolve, and it resolved
each time in time. -/
structure LiveToken (token : String) (events : List SessionEvent) : Prop where
  issued : ∃ identity ip userAgent instant resolutions, events.filter (SessionEvent.touches token)
    = ⟨instant, .login identity ip userAgent token, true⟩ :: resolutions
  notLoggedOut : ∀ e ∈ events, e.label ≠ .logout token
  neverFailed : ∀ e ∈ events, ¬ e.Fails token
  inTime : (events.filter (SessionEvent.touches token)).IsChain SessionEvent.InTime

/-- The account of a token is not deleted after the token is issued. -/
def AccountKept (token : String) (events : List SessionEvent) : Prop :=
  ∀ before e after, events = before ++ e :: after →
    ∀ identity ip userAgent, e.label = .login identity ip userAgent token →
      ∀ e' ∈ after, ¬ e'.Deletes identity

/-! ### Tokens that are live -/

/-- What has nothing to do with a token does not touch it. -/
theorem SessionEvent.touches_eq_false {token : String} {e : SessionEvent}
    (he : e.label.token? ≠ some token) :
  e.touches token = false
  := by
  rw [SessionEvent.touches]
  cases hlabel : e.label with
  | login identity ip userAgent token' =>
      rw [hlabel] at he
      simpa [SessionLabel.token?] using fun _ => he
  | resolve token' idleTimeout =>
      rw [hlabel] at he
      simpa [SessionLabel.token?] using fun _ => he
  | _ => simp

/-- What has nothing to do with a token leaves it live. -/
theorem LiveToken.snoc {token : String} {events : List SessionEvent} {e : SessionEvent}
    (h : LiveToken token events) (he : e.label.token? ≠ some token) :
  LiveToken token (events ++ [e])
  := by
  have hnot := SessionEvent.touches_eq_false he
  have hfilter : (events ++ [e]).filter (SessionEvent.touches token)
      = events.filter (SessionEvent.touches token) := by
    simp [hnot]
  constructor
  · rw [hfilter]
    apply h.issued
  · intro e' he' hlabel
    rcases List.mem_append.mp he' with he' | he'
    · apply h.notLoggedOut e' he' hlabel
    · cases List.mem_singleton.mp he'
      apply he
      rw [hlabel]
      rfl
  · rintro e' he' ⟨⟨idleTimeout, hlabel⟩, hfail⟩
    rcases List.mem_append.mp he' with he' | he'
    · exact h.neverFailed e' he' ⟨⟨idleTimeout, hlabel⟩, hfail⟩
    · cases List.mem_singleton.mp he'
      apply he
      rw [hlabel]
      rfl
  · rw [hfilter]
    apply h.inTime

/-- A token that resolves in time stays live. -/
theorem LiveToken.resolve {token : String} {events : List SessionEvent} {last : SessionEvent}
    {instant idleTimeout : ℤ} (h : LiveToken token events)
    (hlast : (events.filter (SessionEvent.touches token)).getLast? = some last)
    (htime : instant - last.instant ≤ idleTimeout) :
  LiveToken token (events ++ [⟨instant, .resolve token idleTimeout, true⟩])
  := by
  have hfilter : List.filter (SessionEvent.touches token)
        (events ++ [⟨instant, .resolve token idleTimeout, true⟩])
      = events.filter (SessionEvent.touches token) ++ [⟨instant, .resolve token idleTimeout, true⟩] := by
    simp [SessionEvent.touches]
  constructor
  · obtain ⟨identity, ip, userAgent, issued, resolutions, heq⟩ := h.issued
    rw [hfilter, heq]
    exact ⟨identity, ip, userAgent, issued, _, List.cons_append⟩
  · intro e he hlabel
    rcases List.mem_append.mp he with he | he
    · apply h.notLoggedOut e he hlabel
    · cases List.mem_singleton.mp he
      cases hlabel
  · rintro e he ⟨hlabel, hfail⟩
    rcases List.mem_append.mp he with he | he
    · exact h.neverFailed e he ⟨hlabel, hfail⟩
    · cases List.mem_singleton.mp he
      cases hfail
  · rw [hfilter, List.isChain_append]
    refine ⟨h.inTime, List.isChain_singleton _, ?_⟩
    intro e he e' he'
    rw [hlast] at he
    cases he
    cases he'
    exact ⟨token, idleTimeout, rfl, htime⟩

/-- A token that was not presented before is live when it is issued. -/
theorem LiveToken.issue {token : String} {events : List SessionEvent}
    (hfresh : ∀ e ∈ events, e.label.token? ≠ some token) (identity : AuthLoginResult)
    (ip userAgent : Option String) (instant : ℤ) :
  LiveToken token (events ++ [⟨instant, .login identity ip userAgent token, true⟩])
  := by
  have hnil : events.filter (SessionEvent.touches token) = [] := by
    rw [List.filter_eq_nil_iff]
    intro e he
    rw [SessionEvent.touches_eq_false (hfresh e he)]
    simp
  have hfilter : List.filter (SessionEvent.touches token)
        (events ++ [⟨instant, .login identity ip userAgent token, true⟩])
      = [⟨instant, .login identity ip userAgent token, true⟩] := by
    rw [List.filter_append, hnil]
    simp [SessionEvent.touches]
  constructor
  · exact ⟨identity, ip, userAgent, instant, [], hfilter⟩
  · intro e he hlabel
    rcases List.mem_append.mp he with he | he
    · apply hfresh e he
      rw [hlabel]
      rfl
    · cases List.mem_singleton.mp he
      cases hlabel
  · rintro e he ⟨⟨idleTimeout, hlabel⟩, -⟩
    rcases List.mem_append.mp he with he | he
    · apply hfresh e he
      rw [hlabel]
      rfl
    · cases List.mem_singleton.mp he
      cases hlabel
  · rw [hfilter]
    apply List.isChain_singleton

namespace SessionWorld

variable (hash : String → String)

/-- The row of a token that would resolve is there since the token was last touched, and the token is
live; so it was whenever it resolved. -/
structure Sound (token : String) (s : SessionHistory) : Prop where
  found : ∀ row, s.world.sessions.find? (hash token) = some row →
    LiveToken token s.events
      ∧ ∃ last, (s.events.filter (SessionEvent.touches token)).getLast? = some last
          ∧ last.instant = row.lastSeen
  resolved : ∀ before e, before ++ [e] <+: s.events → e.Resolves token →
    LiveToken token (before ++ [e])

/-- What has to be shown after a step. -/
theorem Sound.of_step {token : String} {s : SessionHistory} {w : SessionWorld} {e : SessionEvent}
    (hs : Sound hash token s)
    (hfound : ∀ row, w.sessions.find? (hash token) = some row →
      LiveToken token (s.events ++ [e])
        ∧ ∃ last, ((s.events ++ [e]).filter (SessionEvent.touches token)).getLast? = some last
            ∧ last.instant = row.lastSeen)
    (hresolved : e.Resolves token → LiveToken token (s.events ++ [e])) :
  Sound hash token ⟨w, s.events ++ [e]⟩
  := by
  constructor
  · apply hfound
  · intro before e' hprefix hresolves
    rcases List.prefix_concat_iff.mp hprefix with heq | hprefix
    · obtain ⟨rfl, hlast⟩ := List.append_inj' heq rfl
      cases hlast
      apply hresolved hresolves
    · apply hs.resolved before e' hprefix hresolves

/-- What is found of a session after a login. -/
theorem find?_createSession (w : SessionWorld) (identity : AuthLoginResult)
    (ip userAgent : Option String) (token : String) {key : String} (hkey : key ≠ hash token) :
  (w.createSession hash identity ip userAgent token).2.sessions.find? key = w.sessions.find? key
  := by
  rw [createSession]
  split
  · rfl
  · rename_i hinsert
    rw [Table.find?_insert hinsert, if_neg (Ne.symm hkey)]

/-- What is found of a session after a lookup of another one. -/
theorem find?_resolveSession (w : SessionWorld) (token : String) (idleTimeout : ℤ) {key : String}
    (hkey : key ≠ hash token) :
  (w.resolveSession hash token idleTimeout).2.sessions.find? key = w.sessions.find? key
  := by
  rw [resolveSession]
  split
  · rfl
  · rename_i row hrow
    have hhash := (Table.find?_eq_some_iff.mp hrow).2
    split
    · rw [Table.find?_erase, hhash, if_neg hkey]
    · rw [Table.find?_replace]
      simp only [hhash, if_neg (Ne.symm hkey), Option.map_id']

/-- What is found of a session after a step that has nothing to do with its token. -/
theorem find?_perform (w : SessionWorld) {a : SessionLabel} {token : String}
    (ha : ∀ token', a.token? = some token' → hash token' ≠ hash token) :
  (w.perform hash a).2.sessions.find? (hash token) = w.sessions.find? (hash token)
  := by
  cases a with
  | login identity ip userAgent token' =>
      have h := find?_createSession hash w identity ip userAgent token' (ha token' rfl).symm
      rw [perform]
      split
      · rename_i heq
        rw [heq] at h
        apply h
      · rename_i heq
        rw [heq] at h
        apply h
  | resolve token' idleTimeout => apply find?_resolveSession hash w token' idleTimeout (ha token' rfl).symm
  | logout token' =>
      rw [perform, destroySession, Table.find?_erase, if_neg (ha token' rfl).symm]
  | deleteUser user deleteHome answers =>
      have h := (deleteUser_keeps w user deleteHome answers).2
      rw [perform]
      split
      · rename_i heq
        rw [heq] at h
        rw [h]
      · rename_i heq
        rw [heq] at h
        rw [h]
  | tick duration => rfl

/-- A step that has nothing to do with a token. -/
theorem Sound.of_other {token : String} {s : SessionHistory} {w : SessionWorld} {e : SessionEvent}
    (hs : Sound hash token s) (he : e.label.token? ≠ some token)
    (hsame : w.sessions.find? (hash token) = s.world.sessions.find? (hash token)) :
  Sound hash token ⟨w, s.events ++ [e]⟩
  := by
  have hnot : e.touches token = false := SessionEvent.touches_eq_false he
  apply hs.of_step
  · intro row hrow
    rw [hsame] at hrow
    obtain ⟨hlive, last, hlast, hseen⟩ := hs.found row hrow
    refine ⟨hlive.snoc he, last, ?_, hseen⟩
    rw [List.filter_append, List.filter_cons_of_neg (by simp [hnot]), List.filter_nil,
      List.append_nil, hlast]
  · rintro ⟨⟨idleTimeout, hlabel⟩, -⟩
    exfalso
    apply he
    rw [hlabel]
    rfl

/-- A login with a token that was not presented before. -/
theorem Sound.login {token : String} {s : SessionHistory} (hs : Sound hash token s)
    (hfresh : ∀ e ∈ s.events, e.label.token? ≠ some token) (identity : AuthLoginResult)
    (ip userAgent : Option String) :
  Sound hash token ⟨(s.world.perform hash (.login identity ip userAgent token)).2,
    s.events ++ [⟨s.world.now, .login identity ip userAgent token,
      (s.world.perform hash (.login identity ip userAgent token)).1⟩]⟩
  := by
  have hnone : s.world.sessions.find? (hash token) = none := by
    rw [Option.eq_none_iff_forall_ne_some]
    intro row hrow
    obtain ⟨identity, ip, userAgent, instant, resolutions, hissued⟩ := (hs.found row hrow).1.issued
    have hmem := List.mem_of_mem_filter (hissued ▸ List.mem_cons_self)
    exact hfresh _ hmem rfl
  rw [perform, createSession]
  cases hinsert : s.world.sessions.insert _ with
  | none =>
      obtain ⟨row, hrow⟩ := Table.insert_eq_none_iff.mp hinsert
      rw [hnone] at hrow
      cases hrow
  | some sessions =>
      have hlive := LiveToken.issue hfresh identity ip userAgent s.world.now
      apply hs.of_step
      · intro row hrow
        refine ⟨hlive, ⟨s.world.now, .login identity ip userAgent token, true⟩, ?_, ?_⟩
        · rw [List.filter_append, List.filter_cons_of_pos (by simp [SessionEvent.touches]),
            List.getLast?_append_of_ne_nil _ (List.cons_ne_nil _ _)]
          rfl
        · rw [Table.find?_insert hinsert, if_pos rfl] at hrow
          cases hrow
          rfl
      · intro _
        apply hlive

/-- A lookup of a token. -/
theorem Sound.resolve {token : String} {s : SessionHistory} (hs : Sound hash token s)
    (idleTimeout : ℤ) :
  Sound hash token ⟨(s.world.perform hash (.resolve token idleTimeout)).2,
    s.events ++ [⟨s.world.now, .resolve token idleTimeout,
      (s.world.perform hash (.resolve token idleTimeout)).1⟩]⟩
  := by
  rw [perform, resolveSession]
  cases hfind : s.world.sessions.find? (hash token) with
  | none =>
      apply hs.of_step
      · intro row hrow
        rw [hfind] at hrow
        cases hrow
      · rintro ⟨-, ⟨⟩⟩
  | some row =>
      have hhash := (Table.find?_eq_some_iff.mp hfind).2
      obtain ⟨hlive, last, hlast, hseen⟩ := hs.found row hfind
      by_cases htime : idleTimeout < s.world.now - row.lastSeen
      · simp only [if_pos htime]
        apply hs.of_step
        · intro row' hrow'
          rw [Table.find?_erase, if_pos hhash.symm] at hrow'
          cases hrow'
        · rintro ⟨-, ⟨⟩⟩
      · simp only [if_neg htime]
        have hlive' : LiveToken token
            (s.events ++ [⟨s.world.now, .resolve token idleTimeout, true⟩]) :=
          hlive.resolve hlast (by omega)
        apply hs.of_step
        · intro row' hrow'
          refine ⟨hlive', ⟨s.world.now, .resolve token idleTimeout, true⟩, ?_, ?_⟩
          · rw [List.filter_append, List.filter_cons_of_pos (by simp [SessionEvent.touches]),
              List.getLast?_append_of_ne_nil _ (List.cons_ne_nil _ _)]
            rfl
          · rw [Table.find?_replace, hfind] at hrow'
            simp only [Option.map_some, hhash, if_true, Option.some.injEq] at hrow'
            rw [← hrow']
        · intro _
          apply hlive'

/-- A step keeps what is known of a token, if it is not drawn again and nothing else has its hash. -/
theorem Sound.perform {token : String} {s : SessionHistory} (hs : Sound hash token s)
    {a : SessionLabel}
    (hfresh : a.drawn? = some token → ∀ e ∈ s.events, e.label.token? ≠ some token)
    (hhash : ∀ token', a.token? = some token' → hash token' = hash token → token' = token) :
  Sound hash token ⟨(s.world.perform hash a).2,
    s.events ++ [⟨s.world.now, a, (s.world.perform hash a).1⟩]⟩
  := by
  by_cases ha : a.token? = some token
  · cases a with
    | login identity ip userAgent token' =>
        cases ha
        apply hs.login hash (hfresh rfl)
    | resolve token' idleTimeout =>
        cases ha
        apply hs.resolve
    | logout token' =>
        cases ha
        apply hs.of_step
        · intro row hrow
          rw [SessionWorld.perform, destroySession, Table.find?_erase, if_pos rfl] at hrow
          cases hrow
        · rintro ⟨⟨idleTimeout, ⟨⟩⟩, -⟩
    | deleteUser user deleteHome answers => cases ha
    | tick duration => cases ha
  · apply hs.of_other hash ha
    apply find?_perform
    intro token' htoken' hcollide
    apply ha
    rw [htoken', hhash token' htoken' hcollide]

/-- The steps of a run are what its events are about. -/
theorem labels_of_run {s s' : SessionHistory} {labels : List SessionLabel}
    (hrun : (machine hash).run s labels = some s') :
  s'.events.map SessionEvent.label = s.events.map SessionEvent.label ++ labels
  := by
  induction labels generalizing s with
  | nil =>
      cases hrun
      simp
  | cons a labels ih =>
      obtain ⟨t, hstep, hrun⟩ := (machine hash).run_cons_eq_some.mp hrun
      cases hstep
      rw [ih hrun]
      simp

/-- A token that is drawn was not presented before in the run. -/
theorem along_of_freshlyDrawn {now : ℤ} {users : List User} {labels : List SessionLabel}
    (hdrawn : FreshlyDrawn labels) (token : String) :
  (machine hash).Along
    (fun s a => a.drawn? = some token → ∀ e ∈ s.events, e.label.token? ≠ some token)
    (start now users) labels
  := by
  rw [Machine.along_iff]
  rintro before a after rfl s hrun hdraws e he
  have hlabels := labels_of_run hash hrun
  have hmem : e.label ∈ before := by
    rw [start, List.map_nil, List.nil_append] at hlabels
    rw [← hlabels]
    apply List.mem_map_of_mem he
  exact (List.pairwise_append.mp hdrawn).2.2 e.label hmem a List.mem_cons_self token hdraws

/-- In every run from a start without sessions, a token resolves only if a login issued it, it was not
logged out, it never failed to resolve before, and every gap between its resolutions, from its login on,
is at most the idle timeout.  Deleting an account changes nothing about what resolves. -/
theorem live_of_resolves {now : ℤ} {users : List User} {labels : List SessionLabel}
    {s : SessionHistory} {token : String}
    (hrun : (machine hash).run (start now users) labels = some s) (hdrawn : FreshlyDrawn labels)
    (hhash : ∀ a ∈ labels, ∀ token', a.token? = some token' → hash token' = hash token →
      token' = token) :
  (∀ before e, before ++ [e] <+: s.events → e.Resolves token → LiveToken token (before ++ [e]))
    ∧ ∀ user deleteHome answers idleTimeout,
      ((s.world.deleteUser user deleteHome answers).2.resolveSession hash token idleTimeout).1
        = (s.world.resolveSession hash token idleTimeout).1
  := by
  constructor
  · have hsound : Sound hash token s := by
      apply Machine.run_invariant _ _ ((machine hash).along_and
        (along_of_freshlyDrawn hash hdrawn token)
        ((machine hash).along_iff.mpr fun _ a _ heq _ _ =>
          hhash a (heq ▸ List.mem_append_right _ List.mem_cons_self))) hrun
      · rintro t a t' ht ⟨hfresh, hcollide⟩ hstep
        cases hstep
        apply ht.perform hash hfresh hcollide
      · constructor
        · rintro row ⟨⟩
        · rintro before e hprefix
          simp [start] at hprefix
    apply hsound.resolved
  · intro user deleteHome answers idleTimeout
    obtain ⟨hnow, hsessions⟩ := deleteUser_keeps s.world user deleteHome answers
    rw [resolveSession, resolveSession, hsessions, hnow]
    cases s.world.sessions.find? (hash token) with
    | none => rfl
    | some row =>
        by_cases htime : idleTimeout < s.world.now - row.lastSeen
        · simp only [if_pos htime]
        · simp only [if_neg htime]

end SessionWorld

/-! ### An account that is deleted -/

/-- A token that is drawn. -/
def sampleToken : String :=
  "pXw0cJf3mE5vYt8uNq2rLk7sHd9aBz1gTiQoVxRyCe4"

/-- SHA-256, of that token. -/
def sampleHash (token : String) : String :=
  if token = sampleToken then "55e7a93fd3ad5451c093b0370b6cac8828f5f1e1ab86406b36cd9aa2c57d47f8"
  else token

/-- An agent of which every command succeeds. -/
def willing : (op : UsersOp) → op.Answer
  | .run _ _ => .ok ⟨0, "", ""⟩
  | .getpwnam _ => .ok none
  | .getUser _ => .ok none
  | .addUser _ => .ok ()
  | .updateUser _ _ => .ok ()
  | .deleteUser _ => .ok ()
  | .audit _ => .ok ()

/-- An account. -/
def sampleUser : User :=
  ⟨1001, "alice", none, true, false, true, true⟩

/-- The account logs in, is deleted, and a second later presents its token. -/
def deletedAccount : List SessionLabel :=
  [.login ⟨1001, "alice", "user"⟩ none none sampleToken, .deleteUser sampleUser false willing,
    .tick 1000000, .resolve sampleToken 1800000000]

namespace SessionWorld

/-- The token resolves after its account is deleted. -/
theorem run_deletedAccount :
  ∃ w, (machine sampleHash).run (start 0 [sampleUser]) deletedAccount = some ⟨w,
    [⟨0, .login ⟨1001, "alice", "user"⟩ none none sampleToken, true⟩,
      ⟨0, .deleteUser sampleUser false willing, true⟩, ⟨0, .tick 1000000, true⟩]
      ++ [⟨1000000, .resolve sampleToken 1800000000, true⟩]⟩
  := ⟨_, rfl⟩

/-- The token is drawn before it is presented, and there is no other. -/
theorem freshlyDrawn_deletedAccount :
  FreshlyDrawn deletedAccount ∧ ∀ a ∈ deletedAccount, ∀ token', a.token? = some token' →
    sampleHash token' = sampleHash sampleToken → token' = sampleToken
  := by
  constructor
  · simp [FreshlyDrawn, deletedAccount, SessionLabel.drawn?]
  · simp only [deletedAccount, List.mem_cons, List.not_mem_nil, or_false]
    rintro a (rfl | rfl | rfl | rfl) token' htoken' -
    · cases htoken'
      rfl
    · cases htoken'
    · cases htoken'
    · cases htoken'
      rfl

/-- The token is live when it resolves a second after it was issued. -/
theorem live_deletedAccount :
  ∃ events, LiveToken sampleToken
    (events ++ [⟨1000000, .resolve sampleToken 1800000000, true⟩])
  := by
  obtain ⟨w, hrun⟩ := run_deletedAccount
  obtain ⟨hdrawn, hhash⟩ := freshlyDrawn_deletedAccount
  obtain ⟨hlive, -⟩ := live_of_resolves sampleHash hrun hdrawn hhash
  exact ⟨_, hlive _ _ (List.prefix_refl _) ⟨⟨_, rfl⟩, rfl⟩⟩

/-- A token resolves although its account was deleted since it was issued. -/
theorem resolves_deletedAccount :
  ¬ ∀ (hash : String → String) (now : ℤ) (users : List User) (labels : List SessionLabel)
      (s : SessionHistory) (token : String),
      (machine hash).run (start now users) labels = some s → FreshlyDrawn labels →
      (∀ a ∈ labels, ∀ token', a.token? = some token' → hash token' = hash token → token' = token) →
      ∀ before e, before ++ [e] <+: s.events → e.Resolves token →
        LiveToken token (before ++ [e]) ∧ AccountKept token (before ++ [e])
  := by
  intro hall
  obtain ⟨w, hrun⟩ := run_deletedAccount
  obtain ⟨hdrawn, hhash⟩ := freshlyDrawn_deletedAccount
  obtain ⟨-, hkept⟩ := hall _ _ _ _ _ _ hrun hdrawn hhash _ _ (List.prefix_refl _)
    ⟨⟨_, rfl⟩, rfl⟩
  apply hkept [] _ _ rfl _ _ _ rfl _ List.mem_cons_self
  exact ⟨sampleUser, false, willing, rfl, rfl, rfl, rfl⟩

end SessionWorld
