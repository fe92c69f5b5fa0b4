import NasOs.Library.Table
import NasOs.Users.Chpasswd

/-!
# The two passwords of a user

`chpasswd` sets the password of an account, and `smbpasswd` the one in Samba's own database.  The web
process has a row for each user that it manages, with a flag that says whether the two are the same.

Requests run concurrently over the same backends and the same table.  A command that succeeds does what
it is documented to do with what it reads; one that fails, or that cannot be started, changes nothing.
The row that a request has loaded stays as it was loaded, and a commit writes the columns that the request
has changed.
-/

/-- The accounts of the system with their passwords, and the tables of the web process. -/
structure AccountsWorld where
  accounts : List (String × ℤ)
  unix : String → Option String
  samba : String → Option String
  users : Table User.uid
  notifications : List Notification

/-- What becomes of an operation. -/
inductive UsersChoice where
  /-- A command succeeds and prints something; a new account gets a uid. -/
  | succeeds (uid : ℤ) (stdout : String)
  /-- A command fails. -/
  | fails (returncode : ℤ) (stderr : String)
  /-- A command cannot be run. -/
  | raises (e : Exc)
  /-- The system or the database answers. -/
  | answers
  /-- A commit compares a row with the row as it was loaded. -/
  | flushes (loaded : User)

/-- The password that `smbpasswd -s` reads: it has to be there twice. -/
def smbpasswdEntry (stdin : String) : Option String :=
  match Text.records '\n' stdin.toList with
  | new :: retyped :: _ => if new = retyped then some (String.ofList new) else none
  | _ => none

namespace AccountsWorld

/-- The uid of an account. -/
def uid? (w : AccountsWorld) (username : String) : Option ℤ :=
  w.accounts.lookup username

/-- Set the password of an account. -/
def setUnix (w : AccountsWorld) (username password : String) : AccountsWorld :=
  { w with unix := Function.update w.unix username (some password) }

/-- Set a password of Samba. -/
def setSamba (w : AccountsWorld) (username password : String) : AccountsWorld :=
  { w with samba := Function.update w.samba username (some password) }

/-- `chpasswd`: each line is a record, of an account that there is. -/
def chpasswd (w : AccountsWorld) (stdin : String) : Option AccountsWorld :=
  (chpasswdRecords stdin).foldlM
    (fun w record =>
      record.bind fun entry => (w.uid? entry.1).map fun _ => w.setUnix entry.1 entry.2)
    w

/-- What a command that succeeds makes of the accounts. -/
def command (w : AccountsWorld) (uid : ℤ) (stdout : String) :
    List String → Option String → Option AccountsWorld
  | ["useradd", "-m", "-d", _, "-s", _, "-G", _, "-c", _, username], none =>
      if (w.uid? username).isSome ∨ uid ∈ w.accounts.map Prod.snd then none
      else some { w with
        accounts := w.accounts ++ [(username, uid)]
        unix := Function.update w.unix username none }
  | ["id", "-u", username], none =>
      (w.uid? username).bind fun uid =>
        if Text.int stdout.strip.toList = some uid then some w else none
  | ["chpasswd"], some stdin => w.chpasswd stdin
  | ["smbpasswd", "-s", "-a", username], some stdin =>
      (w.uid? username).bind fun _ => (smbpasswdEntry stdin).map (w.setSamba username)
  | ["smbpasswd", "-s", username], some stdin =>
      (w.samba username).bind fun _ => (smbpasswdEntry stdin).map (w.setSamba username)
  | ["usermod", "-aG", _, username], none => (w.uid? username).map fun _ => w
  | _, _ => none

/-- Add a row: the uid and the username are unique. -/
def add (w : AccountsWorld) (row : User) : Option AccountsWorld :=
  if row.username ∈ w.users.rows.map User.username then none
  else (w.users.insert row).map fun users => { w with users }

/-- The columns of a row that were changed since it was loaded, put into the row that there is. -/
def flush (loaded new row : User) : User :=
  { uid := row.uid
    username := if new.username ≠ loaded.username then new.username else row.username
    description := if new.description ≠ loaded.description then new.description else row.description
    smbEnabled := if new.smbEnabled ≠ loaded.smbEnabled then new.smbEnabled else row.smbEnabled
    ftpEnabled := if new.ftpEnabled ≠ loaded.ftpEnabled then new.ftpEnabled else row.ftpEnabled
    createdByNasos :=
      if new.createdByNasos ≠ loaded.createdByNasos then new.createdByNasos else row.createdByNasos
    smbPasswordSynced :=
      if new.smbPasswordSynced ≠ loaded.smbPasswordSynced then new.smbPasswordSynced
      else row.smbPasswordSynced }

/-- Commit a row that was changed, with a notification. -/
def update (w : AccountsWorld) (loaded new : User) (notification : Option Notification) :
    AccountsWorld :=
  { w with
    users := ((w.users.find? new.uid).map fun row => w.users.replace (flush loaded new row)).getD w.users
    notifications := w.notifications ++ notification.toList }

/-- Both backends hold the same password for a user. -/
def SamePassword (w : AccountsWorld) (username : String) : Prop :=
  ∃ password, w.unix username = some password ∧ w.samba username = some password

end AccountsWorld

/-- The backends and the database. -/
def usersEffects : Effects UsersOp UsersOp.Answer AccountsWorld UsersChoice Empty where
  perform w
    | .run argv input, .succeeds uid stdout =>
        (w.command uid stdout argv input).map fun w' => (.ok ⟨0, stdout, ""⟩, w')
    | .run _ _, .fails returncode stderr =>
        if returncode = 0 then none else some (.ok ⟨returncode, "", stderr⟩, w)
    | .run _ _, .raises e => some (.error e, w)
    | .getpwnam username, .answers => some (.ok (w.uid? username), w)
    | .getUser uid, .answers => some (.ok (w.users.find? uid), w)
    | .addUser user, .answers =>
        match w.add user with
        | some w' => some (.ok (), w')
        | none => some (.error (.other "IntegrityError"), w)
    | .updateUser user notification, .flushes loaded =>
        some (.ok (), w.update loaded user notification)
    | .audit _, .answers => some (.ok (), w)
    | _, _ => none
  environment _ e := nomatch e

/-! ### Requests -/

/-- A request that takes a password, or `POST /users/import`. -/
inductive UserRequest where
  | password (request : PasswordRequest)
  | importUser (username description : String)

namespace UserRequest

/-- What the API does with the request. -/
def api (session : Session) : UserRequest → UsersM UserOut
  | .password request => request.api session
  | .importUser username description => UsersApi.importUser session username description

/-- The user that the request is for. -/
def account (h : List (Event UsersOp UsersOp.Answer)) : UserRequest → Option String
  | .password request => request.account h
  | .importUser username _ => some username

/-- The request takes no password, or one without a newline. -/
def plain : UserRequest → Bool
  | .password request => '\n' ∉ request.password.toList
  | .importUser _ _ => true

/-- The request takes a password. -/
def takesPassword : UserRequest → Bool
  | .password _ => true
  | .importUser _ _ => false

end UserRequest

/-- Requests that run concurrently. -/
abbrev UsersPool : Type :=
  Pool UsersOp UsersOp.Answer AccountsWorld (Except Exc UserOut)

/-- The requests of some sessions, before they begin. -/
def usersPool (requests : List (Session × UserRequest)) (world : AccountsWorld) : UsersPool :=
  Pool.start world (requests.map fun request => (request.2.api request.1).run)

/-- The row that a request has loaded. -/
def loadedRow : List (Event UsersOp UsersOp.Answer) → Option User
  | ⟨.getUser _, .ok row⟩ :: _ => row
  | _ => none

namespace UsersPool

/-- What a commit compares a row with is the row that the request has loaded. -/
def flushesLoaded (p : UsersPool) : Pool.Label UsersChoice Empty → Bool
  | .task i (.flushes loaded) => loadedRow (p.historyOf i) = some loaded
  | _ => true

/-- The machine of the requests. -/
def machine : Machine UsersPool (Pool.Label UsersChoice Empty) :=
  (Pool.machine usersEffects).guard flushesLoaded

/-- The request has begun, it has not ended, and it is for the user. -/
def inFlight (requests : List (Session × UserRequest)) (p : UsersPool) (username : String) (i : ℕ) :
    Bool :=
  match requests[i]? with
  | some (_, request) =>
      (p.pendingOf i).isSome && !(p.historyOf i).isEmpty
        && request.account (p.historyOf i) = some username
  | none => false

/-- The request is in flight, and it takes a password. -/
def setsPassword (requests : List (Session × UserRequest)) (p : UsersPool) (username : String)
    (i : ℕ) : Bool :=
  p.inFlight requests username i && (requests[i]?.any fun request => request.2.takesPassword)

/-- For a user that no request in flight is for, the flag is set only when both backends hold the same
password. -/
def Truthful (requests : List (Session × UserRequest)) (p : UsersPool) : Prop :=
  ∀ row ∈ p.world.users.rows, row.smbPasswordSynced = true →
    (∀ i, p.inFlight requests row.username i = false) → p.world.SamePassword row.username

end UsersPool
