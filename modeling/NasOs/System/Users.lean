import Mathlib.Data.Int.Notation
import NasOs.Library.Text
import NasOs.Rpc.Dispatcher

/-!
# Accounts of the system

The operations that the requests about users await, and the adapter `RealPosixUsers`, which
runs the commands that manage accounts and their Samba passwords.  The web process and the
agent take part in the same request, so the operations of both are here: the agent runs
commands and looks accounts up, the web process reads and writes its `users` table.
-/

/-! ### Commands -/

/-- `CommandResult`: what a command that the agent ran returned and printed. -/
structure CommandResult where
  returncode : ℤ
  stdout : String
  stderr : String
  deriving DecidableEq

/-- The command succeeded. -/
def CommandResult.ok (r : CommandResult) : Bool :=
  r.returncode == 0

/-! ### Accounts -/

/-- A row of the `users` table. -/
structure User where
  uid : ℤ
  username : String
  description : Option String
  smbEnabled : Bool
  ftpEnabled : Bool
  createdByNasos : Bool
  smbPasswordSynced : Bool
  deriving DecidableEq

/-- A row of the `notifications` table. -/
structure Notification where
  level : String
  title : String
  message : String
  source : String
  deriving DecidableEq

/-- A row of the `audit_log` table. -/
structure AuditLog where
  username : String
  role : String
  ip : Option String
  method : String
  path : String
  action : String
  statusCode : ℕ
  detail : Option String
  deriving DecidableEq

/-- The operations that the requests about users await. -/
inductive UsersOp where
  /-- `Runner.run`. -/
  | run (argv : List String) (input : Option String)
  /-- `pwd.getpwnam`. -/
  | getpwnam (username : String)
  /-- Look up a row of the `users` table. -/
  | getUser (uid : ℤ)
  /-- Add a row to the `users` table. -/
  | addUser (user : User)
  /-- Write a changed row back, with a notification added in the same transaction. -/
  | updateUser (user : User) (notification : Option Notification)
  /-- Delete a row of the `users` table. -/
  | deleteUser (user : User)
  /-- Add a row to the audit log. -/
  | audit (entry : AuditLog)
  deriving DecidableEq

/-- The answers to the operations: each of them may raise. -/
abbrev UsersOp.Answer : UsersOp → Type
  | .run _ _ => Except Exc CommandResult
  | .getpwnam _ => Except Exc (Option ℤ)
  | .getUser _ => Except Exc (Option User)
  | _ => Except Exc Unit

/-- A computation of the users subsystem. -/
abbrev UsersM (α : Type) : Type :=
  Async UsersOp UsersOp.Answer α

/-- Await `Runner.run`. -/
def Runner.run (argv : List String) (input : Option String) : UsersM CommandResult :=
  ExceptT.mk (Coroutine.perform (UsersOp.run argv input))

namespace RealPosixUsers

/-- `_run`: run a command that must succeed. -/
def run (argv : List String) (error : String) (input : Option String) : UsersM Unit := do
  let result ← Runner.run argv input
  Async.raiseIf (!result.ok) (.adapterError (result.stderr.strip.orElse error))

/-- `lookup`. -/
def lookup (username : String) : UsersM (Option ℤ) :=
  ExceptT.mk (Coroutine.perform (UsersOp.getpwnam username))

/-- `create`. -/
def create (username homeDir description : String) : UsersM ℤ := do
  run ["useradd", "-m", "-d", homeDir, "-s", "/sbin/nologin", "-G", "nasos-users", "-c",
    description, username] ("useradd failed for " ++ username) none
  let idResult ← Runner.run ["id", "-u", username] none
  Async.raiseIf (!idResult.ok)
    (.adapterError (idResult.stderr.strip.orElse ("id -u failed for " ++ username)))
  match Text.int idResult.stdout.strip.toList with
  | some uid => pure uid
  | none => throw (.other "invalid literal for int()")

/-- `delete`. -/
def delete (username : String) (deleteHome : Bool) : UsersM Unit :=
  run (if deleteHome then ["userdel", "-r", username] else ["userdel", username])
    ("userdel failed for " ++ username) none

/-- `set_unix_password`. -/
def setUnixPassword (username password : String) : UsersM Unit :=
  run ["chpasswd"] ("chpasswd failed for " ++ username) (some (username ++ ":" ++ password ++ "\n"))

/-- `add_to_group`. -/
def addToGroup (username group : String) : UsersM Unit :=
  run ["usermod", "-aG", group, username] ("usermod failed for " ++ username) none

/-- `remove_from_group`. -/
def removeFromGroup (username group : String) : UsersM Unit :=
  run ["gpasswd", "-d", username, group] ("gpasswd -d failed for " ++ username) none

/-- `smb_create`. -/
def smbCreate (username password : String) : UsersM Unit :=
  run ["smbpasswd", "-s", "-a", username] ("smbpasswd -a failed for " ++ username)
    (some (password ++ "\n" ++ password ++ "\n"))

/-- `smb_set_password`. -/
def smbSetPassword (username password : String) : UsersM Unit :=
  run ["smbpasswd", "-s", username] ("smbpasswd failed for " ++ username)
    (some (password ++ "\n" ++ password ++ "\n"))

/-- `smb_delete`. -/
def smbDelete (username : String) : UsersM Unit :=
  run ["pdbedit", "-x", "-u", username] ("pdbedit -x failed for " ++ username) none

/-- `smb_set_enabled`. -/
def smbSetEnabled (username : String) (enabled : Bool) : UsersM Unit :=
  let flag := if enabled then "-e" else "-d"
  run ["smbpasswd", flag, username] ("smbpasswd " ++ flag ++ " failed for " ++ username) none

/-- `group_create`: the gid is the third field of the line `name:x:gid:members`. -/
def groupCreate (name : String) : UsersM ℤ := do
  run ["groupadd", name] ("groupadd failed for " ++ name) none
  let getent ← Runner.run ["getent", "group", name] none
  Async.raiseIf (!getent.ok) (.adapterError ("getent group failed for " ++ name))
  match (getent.stdout.strip.toList.splitOn ':')[2]? with
  | none => throw (.other "list index out of range")
  | some field =>
      match Text.int field with
      | some gid => pure gid
      | none => throw (.other "invalid literal for int()")

/-- `group_delete`. -/
def groupDelete (name : String) : UsersM Unit :=
  run ["groupdel", name] ("groupdel failed for " ++ name) none

end RealPosixUsers
