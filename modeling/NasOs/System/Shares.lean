import NasOs.Shares.Config
import NasOs.Storage.World
import NasOs.System.ManagedFile

/-!
# What requests about shares await

A request about shares, accounts or groups changes the tables of the web process, directories and
their access control lists, and the configuration that Samba includes.  The operations of both
processes are here, as are the ways in which computations on accounts, access control lists and
managed files become parts of such a request.
-/

/-- A row of the `groups_meta` table. -/
structure GroupMeta where
  gid : ℤ
  name : String
  description : Option String
  createdByNasos : Bool
  deriving DecidableEq

/-- The operations that requests about shares, accounts and groups await. -/
inductive SharesOp where
  /-- An operation of a request about accounts. -/
  | users (op : UsersOp)
  /-- Select a row of the `users` table by its name. -/
  | findUser (username : String)
  /-- Look up a row of the `groups_meta` table. -/
  | getGroup (gid : ℤ)
  /-- Select a row of the `groups_meta` table by its name. -/
  | findGroup (name : String)
  /-- Add a row to the `groups_meta` table. -/
  | addGroup (group : GroupMeta)
  /-- Delete a row of the `groups_meta` table. -/
  | deleteGroup (group : GroupMeta)
  /-- Look up a row of the `volumes` table. -/
  | getVolume (volumeId : ℤ)
  /-- Look up a row of the `shares` table. -/
  | getShare (shareId : ℤ)
  /-- Add a row to the `shares` table. -/
  | addShare (name : String) (volumeId : ℤ) (path description : String)
  /-- Delete a row of the `shares` table, and with it the permissions of the share. -/
  | deleteShare (share : Share)
  /-- Replace the permissions of a share by others, in one transaction. -/
  | replacePermissions (shareId : ℤ) (rows : List SharePermission)
  /-- Select all shares with their permissions. -/
  | listShares
  /-- `os.path.exists`. -/
  | pathExists (path : String)
  /-- `grp.getgrnam`. -/
  | getgrnam (name : String)
  /-- `os.makedirs`. -/
  | makedirs (path : String)
  /-- `os.chown` to root and a group. -/
  | chown (path : String) (gid : ℤ)
  /-- `os.chmod`. -/
  | chmod (path : String) (mode : ℕ)
  /-- `shutil.rmtree`, of what may not be there. -/
  | rmtree (path : String)
  /-- An operation on access control lists. -/
  | acl (op : AclOp)
  /-- Submit a job that replaces the permissions of a whole tree. -/
  | submit (path : String) (entries : List AclEntry)
  /-- A step on the configuration. -/
  | config (op : ConfigOp)
  /-- Have Samba include the configuration, run, and let through the firewall. -/
  | ensureSamba

/-- The answers to the operations. -/
abbrev SharesOp.Answer : SharesOp → Type
  | .users op => op.Answer
  | .findUser _ => Option User
  | .getGroup _ => Option GroupMeta
  | .findGroup _ => Option GroupMeta
  | .addGroup _ => Except Exc Unit
  | .deleteGroup _ => Except Exc Unit
  | .getVolume _ => Option Volume
  | .getShare _ => Option Share
  | .addShare _ _ _ _ => Except Exc Share
  | .deleteShare _ => Except Exc Unit
  | .replacePermissions _ _ => Except Exc Unit
  | .listShares => List (Share × List SharePermission)
  | .pathExists _ => Bool
  | .getgrnam _ => Option ℤ
  | .makedirs _ => Except String Unit
  | .chown _ _ => Except String Unit
  | .chmod _ _ => Except String Unit
  | .rmtree _ => Except Exc Unit
  | .acl op => op.Answer
  | .submit _ _ => String
  | .config op => op.Answer
  | .ensureSamba => Except Exc Unit

/-- A computation of the shares subsystem. -/
abbrev SharesM (α : Type) : Type :=
  Async SharesOp SharesOp.Answer α

namespace SharesM

/-- A part of a request that is about accounts. -/
def ofUsers {α : Type} (c : UsersM α) : SharesM α :=
  ExceptT.mk (c.run.interpret fun op => Coroutine.perform (SharesOp.users op))

/-- A part of a request that is about access control lists. -/
def ofAcl {α : Type} (c : AclM α) : SharesM α :=
  ExceptT.mk (c.run.interpret fun op => Coroutine.perform (SharesOp.acl op))

/-- A part of a request that is about the configuration; its exceptions are handled there. -/
def ofConfig {α : Type} (c : ConfigM α) : SharesM (Except ConfigError α) :=
  ExceptT.lift (c.run.interpret fun op => Coroutine.perform (SharesOp.config op))

end SharesM
