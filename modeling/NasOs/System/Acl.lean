import NasOs.Library.Table
import NasOs.Library.Text
import NasOs.Rpc.Dispatcher
import NasOs.System.Users

/-!
# Access control lists of shares

The adapter `SetfaclAcl`, which replaces the access control list of a path by a list of
permissions and reads one back, the adapter `FakeAcl`, which keeps the lists of a test in
dictionaries, and the two handlers that save permissions: the one for
the permissions of a share and the one of the file manager's editor.  A save of a whole tree is
a job; that of a share holds the share's lock while it runs.
-/

/-- `AclLevel`. -/
inductive AclLevel where
  | rw
  | ro
  deriving DecidableEq

/-- `PrincipalKind`. -/
inductive PrincipalKind where
  | user
  | group
  deriving DecidableEq

/-- An entry of a permission list. -/
structure AclEntry where
  kind : PrincipalKind
  numericId : ℤ
  level : AclLevel
  deriving DecidableEq

/-- The operations that saving and reading permissions await. -/
inductive AclOp where
  /-- `Runner.run`. -/
  | run (argv : List String)
  /-- Acquire the lock of a resource. -/
  | acquire (resource : String)
  /-- Release the lock of a resource. -/
  | release (resource : String)

/-- The answers to the operations. -/
abbrev AclOp.Answer : AclOp → Type
  | .run _ => Except Exc CommandResult
  | _ => Unit

/-- A computation that saves or reads permissions. -/
abbrev AclM (α : Type) : Type :=
  Async AclOp AclOp.Answer α

/-- `_ALWAYS_ENTRIES`. -/
def alwaysEntries : String :=
  "u::rwx,g::---,m::rwx,d:u::rwx,d:g::---,d:m::rwx,o::---,d:o::---"

/-- `_qualifier`. -/
def PrincipalKind.qualifier : PrincipalKind → String
  | .user => "u"
  | .group => "g"

/-- `_perm`. -/
def AclLevel.perm : AclLevel → String
  | .rw => "rwx"
  | .ro => "r-x"

/-- The fields of the text that sets the access entry. -/
def AclEntry.fields (e : AclEntry) : List String :=
  [e.kind.qualifier, toString e.numericId, e.level.perm]

/-- The texts that set the access and the default entry. -/
def AclEntry.specs (e : AclEntry) : List String :=
  [":".intercalate e.fields, ":".intercalate ("d" :: e.fields)]

namespace SetfaclAcl

/-- The entries `replace_all` sets. -/
def specs (entries : List AclEntry) : List String :=
  alwaysEntries :: entries.flatMap AclEntry.specs

/-- The arguments of the reset. -/
def resetArgs (path : String) (recursive : Bool) : List String :=
  if recursive then ["-b", "-R", path] else ["-b", path]

/-- The arguments of the rebuild. -/
def applyArgs (path : String) (entries : List AclEntry) (recursive : Bool) : List String :=
  if recursive then ["-R", "-m", ",".intercalate (specs entries), path]
  else ["-m", ",".intercalate (specs entries), path]

/-- `_run`. -/
def run (args : List String) : AclM Unit := do
  let result ← ExceptT.mk (Coroutine.perform (AclOp.run ("setfacl" :: args)))
  Async.raiseIf (!result.ok)
    (.adapterError (result.stderr.strip.orElse ("setfacl " ++ " ".intercalate args ++ " failed")))

/-- `replace_all`: a reset, then a rebuild. -/
def replaceAll (path : String) (entries : List AclEntry) (recursive : Bool) : AclM Unit := do
  run (resetArgs path recursive)
  run (applyArgs path entries recursive)

/-- What a line of `getfacl` adds to the entries. -/
def parseLine (line : List Char) : Except Exc (List AclEntry) :=
  let line := Text.strip line
  if line = [] ∨ line.head? = some '#' ∨ "default:".toList <+: line then .ok []
  else
    match line.splitOn ':' with
    | [qualifier, idStr, perm] =>
        if (qualifier = "user".toList ∨ qualifier = "group".toList) ∧ idStr ≠ [] then
          match Text.int idStr with
          | some id =>
              .ok [{ kind := if qualifier = "user".toList then .user else .group
                     numericId := id
                     level := if 'w' ∈ perm then .rw else .ro }]
          | none => .error (.other "invalid literal for int()")
        else .ok []
    | _ => .ok []

/-- `_parse_getfacl`. -/
def parseGetfacl (output : String) : Except Exc (List AclEntry) :=
  List.flatten <$> (Text.splitlines output.toList).mapM parseLine

/-- The command that prints the entries of a path. -/
def getfaclArgv (path : String) : List String :=
  ["getfacl", "-n", "--absolute-names", "--omit-header", path]

/-- `read_acl`. -/
def readAcl (path : String) : AclM (List AclEntry) := do
  let result ← ExceptT.mk (Coroutine.perform (AclOp.run (getfaclArgv path)))
  Async.raiseIf (!result.ok)
    (.adapterError (result.stderr.strip.orElse ("getfacl " ++ path ++ " failed")))
  Async.ofExcept (parseGetfacl result.stdout)

end SetfaclAcl

/-- What a dictionary of levels is looked up by. -/
def AclEntry.key (e : AclEntry) : PrincipalKind × ℤ :=
  (e.kind, e.numericId)

/-- A dictionary from principals to levels. -/
abbrev AclLevels : Type :=
  Table (Prod.fst : (PrincipalKind × ℤ) × AclLevel → PrincipalKind × ℤ)

/-- `FakeAcl`. -/
structure FakeAcl where
  entries : Table (Prod.fst : String × AclLevels → String)

namespace FakeAcl

/-- The dictionary of the entries of a list. -/
def levels (entries : List AclEntry) : AclLevels :=
  entries.foldl (fun levels e => levels.put (e.key, e.level)) Table.empty

/-- `replace_all`. -/
def replaceAll (acl : FakeAcl) (path : String) (entries : List AclEntry) : FakeAcl :=
  ⟨acl.entries.put (path, levels entries)⟩

/-- `read_acl`. -/
def readAcl (acl : FakeAcl) (path : String) : List AclEntry :=
  ((acl.entries.find? path).elim Table.empty Prod.snd).rows.map fun item =>
    ⟨item.1.1, item.1.2, item.2⟩

end FakeAcl

/-- `JobRunner._run` on the body of a job: the lock of the job's resource, if it has one, is held
while the body runs, however it ends.  A job that failed counts as raising what its body
raised. -/
def JobRunner.run (resource : Option String) (body : AclM Unit) : AclM Unit :=
  match resource with
  | none => body
  | some resource => do
      Async.ask (AclOp.acquire resource)
      let result ← ExceptT.lift body.run
      Async.ask (AclOp.release resource)
      Async.ofExcept result

/-- `shares.set_permissions`, with the job it submits for a whole tree. -/
def SharesHandlers.setPermissions (path : String) (entries : List AclEntry) (recursive : Bool) :
    AclM Unit :=
  if recursive then
    JobRunner.run (some ("share:" ++ path))
      (tryCatch (SetfaclAcl.replaceAll path entries true)
        fun
          | .adapterError message => throw (.other message)
          | e => throw e)
  else
    tryCatch (SetfaclAcl.replaceAll path entries false)
      fun
        | .adapterError message => throw (.rpcException "system_error" message)
        | e => throw e

/-- `files.set_acl`, with the job it submits for a whole tree. -/
def FilesHandlers.setAcl (path : String) (entries : List AclEntry) (recursive : Bool) :
    AclM Unit :=
  if recursive then JobRunner.run none (SetfaclAcl.replaceAll path entries true)
  else SetfaclAcl.replaceAll path entries false

example : SetfaclAcl.specs [⟨.user, 6001, .rw⟩, ⟨.group, 6002, .ro⟩]
    = [alwaysEntries, "u:6001:rwx", "d:u:6001:rwx", "g:6002:r-x", "d:g:6002:r-x"] := by
  decide
