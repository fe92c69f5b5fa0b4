import NasOs.Library.JsonReading
import NasOs.Library.Path
import NasOs.Library.Text
import NasOs.Storage.Steps
import NasOs.System.Users

/-!
# The execution of a plan

The job that executes a plan on the agent.  It gathers a fresh inventory, has the guard mark
it, resolves the serials of the plan to paths, and then runs the plan's steps one after the
other.
-/

/-- The settings the job reads. -/
structure Settings where
  /-- The mode is `dev` or `test`, in which the files of the system are not touched. -/
  sandboxed : Bool
  devdataDir : String
  stateDir : String

/-- `Settings.system_path`. -/
def Settings.systemPath (settings : Settings) (realPath : String) : String :=
  if settings.sandboxed then settings.devdataDir ++ realPath else realPath

/-- `StorageExecutePlanParams`; `expectedSizes` is a dictionary. -/
structure StorageExecutePlanParams where
  spec : StoragePlanSpec
  expectedSizes : List (String × ℤ)
  managedMountpoints : List String
  deriving DecidableEq

/-! ### Resolving the serials -/

/-- The device a serial is looked up to: the last one that carries it in the tree. -/
def bySerial (disks : List DiskNode) (serial : String) : Option DiskNode :=
  (RoseTree.subtreesOf disks).reverse.find? fun node => truthy node.value.serial = some serial

/-- The path a serial of a plan is resolved to. -/
def resolveSerial (fresh : StorageInventoryResult) (protectedSerials : List String)
    (expectedSizes : List (String × ℤ)) (serial : String) : Except Exc String :=
  match bySerial fresh.disks serial with
  | none =>
      .error (.rpcException "device_missing" ("disk " ++ serial ++ " is no longer present"))
  | some node =>
      if serial ∈ protectedSerials then
        .error (.rpcException "device_protected"
          ("disk " ++ serial ++ " is now protected: " ++ node.value.protectedReason.getD "None"))
      else
        match expectedSizes.lookup serial with
        | some expected =>
            if node.value.size ≠ expected then
              .error (.rpcException "size_mismatch"
                ("disk " ++ serial ++ " is now " ++ toString node.value.size ++ " bytes, was "
                  ++ toString expected ++ " when the plan was made"))
            else .ok node.value.path
        | none => .ok node.value.path

/-- `_resolve_spec`: the spec with the paths that its serials have now. -/
def resolveSpec (spec : StoragePlanSpec) (fresh : StorageInventoryResult)
    (protectedSerials : List String) (expectedSizes : List (String × ℤ)) :
    Except Exc StoragePlanSpec := do
  let resolvedPaths ← spec.diskSerials.mapM (resolveSerial fresh protectedSerials expectedSizes)
  pure { spec with diskPaths := resolvedPaths }

/-! ### The units and drop-ins -/

/-- `__version__`. -/
def version : String :=
  "0.1.0"

/-- The first line of every file Storage Manager writes. -/
def unitHeader : String :=
  "# Generated by NAS-OS " ++ version ++ ". DO NOT EDIT; managed by Storage Manager.\n"

/-- `render_mount_unit`. -/
def renderMountUnit (uuid mountpoint fstype : String) : String :=
  unitHeader ++ "[Unit]\nDescription=NAS-OS volume " ++ mountpoint ++ "\n\n[Mount]\nWhat=UUID="
    ++ uuid ++ "\nWhere=" ++ mountpoint ++ "\nType=" ++ fstype
    ++ "\nOptions=defaults,noatime\n\n[Install]\nWantedBy=nasos-volumes.target\n"

/-- `render_volumes_target`. -/
def renderVolumesTarget : String :=
  unitHeader
    ++ "[Unit]\nDescription=NAS-OS managed volumes\n\n[Install]\nWantedBy=multi-user.target\n"

/-- `render_service_dropin`. -/
def renderServiceDropin (mountpoints : List String) : String :=
  unitHeader ++ "[Unit]\nAfter=nasos-volumes.target\nRequiresMountsFor="
    ++ " ".intercalate mountpoints ++ "\n"

/-- `service_dropin_path`. -/
def serviceDropinPath (unit : String) : String :=
  "/etc/systemd/system/" ++ unit ++ ".d/50-nasos-volumes.conf"

/-- `mount_unit_path`. -/
def mountUnitPath (unitName : String) : String :=
  "/etc/systemd/system/" ++ unitName

/-- `VOLUMES_TARGET_UNIT_PATH`. -/
def volumesTargetUnitPath : String :=
  "/etc/systemd/system/nasos-volumes.target"

/-- `_DROPIN_SERVICES`. -/
def dropinServices : List String :=
  ["smb.service", "nfs-server.service", "vsftpd.service"]

/-! ### The job -/

/-- The operations that the job awaits. -/
inductive StorageOp where
  /-- `JobHandle.progress`, of a fraction. -/
  | progress (done total : ℕ) (message : String)
  /-- `inventory.gather`. -/
  | gather
  /-- `Runner.run`. -/
  | run (argv : List String)
  /-- Replace the content of a file; the answer says whether there was one. -/
  | writeAtomic (path content : String)
  /-- Keep a copy of what a file was. -/
  | backup (path backupDir : String)
  | daemonReload
  | enable (unit : String)
  | start (unit : String)
  | waitActive (unit : String) (timeout : ℕ)
  | makedirs (path : String)
  deriving DecidableEq

/-- The answers to the operations. -/
abbrev StorageOp.Answer : StorageOp → Type
  | .progress _ _ _ => Except Exc Unit
  | .gather => Except Exc StorageInventoryResult
  | .run _ => Except Exc CommandResult
  | .writeAtomic _ _ => Except Exc Bool
  | _ => Except Exc Unit

/-- A computation of the storage subsystem. -/
abbrev StorageM (α : Type) : Type :=
  Async StorageOp StorageOp.Answer α

namespace ExecutePlan

/-- Await an operation that returns nothing. -/
def progress (done total : ℕ) (message : String) : StorageM Unit :=
  ExceptT.mk (Coroutine.perform (StorageOp.progress done total message))

/-- Await `inventory.gather`. -/
def gather : StorageM StorageInventoryResult :=
  ExceptT.mk (Coroutine.perform StorageOp.gather)

/-- Await `Runner.run`. -/
def run (argv : List String) : StorageM CommandResult :=
  ExceptT.mk (Coroutine.perform (StorageOp.run argv))

/-- `ManagedFile.write_and_apply` of a file that needs no validation and has no service to
reload. -/
def writeAndApply (settings : Settings) (path content : String) : StorageM Unit := do
  let previous ← ExceptT.mk (Coroutine.perform (StorageOp.writeAtomic path content))
  let _ ← run ["restorecon", path]
  if previous then
    ExceptT.mk (Coroutine.perform (StorageOp.backup path (settings.stateDir ++ "/config-backups")))
  else pure ()

/-- `mount_unit_name`. -/
def mountUnitName (mountpoint : String) : StorageM String := do
  let result ← run ["systemd-escape", "-p", "--suffix=mount", mountpoint]
  let name := result.stdout.strip
  Async.raiseIf (!result.ok ∨ name = "")
    (.adapterError (result.stderr.strip.orElse "systemd-escape produced no unit name"))
  pure name

/-- Write the drop-in of each of the services. -/
def writeDropins (settings : Settings) (mountpoints : List String) : List String → StorageM Unit
  | [] => pure ()
  | unit :: units => do
      writeAndApply settings (settings.systemPath (serviceDropinPath unit))
        (renderServiceDropin mountpoints)
      writeDropins settings mountpoints units

/-- What the steps so far have found out: the name of the mount unit and the UUID of the
filesystem. -/
structure StepState where
  unitName : Option String
  fsUuid : String

/-- Execute a step. -/
def step (settings : Settings) (params : StorageExecutePlanParams) (resolved : StoragePlanSpec)
    (state : StepState) (planStep : PlanStep) : StorageM StepState :=
  match planStep.op with
  | .run => do
      let result ← run planStep.argv
      Async.raiseIf (!result.ok)
        (.other (planStep.description ++ " failed: " ++ result.stderr.strip))
      pure state
  | .writeUnit => do
      let blkidResult ← run ["blkid", "-o", "value", "-s", "UUID", lvDevice resolved]
      let fsUuid := blkidResult.stdout.strip
      let unitName ← mountUnitName resolved.mountpoint
      writeAndApply settings (settings.systemPath (mountUnitPath unitName))
        (renderMountUnit fsUuid resolved.mountpoint resolved.filesystem.str)
      pure ⟨some unitName, fsUuid⟩
  | .writeTarget => do
      writeAndApply settings (settings.systemPath volumesTargetUnitPath) renderVolumesTarget
      pure state
  | .writeDropins => do
      writeDropins settings params.managedMountpoints dropinServices
      pure state
  | .daemonReload => do
      ExceptT.mk (Coroutine.perform StorageOp.daemonReload)
      pure state
  | .enableStartUnit =>
      match state.unitName with
      | none => throw (.other "")
      | some unitName => do
          ExceptT.mk (Coroutine.perform (StorageOp.enable unitName))
          ExceptT.mk (Coroutine.perform (StorageOp.start unitName))
          ExceptT.mk (Coroutine.perform (StorageOp.waitActive unitName 30))
          pure state
  | .restorecon => do
      let _ ← run ["restorecon", "-R", resolved.mountpoint]
      pure state

/-- Execute the steps from the one at `index` of `total` on. -/
def steps (settings : Settings) (params : StorageExecutePlanParams) (resolved : StoragePlanSpec)
    (total : ℕ) : ℕ → StepState → List PlanStep → StorageM StepState
  | _, state, [] => pure state
  | index, state, planStep :: rest => do
      progress index total planStep.description
      let state ← step settings params resolved state planStep
      steps settings params resolved total (index + 1) state rest

/-- The last message of a job, from which the volume is registered. -/
def result (resolved : StoragePlanSpec) (fsUuid : String) : Json :=
  .obj
    [("name", .str resolved.volumeName), ("mountpoint", .str resolved.mountpoint),
      ("filesystem", .str resolved.filesystem.str), ("device", .str (lvDevice resolved)),
      ("uuid", .str fsUuid), ("raid_level", .str resolved.level.str),
      ("array_name", if resolved.level ≠ .basic then .str resolved.arrayName else .null),
      ("disk_serials", .arr (resolved.diskSerials.map .str))]

/-- What the job does with a resolved spec. -/
def executeSpec (settings : Settings) (params : StorageExecutePlanParams)
    (resolved : StoragePlanSpec) : StorageM Unit := do
  let planSteps ← Async.ofExcept (buildSteps resolved)
  let state ← steps settings params resolved planSteps.length 0 ⟨none, ""⟩ planSteps
  ExceptT.mk (Coroutine.perform (StorageOp.makedirs
    (Path.join (Path.join resolved.mountpoint "@nasos") "tmp")))
  progress 1 1 (String.ofList (Json.print Json.dumps (result resolved state.fsUuid)))

/-- The spec that a fresh inventory resolves the plan to. -/
def resolve (params : StorageExecutePlanParams) (fresh : StorageInventoryResult) :
    Except Exc StoragePlanSpec :=
  resolveSpec params.spec (computeProtected fresh).2 (computeProtected fresh).1
    params.expectedSizes

/-- `execute_plan.body`. -/
def body (settings : Settings) (params : StorageExecutePlanParams) : StorageM Unit := do
  progress 0 1 "Re-checking device safety"
  let fresh ← gather
  let resolved ← Async.ofExcept (resolve params fresh)
  executeSpec settings params resolved

end ExecutePlan
