import NasOs.Rpc.Dispatcher
import NasOs.Storage.Guard

/-!
# The steps of a plan

A plan wipes and partitions its disks, puts an array on the partitions unless it has a
single disk, a volume group and a logical volume on that, and a filesystem on the logical
volume; the rest of its steps have the filesystem mounted.  `build_steps` is a pure function
of the plan's spec.
-/

/-- `RaidLevel`. -/
inductive RaidLevel where
  | basic
  | raid1
  | raid5
  | raid6
  | raid10
  deriving DecidableEq

/-- The literal of a level. -/
def RaidLevel.str : RaidLevel → String
  | basic => "basic"
  | raid1 => "1"
  | raid5 => "5"
  | raid6 => "6"
  | raid10 => "10"

/-- `Filesystem`. -/
inductive Filesystem where
  | xfs
  | ext4
  deriving DecidableEq

/-- The literal of a filesystem. -/
def Filesystem.str : Filesystem → String
  | xfs => "xfs"
  | ext4 => "ext4"

/-- `StoragePlanSpec`. -/
structure StoragePlanSpec where
  volumeName : String
  level : RaidLevel
  filesystem : Filesystem
  diskPaths : List String
  diskSerials : List String
  arrayName : String
  vgName : String
  lvName : String
  mountpoint : String
  deriving DecidableEq

/-- What the executor does for a step. -/
inductive StepOp where
  | run
  | writeUnit
  | writeTarget
  | writeDropins
  | daemonReload
  | enableStartUnit
  | restorecon
  deriving DecidableEq

/-- `PlanStep`. -/
structure PlanStep where
  description : String
  op : StepOp
  argv : List String
  deriving DecidableEq

/-- `wipefs_argv`. -/
def wipefsArgv (device : String) : List String :=
  ["wipefs", "-a", device]

/-- `mkpart_argv`. -/
def mkpartArgv (device : String) : List String :=
  ["parted", "-s", device, "mklabel", "gpt", "mkpart", "nasos", "1MiB", "100%", "set", "1",
    "raid", "on"]

/-- `mdadm.create_argv`. -/
def mdadmCreateArgv (arrayName level : String) (devices : List String) : List String :=
  ["mdadm", "--create", "/dev/md/" ++ arrayName, "--level=" ++ level,
    "--raid-devices=" ++ toString devices.length, "--metadata=1.2", "--name=" ++ arrayName,
    "--run"] ++ devices

/-- `pvcreate_argv`. -/
def pvcreateArgv (device : String) : List String :=
  ["pvcreate", device]

/-- `vgcreate_argv`. -/
def vgcreateArgv (vgName device : String) : List String :=
  ["vgcreate", vgName, device]

/-- `lvcreate_full_free_argv`. -/
def lvcreateFullFreeArgv (vgName lvName : String) : List String :=
  ["lvcreate", "-l", "100%FREE", "-n", lvName, vgName]

/-- `mkfs.argv`. -/
def mkfsArgv (filesystem : Filesystem) (label device : String) : List String :=
  match filesystem with
  | .xfs => ["mkfs.xfs", "-L", label, device]
  | .ext4 => ["mkfs.ext4", "-L", label, device]

/-- `partition_path`: a disk whose name ends in a digit has a `p` before the number. -/
def partitionPath (disk : String) (number : ℕ) : String :=
  if (disk.toList.getLast?.map Char.isDigit).getD false then disk ++ "p" ++ toString number
  else disk ++ toString number

/-- `array_device`. -/
def arrayDevice (spec : StoragePlanSpec) : String :=
  "/dev/md/" ++ spec.arrayName

/-- `lv_device`. -/
def lvDevice (spec : StoragePlanSpec) : String :=
  "/dev/" ++ spec.vgName ++ "/" ++ spec.lvName

/-- The steps that put a volume group on a device and a mounted filesystem on that. -/
def volumeSteps (spec : StoragePlanSpec) (pvDevice : String) : List PlanStep :=
  [⟨"Initialize physical volume on " ++ pvDevice, .run, pvcreateArgv pvDevice⟩,
    ⟨"Create volume group " ++ spec.vgName, .run, vgcreateArgv spec.vgName pvDevice⟩,
    ⟨"Create logical volume " ++ spec.lvName, .run,
      lvcreateFullFreeArgv spec.vgName spec.lvName⟩,
    ⟨"Create " ++ spec.filesystem.str ++ " filesystem", .run,
      mkfsArgv spec.filesystem spec.lvName (lvDevice spec)⟩,
    ⟨"Create mount unit for " ++ spec.mountpoint, .writeUnit, []⟩,
    ⟨"Ensure nasos-volumes.target exists", .writeTarget, []⟩,
    ⟨"Update service drop-ins (RequiresMountsFor)", .writeDropins, []⟩,
    ⟨"Reload systemd", .daemonReload, []⟩,
    ⟨"Enable and start mount for " ++ spec.mountpoint, .enableStartUnit, []⟩,
    ⟨"Apply SELinux context to " ++ spec.mountpoint, .restorecon, []⟩]

/-- The steps that wipe and partition a disk. -/
def diskSteps (disk : String) : List PlanStep :=
  [⟨"Wipe existing signatures on " ++ disk, .run, wipefsArgv disk⟩,
    ⟨"Create partition table on " ++ disk, .run, mkpartArgv disk⟩]

/-- `build_steps`; a single-disk plan without a disk raises. -/
def buildSteps (spec : StoragePlanSpec) : Except Exc (List PlanStep) :=
  let partitions := spec.diskPaths.map fun disk => partitionPath disk 1
  match spec.level with
  | .basic =>
      match partitions with
      | [] => .error (.other "list index out of range")
      | partition :: _ =>
          .ok (spec.diskPaths.flatMap diskSteps ++ volumeSteps spec partition)
  | level =>
      let createArray : PlanStep :=
        ⟨"Create RAID " ++ level.str ++ " array " ++ spec.arrayName, .run,
          mdadmCreateArgv spec.arrayName level.str partitions⟩
      .ok (spec.diskPaths.flatMap diskSteps ++ createArray :: volumeSteps spec (arrayDevice spec))

/-- The step that creates the array. -/
def arrayStep (spec : StoragePlanSpec) : PlanStep :=
  ⟨"Create RAID " ++ spec.level.str ++ " array " ++ spec.arrayName, .run,
    mdadmCreateArgv spec.arrayName spec.level.str
      (spec.diskPaths.map fun disk => partitionPath disk 1)⟩

/-- The two shapes of a plan's steps. -/
theorem buildSteps_cases {spec : StoragePlanSpec} {steps : List PlanStep}
    (h : buildSteps spec = .ok steps) :
  (∃ disk disks, spec.level = .basic ∧ spec.diskPaths = disk :: disks
      ∧ steps = spec.diskPaths.flatMap diskSteps ++ volumeSteps spec (partitionPath disk 1))
    ∨ (spec.level ≠ .basic
      ∧ steps = spec.diskPaths.flatMap diskSteps
        ++ arrayStep spec :: volumeSteps spec (arrayDevice spec))
  := by
  simp only [buildSteps] at h
  split at h
  · rename_i hlevel
    split at h
    · cases h
    · rename_i partition partitions hpartitions
      cases h
      left
      obtain ⟨disk, disks, hdisks, rfl, -⟩ := List.map_eq_cons_iff.mp hpartitions
      use disk, disks, hlevel, hdisks
  · rename_i hlevel
    cases h
    right
    constructor
    · apply hlevel
    · rfl

/-! ### The devices that the steps work on -/

/-- The devices that a command of a plan writes to. -/
def targets : List String → List String
  | ["wipefs", _, device] => [device]
  | "parted" :: _ :: device :: _ => [device]
  | "mdadm" :: _ :: array :: args => array :: args.drop 5
  | ["pvcreate", device] => [device]
  | ["vgcreate", _, device] => [device]
  | ["mkfs.xfs", _, _, device] => [device]
  | ["mkfs.ext4", _, _, device] => [device]
  | _ => []

/-- A device that a plan may write to: one of its disks, the partition it made there, its
array or its logical volume. -/
def MadeOf (spec : StoragePlanSpec) (device : String) : Prop :=
  (∃ disk ∈ spec.diskPaths, device = disk ∨ device = partitionPath disk 1)
    ∨ device = arrayDevice spec ∨ device = lvDevice spec

/-- The partition made on a disk of a plan is one of its devices. -/
theorem MadeOf.of_partition {spec : StoragePlanSpec} {device : String}
    (h : device ∈ spec.diskPaths.map fun disk => partitionPath disk 1) :
  MadeOf spec device
  := by
  obtain ⟨disk, hdisk, rfl⟩ := List.mem_map.mp h
  left
  use disk, hdisk
  right
  rfl

/-- The devices that the commands of a plan write to: its disks and what it makes of them, of which there is
nothing if no plan can be built. -/
def written (spec : StoragePlanSpec) : List String :=
  match spec.level, spec.diskPaths with
  | .basic, [] => []
  | .basic, disk :: disks => disk :: disks ++ [partitionPath disk 1, lvDevice spec]
  | _, disks =>
      disks ++ disks.map (fun disk => partitionPath disk 1) ++ [arrayDevice spec, lvDevice spec]

/-- What the commands write to is made of the plan. -/
theorem madeOf_of_mem_written {spec : StoragePlanSpec} {device : String} (h : device ∈ written spec) :
  MadeOf spec device
  := by
  have hdisk : device ∈ spec.diskPaths → MadeOf spec device :=
    fun hmem => Or.inl ⟨device, hmem, Or.inl rfl⟩
  rw [written] at h
  split at h
  · cases h
  · rename_i disk disks _ hdisks
    rw [hdisks] at hdisk
    rcases List.mem_append.mp h with h | h
    · apply hdisk h
    · simp only [List.mem_cons, List.not_mem_nil, or_false] at h
      rcases h with rfl | rfl
      · apply MadeOf.of_partition
        rw [hdisks]
        apply List.mem_cons_self
      · exact Or.inr (Or.inr rfl)
  · rcases List.mem_append.mp h with h | h
    · rcases List.mem_append.mp h with h | h
      · apply hdisk h
      · apply MadeOf.of_partition h
    · simp only [List.mem_cons, List.not_mem_nil, or_false] at h
      rcases h with rfl | rfl
      · exact Or.inr (Or.inl rfl)
      · exact Or.inr (Or.inr rfl)

/-- The disks are written to. -/
theorem mem_written_of_disk {spec : StoragePlanSpec} {disk : String} (h : disk ∈ spec.diskPaths) :
  disk ∈ written spec
  := by
  rw [written]
  split
  · rename_i hdisks
    rw [hdisks] at h
    cases h
  · rename_i hdisks
    rw [hdisks] at h
    exact List.mem_append_left _ h
  · exact List.mem_append_left _ (List.mem_append_left _ h)

/-- A step of some writes to a device. -/
def Writes (steps : List PlanStep) (device : String) : Prop :=
  ∃ step ∈ steps, device ∈ targets step.argv

/-- A step of one list or the other writes to a device. -/
theorem writes_append {before after : List PlanStep} {device : String} :
  Writes (before ++ after) device ↔ Writes before device ∨ Writes after device
  := by
  simp only [Writes, List.mem_append, or_and_right, exists_or]

/-- The steps on some disks write to those disks. -/
theorem writes_diskSteps {disks : List String} {device : String} :
  Writes (disks.flatMap diskSteps) device ↔ device ∈ disks
  := by
  induction disks with
  | nil => simp [Writes]
  | cons disk disks ih =>
      rw [List.flatMap_cons, writes_append, ih, List.mem_cons]
      apply or_congr_left
      simp [Writes, diskSteps, targets, wipefsArgv, mkpartArgv]

/-- The step that creates the array writes to it and to the partitions. -/
theorem targets_arrayStep (spec : StoragePlanSpec) :
  targets (arrayStep spec).argv
    = arrayDevice spec :: spec.diskPaths.map fun disk => partitionPath disk 1
  := rfl

/-- The steps on a volume group write to its physical volume and its logical volume. -/
theorem writes_volumeSteps {spec : StoragePlanSpec} {pvDevice device : String} :
  Writes (volumeSteps spec pvDevice) device ↔ device = pvDevice ∨ device = lvDevice spec
  := by
  cases hfilesystem : spec.filesystem with
  | _ =>
      simp [Writes, volumeSteps, hfilesystem, targets, mkfsArgv, pvcreateArgv, vgcreateArgv,
        lvcreateFullFreeArgv]

/-- What is written to is what the steps of a plan write to. -/
theorem mem_written_iff {spec : StoragePlanSpec} {steps : List PlanStep}
    (hsteps : buildSteps spec = .ok steps) {device : String} :
  device ∈ written spec ↔ Writes steps device
  := by
  rcases buildSteps_cases hsteps with ⟨disk, disks, hlevel, hdisks, rfl⟩ | ⟨hlevel, rfl⟩
  · rw [writes_append, writes_diskSteps, writes_volumeSteps, written, hlevel, hdisks]
    simp [or_assoc]
  · have harray : Writes (arrayStep spec :: volumeSteps spec (arrayDevice spec)) device
        ↔ device ∈ targets (arrayStep spec).argv ∨ Writes (volumeSteps spec (arrayDevice spec)) device := by
      simp only [Writes, List.mem_cons, exists_eq_or_imp]
    rw [writes_append, writes_diskSteps, harray, targets_arrayStep, writes_volumeSteps, written]
    cases hspec : spec.level with
    | basic => exact absurd hspec hlevel
    | _ =>
        simp only [List.mem_append, List.mem_cons, List.not_mem_nil, or_false]
        tauto

/-- The steps of a plan write to what the plan is made of. -/
theorem targets_buildSteps {spec : StoragePlanSpec} {steps : List PlanStep}
    (hsteps : buildSteps spec = .ok steps) {step : PlanStep} (hstep : step ∈ steps) :
  ∀ device ∈ targets step.argv, MadeOf spec device
  := by
  intro device hdevice
  apply madeOf_of_mem_written
  exact (mem_written_iff hsteps).mpr ⟨step, hstep, hdevice⟩

/-- The commands that write come first among the steps of a plan. -/
theorem exists_append_of_buildSteps {spec : StoragePlanSpec} {steps : List PlanStep}
    (hsteps : buildSteps spec = .ok steps) :
  ∃ commands rest, steps = commands ++ rest ∧ (∀ step ∈ commands, step.op = .run)
    ∧ ∀ step ∈ rest, targets step.argv = []
  := by
  have hdisks : ∀ step ∈ spec.diskPaths.flatMap diskSteps, step.op = .run := by
    intro step hstep
    obtain ⟨disk, -, hstep⟩ := List.mem_flatMap.mp hstep
    simp only [diskSteps, List.mem_cons, List.not_mem_nil, or_false] at hstep
    rcases hstep with rfl | rfl
    · rfl
    · rfl
  have hvolume : ∀ pvDevice, (∀ step ∈ (volumeSteps spec pvDevice).take 4, step.op = .run)
      ∧ ∀ step ∈ (volumeSteps spec pvDevice).drop 4, targets step.argv = [] := by
    intro pvDevice
    simp [volumeSteps, targets]
  rcases buildSteps_cases hsteps with ⟨disk, disks, -, -, rfl⟩ | ⟨-, rfl⟩
  · obtain ⟨hfirst, hlast⟩ := hvolume (partitionPath disk 1)
    refine ⟨spec.diskPaths.flatMap diskSteps ++ (volumeSteps spec (partitionPath disk 1)).take 4, _, ?_, ?_,
      hlast⟩
    · rw [List.append_assoc, List.take_append_drop]
    · intro step hstep
      rcases List.mem_append.mp hstep with hstep | hstep
      · exact hdisks step hstep
      · exact hfirst step hstep
  · obtain ⟨hfirst, hlast⟩ := hvolume (arrayDevice spec)
    refine ⟨spec.diskPaths.flatMap diskSteps ++ arrayStep spec :: (volumeSteps spec (arrayDevice spec)).take 4,
      _, ?_, ?_, hlast⟩
    · rw [List.append_assoc, List.cons_append, List.take_append_drop]
    · intro step hstep
      rcases List.mem_append.mp hstep with hstep | hstep
      · exact hdisks step hstep
      rcases List.mem_cons.mp hstep with rfl | hstep
      · rfl
      · exact hfirst step hstep
