import NasOs.Library.DataFlow
import NasOs.Storage.Planning

/-!
# The data flow of a plan

The steps of a plan make devices, physical volumes, volume groups and logical volumes, and what a step
takes was made by a step before it.  The disks themselves are wiped and partitioned first, and all their
partitions are used.
-/

/-- What a step of a plan may take or make. -/
inductive PlanResource where
  /-- A partition or an array. -/
  | device (path : String)
  | physicalVolume (device : String)
  | volumeGroup (name : String)
  | logicalVolume (device : String)
  deriving DecidableEq

namespace PlanStep

/-- What a command takes. -/
def commandTakes : List String → List PlanResource
  | "mdadm" :: "--create" :: args => (args.drop 6).map .device
  | ["pvcreate", device] => [.device device]
  | ["vgcreate", _, device] => [.physicalVolume device]
  | ["lvcreate", _, _, _, _, vgName] => [.volumeGroup vgName]
  | ["mkfs.xfs", _, _, device] => [.logicalVolume device]
  | ["mkfs.ext4", _, _, device] => [.logicalVolume device]
  | _ => []

/-- What a command makes. -/
def commandMakes : List String → List PlanResource
  | "parted" :: _ :: disk :: _ => [.device (partitionPath disk 1)]
  | "mdadm" :: "--create" :: array :: _ => [.device array]
  | ["pvcreate", device] => [.physicalVolume device]
  | ["vgcreate", vgName, _] => [.volumeGroup vgName]
  | ["lvcreate", _, _, _, lvName, vgName] => [.logicalVolume ("/dev/" ++ vgName ++ "/" ++ lvName)]
  | _ => []

/-- What a step of a plan takes; the mount unit is written for the UUID of the logical volume. -/
def takes (spec : StoragePlanSpec) (planStep : PlanStep) : List PlanResource :=
  match planStep.op with
  | .run => commandTakes planStep.argv
  | .writeUnit => [.logicalVolume (lvDevice spec)]
  | _ => []

/-- What a step of a plan makes. -/
def makes (planStep : PlanStep) : List PlanResource :=
  match planStep.op with
  | .run => commandMakes planStep.argv
  | _ => []

/-- The members of the array that a command creates. -/
def arrayMembers : List String → Option (List String)
  | "mdadm" :: "--create" :: args => some (args.drop 6)
  | _ => none

/-- The device that a command puts a physical volume on. -/
def physicalVolume : List String → Option String
  | ["pvcreate", device] => some device
  | _ => none

/-- The disk that a command wipes. -/
def wipedDisk : List String → Option String
  | ["wipefs", _, disk] => some disk
  | _ => none

/-- The argument declares the number of devices of an array. -/
def declaresDevices (arg : String) : Bool :=
  "--raid-devices=".toList.isPrefixOf arg.toList

/-- The argument is an absolute path. -/
def isAbsolute (arg : String) : Bool :=
  decide (arg.toList.head? = some '/')

/-- A command of a plan. -/
def Runs (planStep : PlanStep) (argv : List String) : Prop :=
  planStep.op = .run ∧ planStep.argv = argv

end PlanStep

/-- What is said of the flow of data in the steps of a plan. -/
structure DataFlows (spec : StoragePlanSpec) (planSteps : List PlanStep) : Prop where
  /-- Every disk is wiped and then partitioned, as often as it is listed, before any step that takes a
  device. -/
  prepared : ∀ i disk, spec.diskPaths[i]? = some disk →
    (∃ planStep, planSteps[2 * i]? = some planStep ∧ planStep.Runs (wipefsArgv disk))
      ∧ (∃ planStep, planSteps[2 * i + 1]? = some planStep ∧ planStep.Runs (mkpartArgv disk))
      ∧ ∀ j planStep, planSteps[j]? = some planStep → planStep.takes spec ≠ [] → 2 * i + 1 < j
  /-- What a step takes is made by an earlier step. -/
  supplied : ∀ before planStep after, planSteps = before ++ planStep :: after →
    ∀ x ∈ planStep.takes spec, ∃ earlier ∈ before, x ∈ earlier.makes
  /-- The partition of a disk that is wiped is the only physical volume, or in the only array. -/
  used : ∀ planStep ∈ planSteps, ∀ disk, planStep.Runs (wipefsArgv disk) →
    if spec.level = .basic then
      planSteps.filterMap (PlanStep.physicalVolume ∘ PlanStep.argv) = [partitionPath disk 1]
    else ∃ members, planSteps.filterMap (PlanStep.arrayMembers ∘ PlanStep.argv) = [members]
      ∧ partitionPath disk 1 ∈ members
  /-- The number of devices that is declared for an array is that of its members. -/
  counted : ∀ planStep ∈ planSteps, ∀ members, PlanStep.arrayMembers planStep.argv = some members →
    planStep.argv.find? PlanStep.declaresDevices
      = some ("--raid-devices=" ++ toString members.length)
  /-- The devices that a command names are those of the plan. -/
  named : ∀ planStep ∈ planSteps, planStep.op = .run → ∀ arg ∈ planStep.argv,
    arg ∈ targets planStep.argv ∨ PlanStep.isAbsolute arg = true → MadeOf spec arg

namespace PlanStep

section

variable {spec : StoragePlanSpec} {planSteps : List PlanStep}

/-! ### The disks -/

/-- The two steps for a disk. -/
theorem getElem?_diskSteps {disks : List String} {i : ℕ} {disk : String} (h : disks[i]? = some disk) :
  (disks.flatMap diskSteps)[2 * i]?
      = some ⟨"Wipe existing signatures on " ++ disk, .run, wipefsArgv disk⟩
    ∧ (disks.flatMap diskSteps)[2 * i + 1]?
      = some ⟨"Create partition table on " ++ disk, .run, mkpartArgv disk⟩
  := by
  induction disks generalizing i with
  | nil => cases h
  | cons first disks ih =>
      cases i with
      | zero =>
          cases h
          exact ⟨rfl, rfl⟩
      | succ i => apply ih h

/-- The steps for the disks take nothing. -/
theorem takes_diskSteps {disks : List String} :
  ∀ planStep ∈ disks.flatMap diskSteps, planStep.takes spec = []
  := by
  intro planStep h
  obtain ⟨disk, -, h⟩ := List.mem_flatMap.mp h
  simp only [diskSteps, List.mem_cons, List.not_mem_nil, or_false] at h
  rcases h with rfl | rfl
  · rfl
  · rfl

/-- The steps for the disks make their partitions. -/
theorem mem_makes_diskSteps {disks : List String} {disk : String} (h : disk ∈ disks) :
  .device (partitionPath disk 1) ∈ (disks.flatMap diskSteps).flatMap makes
  := by
  apply List.mem_flatMap.mpr
  use ⟨"Create partition table on " ++ disk, .run, mkpartArgv disk⟩
  constructor
  · apply List.mem_flatMap.mpr
    use disk, h
    apply List.mem_cons_of_mem _ List.mem_cons_self
  · apply List.mem_cons_self

/-! ### The array and the volume -/

/-- The steps for the disks supply the array. -/
theorem supplied_arrayStep {made : List PlanResource}
    (h : ∀ disk ∈ spec.diskPaths, .device (partitionPath disk 1) ∈ made) :
  ∀ x ∈ (arrayStep spec).takes spec, x ∈ made
  := by
  intro x hx
  obtain ⟨device, hdevice, rfl⟩ := List.mem_map.mp hx
  obtain ⟨disk, hdisk, rfl⟩ := List.mem_map.mp hdevice
  apply h disk hdisk

/-- The steps for the volume are supplied by a device. -/
theorem supplied_volumeSteps {made : List PlanResource} {pvDevice : String}
    (h : .device pvDevice ∈ made) :
  DataFlow.Supplied (takes spec) makes made (volumeSteps spec pvDevice)
  := by
  have hmkfs : commandTakes (mkfsArgv spec.filesystem spec.lvName (lvDevice spec))
      = [.logicalVolume (lvDevice spec)] := by
    cases spec.filesystem with
    | xfs => rfl
    | ext4 => rfl
  simp only [volumeSteps, DataFlow.Supplied, takes, makes, hmkfs]
  simp [commandTakes, commandMakes, pvcreateArgv, vgcreateArgv, lvcreateFullFreeArgv, lvDevice, h]

/-- The steps of a plan are supplied. -/
theorem supplied_buildSteps (h : buildSteps spec = .ok planSteps) :
  DataFlow.Supplied (takes spec) makes [] planSteps
  := by
  rcases buildSteps_cases h with ⟨disk, disks, -, hdisks, rfl⟩ | ⟨-, rfl⟩
  · apply (DataFlow.supplied_of_takes_nil takes_diskSteps).append
    apply supplied_volumeSteps
    apply mem_makes_diskSteps
    rw [hdisks]
    apply List.mem_cons_self
  · apply (DataFlow.supplied_of_takes_nil takes_diskSteps).append
    constructor
    · apply supplied_arrayStep
      intro disk hdisk
      apply mem_makes_diskSteps hdisk
    · apply supplied_volumeSteps
      apply List.mem_append_right
      apply List.mem_singleton_self

/-! ### What the commands name -/

/-- The steps for the disks wipe them, and create no array and no physical volume. -/
theorem filterMap_diskSteps (disks : List String) :
  (disks.flatMap diskSteps).filterMap (wipedDisk ∘ argv) = disks
    ∧ (disks.flatMap diskSteps).filterMap (arrayMembers ∘ argv) = []
    ∧ (disks.flatMap diskSteps).filterMap (physicalVolume ∘ argv) = []
  := by
  induction disks with
  | nil => exact ⟨rfl, rfl, rfl⟩
  | cons disk disks ih => exact ⟨congrArg (List.cons disk) ih.1, ih.2⟩

/-- The steps for the volume wipe nothing, and create no array and one physical volume. -/
theorem filterMap_volumeSteps (spec : StoragePlanSpec) (pvDevice : String) :
  (volumeSteps spec pvDevice).filterMap (wipedDisk ∘ argv) = []
    ∧ (volumeSteps spec pvDevice).filterMap (arrayMembers ∘ argv) = []
    ∧ (volumeSteps spec pvDevice).filterMap (physicalVolume ∘ argv) = [pvDevice]
  := by
  have hmkfs : wipedDisk (mkfsArgv spec.filesystem spec.lvName (lvDevice spec)) = none
      ∧ arrayMembers (mkfsArgv spec.filesystem spec.lvName (lvDevice spec)) = none
      ∧ physicalVolume (mkfsArgv spec.filesystem spec.lvName (lvDevice spec)) = none := by
    cases spec.filesystem with
    | xfs => exact ⟨rfl, rfl, rfl⟩
    | ext4 => exact ⟨rfl, rfl, rfl⟩
  simp [volumeSteps, wipedDisk, arrayMembers, physicalVolume, pvcreateArgv, vgcreateArgv,
    lvcreateFullFreeArgv]
  apply hmkfs

/-- A plan wipes its disks. -/
theorem filterMap_wipedDisk (h : buildSteps spec = .ok planSteps) :
  planSteps.filterMap (wipedDisk ∘ argv) = spec.diskPaths
  := by
  rcases buildSteps_cases h with ⟨disk, disks, -, -, rfl⟩ | ⟨-, rfl⟩
  · rw [List.filterMap_append, (filterMap_diskSteps _).1, (filterMap_volumeSteps _ _).1,
      List.append_nil]
  · rw [List.filterMap_append, (filterMap_diskSteps _).1, List.filterMap_cons_none rfl,
      (filterMap_volumeSteps _ _).1, List.append_nil]

/-- The members of the only array, unless the plan is for a single disk. -/
theorem filterMap_arrayMembers (h : buildSteps spec = .ok planSteps) (hlevel : spec.level ≠ .basic) :
  planSteps.filterMap (arrayMembers ∘ argv)
    = [spec.diskPaths.map fun disk => partitionPath disk 1]
  := by
  rcases buildSteps_cases h with ⟨disk, disks, hbasic, -, -⟩ | ⟨-, rfl⟩
  · apply absurd hbasic hlevel
  · have harray : (arrayMembers ∘ argv) (arrayStep spec)
        = some (spec.diskPaths.map fun disk => partitionPath disk 1) := rfl
    rw [List.filterMap_append, (filterMap_diskSteps _).2.1, List.filterMap_cons_some harray,
      (filterMap_volumeSteps _ _).2.1, List.nil_append]

/-- The only physical volume of a plan for a single disk. -/
theorem filterMap_physicalVolume (h : buildSteps spec = .ok planSteps) (hlevel : spec.level = .basic) :
  ∃ disk disks, spec.diskPaths = disk :: disks
    ∧ planSteps.filterMap (physicalVolume ∘ argv) = [partitionPath disk 1]
  := by
  rcases buildSteps_cases h with ⟨disk, disks, -, hdisks, rfl⟩ | ⟨hbasic, -⟩
  · use disk, disks, hdisks
    rw [List.filterMap_append, (filterMap_diskSteps _).2.2, (filterMap_volumeSteps _ _).2.2,
      List.nil_append]
  · apply absurd hlevel hbasic

/-- The number of devices of the array. -/
theorem find?_raidDevices (arrayName level : String) (devices : List String) :
  (mdadmCreateArgv arrayName level devices).find? declaresDevices
    = some ("--raid-devices=" ++ toString devices.length)
  := by
  have harray : ¬ declaresDevices ("/dev/md/" ++ arrayName) = true := by
    rw [declaresDevices, String.toList_append]
    rintro ⟨⟩
  have hlevel : ¬ declaresDevices ("--level=" ++ level) = true := by
    rw [declaresDevices, String.toList_append]
    rintro ⟨⟩
  have hcount : declaresDevices ("--raid-devices=" ++ toString devices.length) = true := by
    rw [declaresDevices, String.toList_append, List.isPrefixOf_iff_prefix]
    apply List.prefix_append
  apply (List.find?_cons_of_neg (by decide)).trans
  apply (List.find?_cons_of_neg (by decide)).trans
  apply (List.find?_cons_of_neg harray).trans
  apply (List.find?_cons_of_neg hlevel).trans
  apply List.find?_cons_of_pos hcount

/-- The command that creates an array. -/
theorem argv_of_arrayMembers (h : buildSteps spec = .ok planSteps) {planStep : PlanStep}
    (hmem : planStep ∈ planSteps) {members : List String}
    (hmembers : arrayMembers planStep.argv = some members) :
  planStep.argv = mdadmCreateArgv spec.arrayName spec.level.str members
  := by
  have hnone : ∀ l : List PlanStep, l.filterMap (arrayMembers ∘ argv) = [] → planStep ∉ l := by
    intro l hl hmem
    rw [List.filterMap_eq_nil_iff] at hl
    have hstep := hl planStep hmem
    rw [Function.comp_apply, hmembers] at hstep
    cases hstep
  have hdisks := hnone _ (filterMap_diskSteps spec.diskPaths).2.1
  rcases buildSteps_cases h with ⟨disk, disks, -, -, rfl⟩ | ⟨-, rfl⟩
  · have hvolume := hnone _ (filterMap_volumeSteps spec (partitionPath disk 1)).2.1
    rcases List.mem_append.mp hmem with hmem | hmem
    · apply absurd hmem hdisks
    · apply absurd hmem hvolume
  · have hvolume := hnone _ (filterMap_volumeSteps spec (arrayDevice spec)).2.1
    rcases List.mem_append.mp hmem with hmem | hmem
    · apply absurd hmem hdisks
    rcases List.mem_cons.mp hmem with rfl | hmem
    · cases hmembers
      rfl
    · apply absurd hmem hvolume

/-- The commands for the disks name them. -/
theorem absolute_diskSteps {planStep : PlanStep} (h : planStep ∈ spec.diskPaths.flatMap diskSteps) :
  ∀ arg ∈ planStep.argv, isAbsolute arg = true → MadeOf spec arg
  := by
  obtain ⟨disk, hdisk, h⟩ := List.mem_flatMap.mp h
  have hmade : MadeOf spec disk := Or.inl ⟨disk, hdisk, Or.inl rfl⟩
  simp only [diskSteps, List.mem_cons, List.not_mem_nil, or_false] at h
  rcases h with rfl | rfl
  · simp [wipefsArgv, isAbsolute, hmade]
  · simp [mkpartArgv, isAbsolute, hmade]

/-- The command for the array names it and its members. -/
theorem absolute_arrayStep :
  ∀ arg ∈ (arrayStep spec).argv, isAbsolute arg = true → MadeOf spec arg
  := by
  have hmembers : ∀ arg ∈ spec.diskPaths.map fun disk => partitionPath disk 1, MadeOf spec arg :=
    fun arg harg => MadeOf.of_partition harg
  have harray : MadeOf spec ("/dev/md/" ++ spec.arrayName) := Or.inr (Or.inl rfl)
  intro arg harg habsolute
  rcases List.mem_append.mp harg with harg | harg
  · simp only [List.mem_cons, List.not_mem_nil, or_false] at harg
    rcases harg with rfl | rfl | rfl | rfl | rfl | rfl | rfl | rfl
    case inr.inr.inl => apply harray
    all_goals simp [isAbsolute] at habsolute
  · apply hmembers arg harg

/-- The commands for the volume name the device it is put on, and the logical volume. -/
theorem absolute_volumeSteps {pvDevice : String} (hpv : MadeOf spec pvDevice)
    (hlv : isAbsolute spec.lvName = false) (hvg : isAbsolute spec.vgName = false) {planStep : PlanStep}
    (h : planStep ∈ volumeSteps spec pvDevice) :
  ∀ arg ∈ planStep.argv, isAbsolute arg = true → MadeOf spec arg
  := by
  have hmade : MadeOf spec (lvDevice spec) := Or.inr (Or.inr rfl)
  rw [isAbsolute, decide_eq_false_iff_not] at hlv hvg
  simp only [volumeSteps, List.mem_cons, List.not_mem_nil, or_false] at h
  rcases h with rfl | rfl | rfl | rfl | rfl | rfl | rfl | rfl | rfl | rfl
  case inr.inr.inr.inl =>
    cases spec.filesystem with
    | xfs => simp [mkfsArgv, isAbsolute, hlv, hmade]
    | ext4 => simp [mkfsArgv, isAbsolute, hlv, hmade]
  all_goals simp [pvcreateArgv, vgcreateArgv, lvcreateFullFreeArgv, isAbsolute, hpv, hlv, hvg]

/-- The commands of a plan name the devices of the plan. -/
theorem madeOf_of_absolute (h : buildSteps spec = .ok planSteps) (hlv : isAbsolute spec.lvName = false)
    (hvg : isAbsolute spec.vgName = false) {planStep : PlanStep} (hmem : planStep ∈ planSteps) :
  ∀ arg ∈ planStep.argv, isAbsolute arg = true → MadeOf spec arg
  := by
  rcases buildSteps_cases h with ⟨disk, disks, -, hdisks, rfl⟩ | ⟨-, rfl⟩
  · have hpv : MadeOf spec (partitionPath disk 1) := by
      apply MadeOf.of_partition
      rw [hdisks]
      apply List.mem_cons_self
    rcases List.mem_append.mp hmem with hmem | hmem
    · apply absolute_diskSteps hmem
    · apply absolute_volumeSteps hpv hlv hvg hmem
  · have hpv : MadeOf spec (arrayDevice spec) := Or.inr (Or.inl rfl)
    rcases List.mem_append.mp hmem with hmem | hmem
    · apply absolute_diskSteps hmem
    rcases List.mem_cons.mp hmem with rfl | hmem
    · apply absolute_arrayStep
    · apply absolute_volumeSteps hpv hlv hvg hmem

/-- The name of a volume is not an absolute path. -/
theorem isAbsolute_of_isVolumeName {name : String} (h : isVolumeName name = true) :
  isAbsolute name = false
  := by
  rw [isAbsolute, decide_eq_false_iff_not]
  rw [isVolumeName] at h
  intro habsolute
  obtain ⟨l, hl⟩ := List.head?_eq_some_iff.mp habsolute
  simp [hl] at h

/-- The first steps of a plan are those for its disks. -/
theorem exists_rest (h : buildSteps spec = .ok planSteps) :
  ∃ rest, planSteps = spec.diskPaths.flatMap diskSteps ++ rest
  := by
  rcases buildSteps_cases h with ⟨disk, disks, -, -, rfl⟩ | ⟨-, rfl⟩
  · exact ⟨_, rfl⟩
  · exact ⟨_, rfl⟩

/-- Every disk is prepared before any step that takes a device. -/
theorem prepared_buildSteps (h : buildSteps spec = .ok planSteps) {i : ℕ} {disk : String}
    (hdisk : spec.diskPaths[i]? = some disk) :
  (∃ planStep, planSteps[2 * i]? = some planStep ∧ planStep.Runs (wipefsArgv disk))
    ∧ (∃ planStep, planSteps[2 * i + 1]? = some planStep ∧ planStep.Runs (mkpartArgv disk))
    ∧ ∀ j planStep, planSteps[j]? = some planStep → planStep.takes spec ≠ [] → 2 * i + 1 < j
  := by
  obtain ⟨rest, rfl⟩ := exists_rest h
  obtain ⟨hwipe, hpart⟩ := getElem?_diskSteps hdisk
  obtain ⟨hlast, -⟩ := List.getElem?_eq_some_iff.mp hpart
  have hfront : ∀ j, j < (spec.diskPaths.flatMap diskSteps).length →
      (spec.diskPaths.flatMap diskSteps ++ rest)[j]? = (spec.diskPaths.flatMap diskSteps)[j]? :=
    fun j hj => List.getElem?_append_left hj
  constructor
  · rw [hfront _ (by omega), hwipe]
    exact ⟨_, rfl, rfl, rfl⟩
  constructor
  · rw [hfront _ hlast, hpart]
    exact ⟨_, rfl, rfl, rfl⟩
  · intro j planStep hj htakes
    by_contra hle
    rw [hfront j (by omega)] at hj
    apply htakes
    apply takes_diskSteps planStep (List.mem_of_getElem? hj)

end

end PlanStep

/-- In a plan that is accepted, every disk is wiped and partitioned before a device is used, every step
takes what was made before it, the partitions are all used, and the commands name no device of another. -/
theorem dataFlows_of_createPlan {settings : Settings} {volumesRoot : String}
    {request : CreatePlanRequest} {inventory : StorageInventoryResult} {id : String} {now : ℕ}
    {created : CreatedPlan}
    (h : StorageService.createPlan settings volumesRoot request (.ok inventory) id now = .ok created) :
  buildSteps created.plan.spec = .ok created.steps ∧ DataFlows created.plan.spec created.steps
  := by
  obtain ⟨nodes, haccepted⟩ := StorageService.accepted_of_createPlan h
  have hsteps := haccepted.steps
  constructor
  · apply hsteps
  constructor
  · intro i disk hdisk
    apply PlanStep.prepared_buildSteps hsteps hdisk
  · intro before planStep after hplit x hx
    rcases (PlanStep.supplied_buildSteps hsteps).exists_maker hplit hx with ⟨⟨⟩⟩ | hmaker
    apply hmaker
  · intro planStep hmem disk hwipes
    have hdisk : disk ∈ created.plan.spec.diskPaths := by
      rw [← PlanStep.filterMap_wipedDisk hsteps]
      apply List.mem_filterMap.mpr
      use planStep, hmem
      rw [Function.comp_apply, hwipes.2]
      rfl
    split
    · rename_i hlevel
      obtain ⟨first, others, hdisks, hvolume⟩ := PlanStep.filterMap_physicalVolume hsteps hlevel
      have hlength : created.plan.spec.diskPaths.length = 1 := by
        rw [haccepted.length_diskPaths, haccepted.spec]
        apply haccepted.single
        rw [haccepted.spec] at hlevel
        apply hlevel
      rw [hdisks, List.length_cons, Nat.add_eq_right, List.length_eq_zero_iff] at hlength
      rw [hdisks, hlength, List.mem_singleton] at hdisk
      rw [hvolume, hdisk]
    · rename_i hlevel
      use created.plan.spec.diskPaths.map fun disk => partitionPath disk 1,
        PlanStep.filterMap_arrayMembers hsteps hlevel
      apply List.mem_map_of_mem hdisk
  · intro planStep hmem members hmembers
    rw [PlanStep.argv_of_arrayMembers hsteps hmem hmembers]
    apply PlanStep.find?_raidDevices
  · rintro planStep hmem - arg harg (htarget | habsolute)
    · apply targets_buildSteps hsteps hmem arg htarget
    · apply PlanStep.madeOf_of_absolute hsteps _ _ hmem arg harg habsolute
      · rw [haccepted.spec]
        apply PlanStep.isAbsolute_of_isVolumeName
        have hvalid := haccepted.valid
        rw [haccepted.spec] at hvalid
        simp only [StoragePlanSpec.isValid, Bool.and_eq_true] at hvalid
        apply hvalid.1.1.1.1.1.1.1
      · rw [haccepted.spec]
        simp [StorageService.planSpec, PlanStep.isAbsolute]

/-- The plan for a mirror of two disks. -/
theorem dataFlows_mirror :
  ∃ created, StorageService.createPlan StorageService.webSettings "/volume"
      (StorageService.mirrorRequest ["S1", "S2"]) (.ok StorageService.spareInventory) "f3" 0 = .ok created
    ∧ DataFlows created.plan.spec created.steps
  := by
  obtain ⟨created, hcreated⟩ : ∃ created, StorageService.createPlan StorageService.webSettings "/volume"
      (StorageService.mirrorRequest ["S1", "S2"]) (.ok StorageService.spareInventory) "f3" 0
      = .ok created := ⟨_, rfl⟩
  use created, hcreated
  apply (dataFlows_of_createPlan hcreated).2
