import NasOs.Storage.Preview

/-!
# When the tools of a plan fail

The commands of a plan, run one after the other in a system that has volume groups and arrays.  A
command fails when its precondition does not hold: a label is too long for the filesystem, the name of
an array or of a volume group is in use, or an array is given a device twice.

By the time a command fails the disks of the plan are wiped, unless the request excluded it.
`runs_iff` says what a request has to be for no command to fail, none of which `create_plan` checks.
-/

/-- The names of the volume groups and the paths of the arrays that are in use, those on the disks of a
plan left out. -/
structure ToolState where
  vgs : List String
  arrays : List String

/-- `FS_LABEL_MAX_XFS` and `FS_LABEL_MAX_EXT4`, in bytes. -/
def Filesystem.labelMax : Filesystem → ℕ
  | .xfs => 12
  | .ext4 => 16

namespace ToolState

/-- The precondition of a command does not hold. -/
def fails (s : ToolState) : List String → Bool
  | "mkfs.xfs" :: _ :: label :: _ => Filesystem.xfs.labelMax < label.utf8ByteSize
  | "mkfs.ext4" :: _ :: label :: _ => Filesystem.ext4.labelMax < label.utf8ByteSize
  | "mdadm" :: _ :: array :: args => array ∈ s.arrays ∨ ¬ (args.drop 5).Nodup
  | "vgcreate" :: vg :: _ => vg ∈ s.vgs
  | _ => false

/-- What a command makes of the system. -/
def after (s : ToolState) : List String → ToolState
  | "mdadm" :: _ :: array :: _ => { s with arrays := array :: s.arrays }
  | "vgcreate" :: vg :: _ => { s with vgs := vg :: s.vgs }
  | _ => s

/-- The commands run one after the other, until one fails. -/
def run (s : ToolState) : List (List String) → Option ToolState
  | [] => some s
  | argv :: rest => if s.fails argv then none else (s.after argv).run rest

/-- Commands run after others. -/
theorem run_append (s : ToolState) (l l' : List (List String)) :
  s.run (l ++ l') = (s.run l).bind fun s' => s'.run l'
  := by
  induction l generalizing s with
  | nil => rfl
  | cons argv l ih =>
      rw [List.cons_append, run, run]
      split
      · rfl
      · apply ih

end ToolState

/-- The commands of the steps of a plan. -/
def commands (planSteps : List PlanStep) : List (List String) :=
  (planSteps.filter fun step => step.op = .run).map PlanStep.argv

/-- The commands of steps after other steps. -/
theorem commands_append (l l' : List PlanStep) :
  commands (l ++ l') = commands l ++ commands l'
  := by
  rw [commands, List.filter_append, List.map_append]
  rfl

/-- Wiping and partitioning disks changes no name. -/
theorem run_diskSteps (s : ToolState) (diskPaths : List String) :
  s.run (commands (diskPaths.flatMap diskSteps)) = some s
  := by
  induction diskPaths with
  | nil => rfl
  | cons disk disks ih =>
      rw [List.flatMap_cons, commands_append, s.run_append]
      change (some s).bind _ = _
      rw [Option.bind_some, ih]

/-- The commands that put a volume on a device run if the name of the volume group is free and the name
of the volume fits in a label. -/
theorem run_volumeSteps (s : ToolState) (spec : StoragePlanSpec) (pvDevice : String) :
  (s.run (commands (volumeSteps spec pvDevice))).isSome
    ↔ spec.vgName ∉ s.vgs ∧ spec.lvName.utf8ByteSize ≤ spec.filesystem.labelMax
  := by
  have hcommands : commands (volumeSteps spec pvDevice)
      = [pvcreateArgv pvDevice, vgcreateArgv spec.vgName pvDevice,
          lvcreateFullFreeArgv spec.vgName spec.lvName,
          mkfsArgv spec.filesystem spec.lvName (lvDevice spec)] := rfl
  have hlabel : ∀ s : ToolState, s.fails (mkfsArgv spec.filesystem spec.lvName (lvDevice spec))
      = decide (spec.filesystem.labelMax < spec.lvName.utf8ByteSize) := by
    intro s
    cases spec.filesystem with
    | _ => rfl
  rw [hcommands]
  change (if decide (spec.vgName ∈ s.vgs) = true then none
    else if ToolState.fails _ (mkfsArgv _ _ _) = true then none else some _).isSome = true ↔ _
  rw [hlabel]
  by_cases hvg : spec.vgName ∈ s.vgs
  · simp [hvg]
  · by_cases hlong : spec.filesystem.labelMax < spec.lvName.utf8ByteSize
    · simp [hvg, hlong]
    · simp [hvg, hlong, Nat.not_lt.mp hlong]

/-- The commands of a plan run if the names of its array and of its volume group are free, its
partitions are different, and the name of the volume fits in a label. -/
theorem run_buildSteps {s : ToolState} {spec : StoragePlanSpec} {planSteps : List PlanStep}
    (h : buildSteps spec = .ok planSteps) :
  (s.run (commands planSteps)).isSome
    ↔ spec.vgName ∉ s.vgs ∧ spec.lvName.utf8ByteSize ≤ spec.filesystem.labelMax
      ∧ (spec.level ≠ .basic → arrayDevice spec ∉ s.arrays
          ∧ (spec.diskPaths.map fun disk => partitionPath disk 1).Nodup)
  := by
  have harray : ∀ level : String,
      ((s.run (mdadmCreateArgv spec.arrayName level (spec.diskPaths.map fun disk => partitionPath disk 1)
          :: commands (volumeSteps spec (arrayDevice spec)))).isSome
        ↔ spec.vgName ∉ s.vgs ∧ spec.lvName.utf8ByteSize ≤ spec.filesystem.labelMax
          ∧ arrayDevice spec ∉ s.arrays
          ∧ (spec.diskPaths.map fun disk => partitionPath disk 1).Nodup) := by
    intro level
    have hfails : s.fails (mdadmCreateArgv spec.arrayName level
          (spec.diskPaths.map fun disk => partitionPath disk 1))
        = decide (arrayDevice spec ∈ s.arrays
          ∨ ¬ (spec.diskPaths.map fun disk => partitionPath disk 1).Nodup) := rfl
    rw [ToolState.run, hfails]
    by_cases hfail : arrayDevice spec ∈ s.arrays
        ∨ ¬ (spec.diskPaths.map fun disk => partitionPath disk 1).Nodup
    · rw [if_pos (decide_eq_true hfail)]
      simp only [Option.isSome_none, Bool.false_eq_true, false_iff]
      rintro ⟨-, -, hfree, hnodup⟩
      rcases hfail with hused | hrepeated
      · apply hfree hused
      · apply hrepeated hnodup
    · rw [if_neg (by simpa using hfail), run_volumeSteps]
      rw [not_or, not_not] at hfail
      simp [ToolState.after, mdadmCreateArgv, hfail]
  rcases buildSteps_cases h with ⟨disk, disks, hlevel, -, rfl⟩ | ⟨hlevel, rfl⟩
  · rw [commands_append, s.run_append, run_diskSteps, Option.bind_some, run_volumeSteps]
    simp [hlevel]
  · rw [commands_append, s.run_append, run_diskSteps, Option.bind_some]
    apply (harray spec.level.str).trans
    simp [hlevel]

/-- The paths that serials are looked up to. -/
theorem filterMap_pathOf {inventory : StorageInventoryResult} {serials paths : List String}
    (h : List.Forall₂ (fun serial path => ∃ node, bySerial inventory.disks serial = some node
      ∧ node.value.path = path) serials paths) :
  serials.filterMap (StorageService.pathOf inventory) = paths
  := by
  induction h with
  | nil => rfl
  | cons hpath _ ih =>
      obtain ⟨node, hnode, rfl⟩ := hpath
      rw [List.filterMap_cons_some, ih]
      rw [StorageService.pathOf, hnode]
      rfl

/-- A plan that was made and that resolves runs without a command that fails, if and only if the name of
the volume fits in a label of its filesystem, its volume group is not in use, and, unless the plan is of
a single disk, its array is not in use and the devices that carry its serials have different first
partitions. -/
theorem runs_iff {settings : Settings} {volumesRoot : String}
    {request : CreatePlanRequest} {inventory : StorageInventoryResult} {id : String} {now : ℕ}
    {created : CreatedPlan} {managedMountpoints : List String} {fresh : StorageInventoryResult}
    {resolved : StoragePlanSpec} {planSteps : List PlanStep} (s : ToolState)
    (hcreated : StorageService.createPlan settings volumesRoot request (.ok inventory) id now
      = .ok created)
    (hplanned : ExecutePlan.planned
        ⟨created.plan.spec, created.plan.expectedSizes, managedMountpoints⟩ fresh
      = .ok (resolved, planSteps)) :
  (s.run (commands planSteps)).isSome
    ↔ request.volumeName.utf8ByteSize ≤ request.filesystem.labelMax
      ∧ "nasos_" ++ request.volumeName ∉ s.vgs
      ∧ (request.level ≠ .basic → "/dev/md/" ++ request.volumeName ∉ s.arrays
          ∧ ((request.diskSerials.filterMap (StorageService.pathOf fresh)).map
              fun disk => partitionPath disk 1).Nodup)
  := by
  obtain ⟨nodes, haccepted⟩ := StorageService.accepted_of_createPlan hcreated
  obtain ⟨paths, hpaths, rfl, hsteps⟩ := ExecutePlan.planned_eq_ok_iff.mp hplanned
  have hdisks : request.diskSerials.filterMap (StorageService.pathOf fresh) = paths := by
    apply filterMap_pathOf
    have hserials : created.plan.spec.diskSerials = request.diskSerials := by
      rw [haccepted.spec]
      rfl
    rw [← hserials]
    apply hpaths.imp
    rintro serial path ⟨node, hnode, -, -, hpath⟩
    exact ⟨node, hnode, hpath⟩
  rw [run_buildSteps hsteps]
  change created.plan.spec.vgName ∉ s.vgs ∧ created.plan.spec.lvName.utf8ByteSize
      ≤ created.plan.spec.filesystem.labelMax ∧ (created.plan.spec.level ≠ .basic →
        arrayDevice created.plan.spec ∉ s.arrays ∧ _) ↔ _
  rw [haccepted.spec, hdisks]
  change "nasos_" ++ request.volumeName ∉ s.vgs ∧ request.volumeName.utf8ByteSize
      ≤ request.filesystem.labelMax ∧ (request.level ≠ .basic →
        "/dev/md/" ++ request.volumeName ∉ s.arrays ∧ _) ↔ _
  exact and_left_comm

/-- A mirror with a name that fits in a label, on disks that carry their serials, in a system where its
names are free. -/
theorem runs_mirror :
  ∃ created resolved planSteps,
    StorageService.createPlan StorageService.webSettings "/volume"
        (StorageService.mirrorRequest ["S1", "S2"]) (.ok StorageService.spareInventory) "f3" 0
      = .ok created
    ∧ ExecutePlan.planned ⟨created.plan.spec, created.plan.expectedSizes, []⟩
        StorageService.spareInventory
      = .ok (resolved, planSteps)
    ∧ (ToolState.run ⟨["fedora"], []⟩ (commands planSteps)).isSome
  := by
  obtain ⟨created, resolved, planSteps, hcreated, hplanned⟩ : ∃ created resolved planSteps,
      StorageService.createPlan StorageService.webSettings "/volume"
          (StorageService.mirrorRequest ["S1", "S2"]) (.ok StorageService.spareInventory) "f3" 0
        = .ok created
      ∧ ExecutePlan.planned ⟨created.plan.spec, created.plan.expectedSizes, []⟩
          StorageService.spareInventory
        = .ok (resolved, planSteps) := ⟨_, _, _, rfl, rfl⟩
  refine ⟨created, resolved, planSteps, hcreated, hplanned, ?_⟩
  rw [runs_iff _ hcreated hplanned]
  decide +kernel

/-- A request for a volume on one disk, with a name of 13 characters. -/
def longNameRequest : CreatePlanRequest :=
  ⟨"familyarchive", .basic, .xfs, ["S1"]⟩

/-- A request for a volume whose name does not fit in a label is accepted and resolves, and a command of
the job fails. -/
theorem not_runs_longName :
  ∃ created resolved planSteps,
    StorageService.createPlan StorageService.webSettings "/volume" longNameRequest
        (.ok StorageService.spareInventory) "f3" 0
      = .ok created
    ∧ ExecutePlan.planned ⟨created.plan.spec, created.plan.expectedSizes, []⟩
        StorageService.spareInventory
      = .ok (resolved, planSteps)
    ∧ ¬ (ToolState.run ⟨[], []⟩ (commands planSteps)).isSome
  := by
  refine ⟨_, _, _, rfl, rfl, ?_⟩
  decide +kernel
