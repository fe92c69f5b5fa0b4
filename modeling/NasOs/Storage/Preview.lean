import NasOs.Storage.Planning
import NasOs.Storage.Safety

/-!
# The preview of a plan and its execution

The user is shown the steps that the web process builds of a plan's spec; the agent builds the steps
that it executes of the spec that a later inventory resolves the plan to.  In between the disks may
have got other paths.

The steps of a spec are a template, in which the disks have numbers, filled with the paths of the
disks (`buildSteps_eq`).  The template is made of the names in the spec and of the number of disks, so
that the preview and the execution fill the same one.
-/

/-- A piece of a text in which the disks of a plan have numbers. -/
inductive Piece where
  | text (s : String)
  /-- The path of a disk. -/
  | disk (i : ℕ)
  /-- The path of the first partition of a disk. -/
  | partition (i : ℕ)

/-- The path of a disk with a number. -/
def diskAt (diskPaths : List String) (i : ℕ) : String :=
  diskPaths[i]?.getD ""

/-- A piece filled with the paths of the disks. -/
def Piece.fill (diskPaths : List String) : Piece → String
  | .text s => s
  | .disk i => diskAt diskPaths i
  | .partition i => partitionPath (diskAt diskPaths i) 1

/-- A text filled with the paths of the disks. -/
def fillText (diskPaths : List String) (pieces : List Piece) : String :=
  (pieces.map (Piece.fill diskPaths)).foldr (· ++ ·) ""

/-- A step of a plan in which the disks have numbers. -/
structure StepTemplate where
  description : List Piece
  op : StepOp
  argv : List (List Piece)

/-- A step filled with the paths of the disks. -/
def StepTemplate.fill (diskPaths : List String) (template : StepTemplate) : PlanStep :=
  ⟨fillText diskPaths template.description, template.op, template.argv.map (fillText diskPaths)⟩

/-- A step that names no disk. -/
def StepTemplate.const (step : PlanStep) : StepTemplate :=
  ⟨[.text step.description], step.op, step.argv.map fun arg => [.text arg]⟩

/-! ### The template of a plan -/

/-- The steps that wipe and partition the disk with a number. -/
def diskTemplates (i : ℕ) : List StepTemplate :=
  [⟨[.text "Wipe existing signatures on ", .disk i], .run,
      [[.text "wipefs"], [.text "-a"], [.disk i]]⟩,
    ⟨[.text "Create partition table on ", .disk i], .run,
      [.text "parted"] :: [.text "-s"] :: [.disk i] ::
        ["mklabel", "gpt", "mkpart", "nasos", "1MiB", "100%", "set", "1", "raid", "on"].map
          fun arg => [.text arg]⟩]

/-- The step that makes an array of the first partitions of the disks. -/
def arrayTemplate (spec : StoragePlanSpec) (disks : ℕ) : StepTemplate :=
  ⟨[.text ("Create RAID " ++ spec.level.str ++ " array " ++ spec.arrayName)], .run,
    (["mdadm", "--create", "/dev/md/" ++ spec.arrayName, "--level=" ++ spec.level.str,
        "--raid-devices=" ++ toString disks, "--metadata=1.2", "--name=" ++ spec.arrayName,
        "--run"].map fun arg => [.text arg])
      ++ (List.range disks).map fun i => [.partition i]⟩

/-- The steps on a physical volume; those after the first two do not name it. -/
def volumeTemplates (spec : StoragePlanSpec) (pvDevice : Piece) : List StepTemplate :=
  ⟨[.text "Initialize physical volume on ", pvDevice], .run, [[.text "pvcreate"], [pvDevice]]⟩ ::
    ⟨[.text ("Create volume group " ++ spec.vgName)], .run,
      [[.text "vgcreate"], [.text spec.vgName], [pvDevice]]⟩ ::
    ((volumeSteps spec "").drop 2).map StepTemplate.const

/-- The template of the steps of a plan on a number of disks; it does not read their paths. -/
def stepTemplates (spec : StoragePlanSpec) (disks : ℕ) : List StepTemplate :=
  (List.range disks).flatMap diskTemplates
    ++ match spec.level with
      | .basic => volumeTemplates spec (.partition 0)
      | _ => arrayTemplate spec disks :: volumeTemplates spec (.text (arrayDevice spec))

/-- A spec on other disks has the same template. -/
theorem stepTemplates_diskPaths (spec : StoragePlanSpec) (diskPaths : List String) (disks : ℕ) :
  stepTemplates { spec with diskPaths } disks = stepTemplates spec disks
  := rfl

/-! ### Filling the template -/

section

variable (diskPaths : List String)

@[simp]
theorem fillText_nil :
  fillText diskPaths [] = ""
  := rfl

@[simp]
theorem fillText_cons (piece : Piece) (pieces : List Piece) :
  fillText diskPaths (piece :: pieces) = piece.fill diskPaths ++ fillText diskPaths pieces
  := rfl

/-- A step that names no disk is filled with nothing. -/
theorem fill_const (step : PlanStep) :
  (StepTemplate.const step).fill diskPaths = step
  := by
  cases step with
  | mk description op argv => simp [StepTemplate.const, StepTemplate.fill, Piece.fill, Function.comp_def]

/-- The disks are those with the numbers of the disks. -/
theorem map_diskAt_range :
  (List.range diskPaths.length).map (diskAt diskPaths) = diskPaths
  := by
  apply List.ext_getElem
  · simp
  · intro i hi _
    simp [diskAt, show i < diskPaths.length by simpa using hi]

/-- The steps on a disk fill their template. -/
theorem fill_diskTemplates (i : ℕ) :
  (diskTemplates i).map (StepTemplate.fill diskPaths) = diskSteps (diskAt diskPaths i)
  := by
  simp [diskTemplates, diskSteps, StepTemplate.fill, Piece.fill, wipefsArgv, mkpartArgv]

/-- The steps on all disks fill their templates. -/
theorem fill_flatMap_diskTemplates :
  ((List.range diskPaths.length).flatMap diskTemplates).map (StepTemplate.fill diskPaths)
    = diskPaths.flatMap diskSteps
  := by
  rw [List.map_flatMap]
  simp only [fill_diskTemplates]
  rw [← List.flatMap_map, map_diskAt_range]

/-- The step that makes the array fills its template. -/
theorem fill_arrayTemplate (spec : StoragePlanSpec) :
  (arrayTemplate spec diskPaths.length).fill diskPaths
    = ⟨"Create RAID " ++ spec.level.str ++ " array " ++ spec.arrayName, .run,
        mdadmCreateArgv spec.arrayName spec.level.str
          (diskPaths.map fun disk => partitionPath disk 1)⟩
  := by
  have hpartitions : (List.range diskPaths.length).map (fun i => partitionPath (diskAt diskPaths i) 1)
      = diskPaths.map fun disk => partitionPath disk 1 := by
    conv_rhs => rw [← map_diskAt_range diskPaths, List.map_map]
    rfl
  simp [arrayTemplate, StepTemplate.fill, Piece.fill, mdadmCreateArgv, Function.comp_def, hpartitions]

/-- The steps on a physical volume fill their template. -/
theorem fill_volumeTemplates (spec : StoragePlanSpec) (pvDevice : Piece) :
  (volumeTemplates spec pvDevice).map (StepTemplate.fill diskPaths)
    = volumeSteps spec (pvDevice.fill diskPaths)
  := by
  have hconst : ∀ steps : List PlanStep,
      (steps.map StepTemplate.const).map (StepTemplate.fill diskPaths) = steps := by
    intro steps
    simp [List.map_map, Function.comp_def, fill_const]
  rw [volumeTemplates, List.map_cons, List.map_cons, hconst]
  simp [StepTemplate.fill, Piece.fill, volumeSteps, pvcreateArgv, vgcreateArgv]

end

/-- The steps of a spec fill the template of its names with the paths of its disks. -/
theorem buildSteps_eq {spec : StoragePlanSpec} (h : spec.diskPaths ≠ []) :
  buildSteps spec
    = .ok ((stepTemplates spec spec.diskPaths.length).map (StepTemplate.fill spec.diskPaths))
  := by
  obtain ⟨disk, disks, hdisks⟩ := List.exists_cons_of_ne_nil h
  rw [stepTemplates, List.map_append, fill_flatMap_diskTemplates, buildSteps]
  cases hlevel : spec.level with
  | basic =>
      rw [fill_volumeTemplates]
      simp [hdisks, Piece.fill, diskAt]
  | _ =>
      rw [List.map_cons, fill_volumeTemplates, fill_arrayTemplate, hlevel]
      rfl

/-! ### The preview and the execution -/

namespace ExecutePlan

/-- The spec that a plan resolves to and the steps that are built of it. -/
def planned (params : StorageExecutePlanParams) (fresh : StorageInventoryResult) :
    Except Exc (StoragePlanSpec × List PlanStep) := do
  let resolved ← resolve params fresh
  let planSteps ← buildSteps resolved
  pure (resolved, planSteps)

/-- The job executes the steps that are built of the spec that the plan resolves to. -/
theorem body_eq (settings : Settings) (params : StorageExecutePlanParams) :
  body settings params = (do
    progress 0 1 "Re-checking device safety"
    let fresh ← gather
    let (resolved, planSteps) ← Async.ofExcept (planned params fresh)
    let state ← steps settings params resolved planSteps.length 0 ⟨none, ""⟩ planSteps
    ExceptT.mk (Coroutine.perform (StorageOp.makedirs
      (Path.join (Path.join resolved.mountpoint "@nasos") "tmp")))
    progress 1 1 (String.ofList (Json.print Json.dumps (result resolved state.fsUuid))))
  := by
  rw [body]
  congr 1
  funext _
  congr 1
  funext fresh
  rw [planned]
  cases resolve params fresh with
  | error e => rfl
  | ok resolved =>
      rw [Async.ofExcept_ok_bind, executeSpec]
      cases hsteps : buildSteps resolved with
      | error e =>
          have hplanned : (do
              let resolved ← (Except.ok resolved : Except Exc StoragePlanSpec)
              let planSteps ← buildSteps resolved
              pure (resolved, planSteps)) = .error e := by
            change (buildSteps resolved >>= _) = _
            rw [hsteps]
            rfl
          rw [hplanned]
          rfl
      | ok planSteps =>
          have hplanned : (do
              let resolved ← (Except.ok resolved : Except Exc StoragePlanSpec)
              let planSteps ← buildSteps resolved
              pure (resolved, planSteps)) = .ok (resolved, planSteps) := by
            change (buildSteps resolved >>= _) = _
            rw [hsteps]
            rfl
          rw [hplanned]
          rfl

/-- A plan is executed on devices at some paths when it is planned. -/
theorem planned_eq_ok_iff {params : StorageExecutePlanParams} {fresh : StorageInventoryResult}
    {resolved : StoragePlanSpec} {planSteps : List PlanStep} :
  planned params fresh = .ok (resolved, planSteps)
    ↔ ∃ paths, List.Forall₂ (ResolvesTo params fresh) params.spec.diskSerials paths
        ∧ resolved = { params.spec with diskPaths := paths } ∧ buildSteps resolved = .ok planSteps
  := by
  rw [planned, Except.bind_eq_ok_iff]
  simp only [Except.bind_eq_ok_iff, resolve_eq_ok_iff]
  constructor
  · rintro ⟨_, ⟨paths, hpaths, rfl⟩, _, hsteps, ⟨⟩⟩
    exact ⟨paths, hpaths, rfl, hsteps⟩
  · rintro ⟨paths, hpaths, rfl, hsteps⟩
    exact ⟨_, ⟨paths, hpaths, rfl⟩, _, hsteps, rfl⟩

/-- The template of a plan that was made. -/
def templates (created : CreatedPlan) : List StepTemplate :=
  stepTemplates created.plan.spec created.plan.spec.diskSerials.length

/-- Steps are those of the preview of a plan, with the path of each disk replaced by the path of the
device that carries its serial in an inventory, and the path of its first partition likewise. -/
structure Follows (created : CreatedPlan) (fresh : StorageInventoryResult) (paths : List String)
    (planSteps : List PlanStep) : Prop where
  carried : List.Forall₂ (fun serial path =>
    ∃ node, carrier fresh serial = some node ∧ node.value.path = path)
    created.plan.spec.diskSerials paths
  previewed : created.steps = (templates created).map (StepTemplate.fill created.plan.spec.diskPaths)
  executed : planSteps = (templates created).map (StepTemplate.fill paths)
  ops : planSteps.map PlanStep.op = created.steps.map PlanStep.op
  same : paths = created.plan.spec.diskPaths → planSteps = created.steps

/-- For every plan that was made and every inventory that it resolves in, the steps that are executed
are those of the preview with the paths of the disks replaced; there are as many of them, in the same
order and with the same operations, and they are the same if all paths are. -/
theorem planned_of_createPlan {settings : Settings} {volumesRoot : String}
    {request : CreatePlanRequest} {inventory : StorageInventoryResult} {id : String} {now : ℕ}
    {created : CreatedPlan} {managedMountpoints : List String} {fresh : StorageInventoryResult}
    {resolved : StoragePlanSpec} {planSteps : List PlanStep}
    (hcreated : StorageService.createPlan settings volumesRoot request (.ok inventory) id now
      = .ok created)
    (hplanned : planned ⟨created.plan.spec, created.plan.expectedSizes, managedMountpoints⟩ fresh
      = .ok (resolved, planSteps)) :
  Follows created fresh resolved.diskPaths planSteps
  := by
  obtain ⟨nodes, haccepted⟩ := StorageService.accepted_of_createPlan hcreated
  obtain ⟨paths, hpaths, rfl, hsteps⟩ := planned_eq_ok_iff.mp hplanned
  have hlength : paths.length = created.plan.spec.diskSerials.length := hpaths.length_eq.symm
  have hpreview : created.plan.spec.diskPaths ≠ [] := by
    rw [← List.length_pos_iff, haccepted.length_diskPaths]
    apply haccepted.length_pos
  have hexecuted : paths ≠ [] := by
    rw [← List.length_pos_iff, hlength]
    apply haccepted.length_pos
  have hcreatedSteps : created.steps
      = (templates created).map (StepTemplate.fill created.plan.spec.diskPaths) := by
    rw [templates, ← haccepted.length_diskPaths]
    apply (Except.ok.inj ((buildSteps_eq hpreview).symm.trans haccepted.steps)).symm
  have hplanSteps : planSteps = (templates created).map (StepTemplate.fill paths) := by
    rw [templates, ← hlength]
    apply (Except.ok.inj ((buildSteps_eq hexecuted).symm.trans hsteps)).symm
  constructor
  · apply hpaths.imp
    rintro serial path ⟨node, hnode, -, -, hpath⟩
    exact ⟨node, hnode, hpath⟩
  · apply hcreatedSteps
  · apply hplanSteps
  · rw [hcreatedSteps, hplanSteps, List.map_map, List.map_map]
    rfl
  · rintro rfl
    rw [hcreatedSteps, hplanSteps]

/-- The disks of an inventory after they have got other paths. -/
def renamedInventory : StorageInventoryResult :=
  ⟨[StorageService.spareDisk "nvme0n1" "S2", StorageService.spareDisk "sdb" "S1"], [], []⟩

/-- A mirror is made of the disks that were chosen, though one of them is now where the other was. -/
theorem follows_renamed :
  ∃ created resolved planSteps,
    StorageService.createPlan StorageService.webSettings "/volume"
        (StorageService.mirrorRequest ["S1", "S2"]) (.ok StorageService.spareInventory) "f3" 0
      = .ok created
    ∧ planned ⟨created.plan.spec, created.plan.expectedSizes, []⟩ renamedInventory
      = .ok (resolved, planSteps)
    ∧ Follows created renamedInventory ["/dev/sdb", "/dev/nvme0n1"] planSteps
  := by
  obtain ⟨created, resolved, planSteps, hcreated, hplanned, hpaths⟩ : ∃ created resolved planSteps,
      StorageService.createPlan StorageService.webSettings "/volume"
          (StorageService.mirrorRequest ["S1", "S2"]) (.ok StorageService.spareInventory) "f3" 0
        = .ok created
      ∧ planned ⟨created.plan.spec, created.plan.expectedSizes, []⟩ renamedInventory
        = .ok (resolved, planSteps)
      ∧ resolved.diskPaths = ["/dev/sdb", "/dev/nvme0n1"] := ⟨_, _, _, rfl, rfl, rfl⟩
  refine ⟨created, resolved, planSteps, hcreated, hplanned, ?_⟩
  rw [← hpaths]
  apply planned_of_createPlan hcreated hplanned

end ExecutePlan
