import Mathlib.Algebra.Group.Even
import Mathlib.Data.List.Dedup
import Mathlib.Data.List.Pairwise
import NasOs.Library.Traverse
import NasOs.Storage.Plans

/-!
# Making a plan

The web process makes a plan of a request: it checks the number of disks, asks the agent for the
inventory, looks every serial up in it, and has the steps built that are shown to the user.

The number of disks is that of the serials in the request.  So a serial that is repeated counts as many
times as it is there, and serials of different devices count as different disks wherever the devices
are (`distinctDisks_iff`).
-/

/-- `CreatePlanRequest`. -/
structure CreatePlanRequest where
  volumeName : String
  level : RaidLevel
  filesystem : Filesystem
  diskSerials : List String

/-- A plan that was made, and the steps that the user is shown. -/
structure CreatedPlan where
  plan : Plan
  steps : List PlanStep

/-- `_LEVEL_MIN_DISKS`. -/
def RaidLevel.minDisks : RaidLevel → ℕ
  | .basic => 1
  | .raid1 => 2
  | .raid5 => 3
  | .raid6 => 4
  | .raid10 => 4

/-- `VOLUME_NAME_RE`. -/
def isVolumeName (name : String) : Bool :=
  match name.toList with
  | [] => false
  | c :: l => c.isAlphanum && l.all (fun c => c.isAlphanum || c == '_' || c == '-') && l.length ≤ 63

/-- `DEVICE_NAME_RE`. -/
def isDeviceName (name : String) : Bool :=
  name.toList.all (fun c => c.isAlphanum || c == '_' || c == '.' || c == ':' || c == '-')
    && 1 ≤ name.length && name.length ≤ 64

/-- What the fields of a `StoragePlanSpec` have to be. -/
def StoragePlanSpec.isValid (spec : StoragePlanSpec) : Bool :=
  isVolumeName spec.volumeName && !spec.diskPaths.isEmpty && !spec.diskSerials.isEmpty
    && isDeviceName spec.arrayName && isDeviceName spec.vgName && isDeviceName spec.lvName
    && 1 ≤ spec.mountpoint.length && spec.mountpoint.length ≤ 255

/-- Making a `StoragePlanSpec`, which raises if a field is not what it has to be. -/
def StoragePlanSpec.validated (spec : StoragePlanSpec) : Except Exc StoragePlanSpec :=
  if spec.isValid then .ok spec else .error (.other "validation error for StoragePlanSpec")

/-- A spec that was made has the fields that it was made of. -/
theorem StoragePlanSpec.validated_eq_ok_iff {spec spec' : StoragePlanSpec} :
  spec.validated = .ok spec' ↔ spec.isValid = true ∧ spec = spec'
  := by
  rw [validated]
  by_cases hvalid : spec.isValid = true
  · simp [hvalid]
  · simp [hvalid]

namespace StorageService

/-- The checks of `create_plan` on the number of disks. -/
def checkCounts (request : CreatePlanRequest) : Except Exc Unit :=
  let minimum := request.level.minDisks
  if request.diskSerials.length < minimum then
    .error (.serviceError "not_enough_disks"
      ("level " ++ request.level.str ++ " needs at least " ++ toString minimum ++ " disk(s)"))
  else if request.level = .basic ∧ request.diskSerials.length ≠ 1 then
    .error (.serviceError "invalid_disk_count" "basic (single-disk) needs exactly 1 disk")
  else if request.level = .raid10 ∧ request.diskSerials.length % 2 ≠ 0 then
    .error (.serviceError "invalid_disk_count" "level 10 needs an even number of disks")
  else .ok ()

/-- What the service makes of the answer to `storage.inventory`. -/
def fromAgent : Except Exc StorageInventoryResult → Except Exc StorageInventoryResult
  | .error (.rpcCallError code message) => .error (.serviceError code message)
  | answer => answer

/-- The device that a serial of a request is looked up to. -/
def planDisk (inventory : StorageInventoryResult) (serial : String) : Except Exc DiskNode :=
  match bySerial inventory.disks serial with
  | none => .error (.serviceError "not_found" ("no such disk: " ++ serial))
  | some node =>
      if node.value.isProtected then
        .error (.serviceError "device_protected"
          (node.value.path ++ " (" ++ serial ++ ") is protected: "
            ++ node.value.protectedReason.getD "None"))
      else .ok node

/-- The spec of a plan on devices at some paths. -/
def planSpec (settings : Settings) (volumesRoot : String) (request : CreatePlanRequest)
    (diskPaths : List String) : StoragePlanSpec where
  volumeName := request.volumeName
  level := request.level
  filesystem := request.filesystem
  diskPaths := diskPaths
  diskSerials := request.diskSerials
  arrayName := request.volumeName
  vgName := "nasos_" ++ request.volumeName
  lvName := request.volumeName
  mountpoint := settings.systemPath (volumesRoot ++ "/" ++ request.volumeName)

/-- What the user has to type. -/
def confirmText : List String → String
  | [serial] => serial
  | _ => "ERASE"

/-- `create_plan`, given what the agent answers, a fresh identifier and the monotonic clock.  A serial
that is repeated is recorded with the same size each time. -/
def createPlan (settings : Settings) (volumesRoot : String) (request : CreatePlanRequest)
    (answer : Except Exc StorageInventoryResult) (id : String) (now : ℕ) :
    Except Exc CreatedPlan := do
  checkCounts request
  let inventory ← fromAgent answer
  let nodes ← request.diskSerials.mapM (planDisk inventory)
  let spec ←
    (planSpec settings volumesRoot request (nodes.map fun node => node.value.path)).validated
  let steps ← buildSteps spec
  pure
    ⟨⟨id, spec, request.diskSerials.zip (nodes.map fun node => node.value.size),
      confirmText request.diskSerials, now⟩, steps⟩

/-! ### Requests that are accepted -/

/-- A request is looked up in an inventory to some devices. -/
structure Accepted (settings : Settings) (volumesRoot : String) (request : CreatePlanRequest)
    (inventory : StorageInventoryResult) (nodes : List DiskNode) (created : CreatedPlan) : Prop where
  enough : request.level.minDisks ≤ request.diskSerials.length
  single : request.level = .basic → request.diskSerials.length = 1
  even : request.level = .raid10 → request.diskSerials.length % 2 = 0
  found : List.Forall₂ (fun serial node => bySerial inventory.disks serial = some node
    ∧ node.value.isProtected = false) request.diskSerials nodes
  spec : created.plan.spec
    = planSpec settings volumesRoot request (nodes.map fun node => node.value.path)
  valid : created.plan.spec.isValid = true
  expectedSizes : created.plan.expectedSizes
    = request.diskSerials.zip (nodes.map fun node => node.value.size)
  steps : buildSteps created.plan.spec = .ok created.steps

/-- A device of a plan is one that is not protected. -/
theorem planDisk_eq_ok_iff {inventory : StorageInventoryResult} {serial : String} {node : DiskNode} :
  planDisk inventory serial = .ok node
    ↔ bySerial inventory.disks serial = some node ∧ node.value.isProtected = false
  := by
  rw [planDisk]
  cases bySerial inventory.disks serial with
  | none => simp
  | some found =>
      by_cases hprotected : found.value.isProtected = true
      · simp only [hprotected, if_true, reduceCtorEq, Option.some.injEq, false_iff, not_and]
        rintro rfl
        simp [hprotected]
      · simp only [hprotected, Bool.false_eq_true, if_false, Except.ok.injEq, Option.some.injEq,
          iff_self_and]
        rintro rfl
        simpa using hprotected

/-- The counts that are accepted. -/
theorem checkCounts_eq_ok_iff {request : CreatePlanRequest} :
  checkCounts request = .ok ()
    ↔ request.level.minDisks ≤ request.diskSerials.length
      ∧ (request.level = .basic → request.diskSerials.length = 1)
      ∧ (request.level = .raid10 → request.diskSerials.length % 2 = 0)
  := by
  simp only [checkCounts]
  split
  · rename_i hfew
    simp only [reduceCtorEq, false_iff]
    rintro ⟨henough, -⟩
    omega
  rename_i henough
  split
  · rename_i hbasic
    simp only [reduceCtorEq, false_iff]
    rintro ⟨-, hsingle, -⟩
    apply hbasic.2 (hsingle hbasic.1)
  rename_i hsingle
  split
  · rename_i hraid
    simp only [reduceCtorEq, false_iff]
    rintro ⟨-, -, heven⟩
    apply hraid.2 (heven hraid.1)
  rename_i heven
  simp only [true_iff]
  rw [not_and_not_right] at hsingle heven
  exact ⟨by omega, hsingle, heven⟩

/-- What a plan is, when a request is accepted. -/
theorem accepted_of_createPlan {settings : Settings} {volumesRoot : String}
    {request : CreatePlanRequest} {inventory : StorageInventoryResult} {id : String} {now : ℕ}
    {created : CreatedPlan}
    (h : createPlan settings volumesRoot request (.ok inventory) id now = .ok created) :
  ∃ nodes, Accepted settings volumesRoot request inventory nodes created
  := by
  obtain ⟨⟨⟩, hcounts, h⟩ := Except.bind_eq_ok_iff.mp h
  obtain ⟨_, ⟨⟩, h⟩ := Except.bind_eq_ok_iff.mp h
  obtain ⟨nodes, hnodes, h⟩ := Except.bind_eq_ok_iff.mp h
  obtain ⟨henough, hsingle, heven⟩ := checkCounts_eq_ok_iff.mp hcounts
  rw [List.mapM_except_eq_ok_iff] at hnodes
  simp only [planDisk_eq_ok_iff] at hnodes
  obtain ⟨spec, hspec, h⟩ := Except.bind_eq_ok_iff.mp h
  obtain ⟨hvalid, rfl⟩ := StoragePlanSpec.validated_eq_ok_iff.mp hspec
  obtain ⟨steps, hsteps, h⟩ := Except.bind_eq_ok_iff.mp h
  cases h
  exact ⟨nodes, henough, hsingle, heven, hnodes, rfl, hvalid, rfl, hsteps⟩

/-! ### The disks of a plan -/

/-- The devices of a forest, each with the number of the tree it is in. -/
def rooted (disks : List DiskNode) : List (ℕ × DiskNode) :=
  disks.zipIdx.flatMap fun disk => disk.1.subtrees.map fun node => (disk.2, node)

/-- The number of the disk on which the device is that a serial is looked up to. -/
def diskOf (inventory : StorageInventoryResult) (serial : String) : Option ℕ :=
  ((rooted inventory.disks).reverse.find? fun node =>
    truthy node.2.value.serial = some serial).map Prod.fst

/-- The path of the device that a serial is looked up to. -/
def pathOf (inventory : StorageInventoryResult) (serial : String) : Option String :=
  (bySerial inventory.disks serial).map fun node => node.value.path

/-- The paths of a plan are different, and it uses as many disks as its level needs, none of them
twice. -/
structure DistinctDisks (inventory : StorageInventoryResult) (spec : StoragePlanSpec) : Prop where
  paths : spec.diskPaths.Nodup
  disks : (spec.diskSerials.filterMap (diskOf inventory)).Nodup
  enough : spec.level.minDisks ≤ (spec.diskSerials.filterMap (diskOf inventory)).dedup.length
  even : spec.level = .raid10 →
    Even (spec.diskSerials.filterMap (diskOf inventory)).dedup.length

/-- The serials are looked up to devices with different paths, on different disks. -/
def Apart (inventory : StorageInventoryResult) (serial serial' : String) : Prop :=
  pathOf inventory serial ≠ pathOf inventory serial' ∧ diskOf inventory serial ≠ diskOf inventory serial'

instance (inventory : StorageInventoryResult) (serial serial' : String) :
    Decidable (Apart inventory serial serial') :=
  inferInstanceAs (Decidable (_ ∧ _))

instance (inventory : StorageInventoryResult) : Std.Symm (Apart inventory) where
  symm _ _ h := ⟨h.1.symm, h.2.symm⟩

/-- The devices with the numbers of their trees are the devices. -/
theorem map_snd_rooted (disks : List DiskNode) :
  (rooted disks).map Prod.snd = RoseTree.subtreesOf disks
  := by
  have hzip : ∀ n, ((disks.zipIdx n).flatMap fun disk =>
      disk.1.subtrees.map fun node => (disk.2, node)).map Prod.snd = RoseTree.subtreesOf disks := by
    induction disks with
    | nil => exact fun n => rfl
    | cons disk disks ih =>
        intro n
        rw [List.zipIdx_cons, List.flatMap_cons, List.map_append, ih, List.map_map]
        change disk.subtrees.map id ++ _ = _
        rw [List.map_id, RoseTree.subtreesOf]
  apply hzip

/-- A serial is looked up to a device on some disk. -/
theorem exists_diskOf {inventory : StorageInventoryResult} {serial : String} {node : DiskNode}
    (h : bySerial inventory.disks serial = some node) :
  ∃ disk, diskOf inventory serial = some disk
  := by
  rw [bySerial, ← map_snd_rooted, ← List.map_reverse, List.find?_map, Option.map_eq_some_iff] at h
  obtain ⟨found, hfound, -⟩ := h
  use found.1
  exact congrArg (Option.map Prod.fst) hfound

/-- What a function that is defined on a list makes of it. -/
theorem map_some_filterMap {α β : Type} {f : α → Option β} {l : List α}
    (h : ∀ a ∈ l, ∃ b, f a = some b) :
  (l.filterMap f).map some = l.map f
  := by
  induction l with
  | nil => rfl
  | cons a l ih =>
      obtain ⟨b, hb⟩ := h a List.mem_cons_self
      rw [List.filterMap_cons_some hb, List.map_cons, List.map_cons, hb,
        ih fun c hc => h c (List.mem_cons_of_mem a hc)]

/-- The values of a function that is defined on a list are different when any two are. -/
theorem nodup_filterMap_iff {α β : Type} {f : α → Option β} {l : List α}
    (h : ∀ a ∈ l, ∃ b, f a = some b) :
  (l.filterMap f).Nodup ↔ l.Pairwise fun a b => f a ≠ f b
  := by
  rw [← List.nodup_map_iff (Option.some_injective β), map_some_filterMap h, List.Nodup,
    List.pairwise_map]

section

variable {settings : Settings} {volumesRoot : String} {request : CreatePlanRequest}
  {inventory : StorageInventoryResult} {nodes : List DiskNode} {created : CreatedPlan}

/-- Every serial of a request that is accepted has a path. -/
theorem Accepted.exists_pathOf
    (h : Accepted settings volumesRoot request inventory nodes created) {serial : String}
    (hserial : serial ∈ request.diskSerials) :
  ∃ node, bySerial inventory.disks serial = some node
  := by
  obtain ⟨node, hnode⟩ := List.exists_forall₂_iff.mp ⟨nodes, h.found⟩ serial hserial
  exact ⟨node, hnode.1⟩

/-- The paths of a plan are those that its serials are looked up to. -/
theorem Accepted.diskPaths_eq
    (h : Accepted settings volumesRoot request inventory nodes created) :
  created.plan.spec.diskPaths = request.diskSerials.filterMap (pathOf inventory)
  := by
  rw [h.spec]
  change nodes.map _ = _
  have hfound := h.found
  clear h
  generalize request.diskSerials = serials at hfound ⊢
  induction hfound with
  | nil => rfl
  | cons hnode _ ih =>
      rw [List.map_cons, ih, List.filterMap_cons_some]
      rw [pathOf, hnode.1]
      rfl

/-- A plan that is accepted has a path for every serial. -/
theorem Accepted.length_diskPaths
    (h : Accepted settings volumesRoot request inventory nodes created) :
  created.plan.spec.diskPaths.length = created.plan.spec.diskSerials.length
  := by
  rw [h.spec]
  change (nodes.map _).length = request.diskSerials.length
  rw [List.length_map, h.found.length_eq]

/-- A plan that is accepted has a disk. -/
theorem Accepted.length_pos
    (h : Accepted settings volumesRoot request inventory nodes created) :
  0 < created.plan.spec.diskSerials.length
  := by
  rw [h.spec]
  apply Nat.lt_of_lt_of_le _ h.enough
  cases request.level with
  | _ => decide

/-- The disks of a plan are distinct when its paths and the numbers of its disks are. -/
theorem Accepted.distinctDisks_iff_nodup
    (h : Accepted settings volumesRoot request inventory nodes created) :
  DistinctDisks inventory created.plan.spec
    ↔ created.plan.spec.diskPaths.Nodup
      ∧ (created.plan.spec.diskSerials.filterMap (diskOf inventory)).Nodup
  := by
  constructor
  · intro hdistinct
    exact ⟨hdistinct.paths, hdistinct.disks⟩
  · rintro ⟨hpaths, hdisks⟩
    have hserials : created.plan.spec.diskSerials = request.diskSerials := by
      rw [h.spec]
      rfl
    have hlevel : created.plan.spec.level = request.level := by
      rw [h.spec]
      rfl
    have hlength : (created.plan.spec.diskSerials.filterMap (diskOf inventory)).dedup.length
        = request.diskSerials.length := by
      rw [hdisks.dedup, hserials, ← List.length_map (f := some), map_some_filterMap, List.length_map]
      intro serial hserial
      obtain ⟨node, hnode⟩ := h.exists_pathOf hserial
      apply exists_diskOf hnode
    constructor
    · apply hpaths
    · apply hdisks
    · rw [hlength, hlevel]
      apply h.enough
    · rw [hlength, hlevel]
      intro hraid
      apply Nat.even_iff.mpr (h.even hraid)

end

/-- A plan that is accepted has different paths and uses as many different disks as its level needs,
and none of them twice, if and only if the request repeats no serial and any two of its serials are
looked up to devices with different paths on different disks. -/
theorem distinctDisks_iff {settings : Settings} {volumesRoot : String} {request : CreatePlanRequest}
    {inventory : StorageInventoryResult} {id : String} {now : ℕ} {created : CreatedPlan}
    (h : createPlan settings volumesRoot request (.ok inventory) id now = .ok created) :
  DistinctDisks inventory created.plan.spec
    ↔ request.diskSerials.Nodup
      ∧ ∀ serial ∈ request.diskSerials, ∀ serial' ∈ request.diskSerials, serial ≠ serial' →
        Apart inventory serial serial'
  := by
  obtain ⟨nodes, haccepted⟩ := accepted_of_createPlan h
  have hserials : created.plan.spec.diskSerials = request.diskSerials := by
    rw [haccepted.spec]
    rfl
  have hpath : ∀ serial ∈ request.diskSerials, ∃ path, pathOf inventory serial = some path := by
    intro serial hserial
    obtain ⟨node, hnode⟩ := haccepted.exists_pathOf hserial
    rw [pathOf, hnode]
    exact ⟨node.value.path, rfl⟩
  have hdisk : ∀ serial ∈ request.diskSerials, ∃ disk, diskOf inventory serial = some disk := by
    intro serial hserial
    obtain ⟨node, hnode⟩ := haccepted.exists_pathOf hserial
    apply exists_diskOf hnode
  rw [haccepted.distinctDisks_iff_nodup, haccepted.diskPaths_eq, hserials,
    nodup_filterMap_iff hpath, nodup_filterMap_iff hdisk]
  constructor
  · rintro ⟨hpaths, hdisks⟩
    have hapart : request.diskSerials.Pairwise (Apart inventory) := hpaths.and hdisks
    constructor
    · apply hpaths.imp
      rintro serial serial' hne rfl
      apply hne rfl
    · intro serial hserial serial' hserial' hne
      apply hapart.forall hserial hserial' hne
  · rintro ⟨hnodup, hapart⟩
    have hpairwise := hnodup.pairwise_of_forall_ne hapart
    exact ⟨hpairwise.imp And.left, hpairwise.imp And.right⟩

/-- A disk with nothing on it. -/
def spareDisk (name serial : String) : DiskNode :=
  .node
    { name := name
      path := "/dev/" ++ name
      type := "disk"
      serial := some serial
      model := none
      wwn := none
      size := 4000
      rota := false
      transport := "sata"
      fstype := none
      mountpoint := none
      uuid := none
      isProtected := false
      protectedReason := none } []

/-- Two disks with nothing on them. -/
def spareInventory : StorageInventoryResult :=
  ⟨[spareDisk "sda" "S1", spareDisk "sdb" "S2"], [], []⟩

/-- The settings of the system. -/
def webSettings : Settings :=
  ⟨false, "./devdata", "/var/lib/nasos"⟩

/-- A request for a mirror on disks with some serials. -/
def mirrorRequest (diskSerials : List String) : CreatePlanRequest :=
  ⟨"media", .raid1, .xfs, diskSerials⟩

/-- A mirror of two disks uses both. -/
theorem distinctDisks_mirror :
  ∃ created, createPlan webSettings "/volume" (mirrorRequest ["S1", "S2"]) (.ok spareInventory) "f3" 0
      = .ok created ∧ DistinctDisks spareInventory created.plan.spec
  := by
  obtain ⟨created, hcreated⟩ : ∃ created, createPlan webSettings "/volume"
      (mirrorRequest ["S1", "S2"]) (.ok spareInventory) "f3" 0 = .ok created := ⟨_, rfl⟩
  use created, hcreated
  rw [distinctDisks_iff hcreated]
  decide +kernel

/-- A request that names a disk twice is accepted, and the mirror is made of one disk. -/
theorem not_distinctDisks_repeated :
  ∃ created, createPlan webSettings "/volume" (mirrorRequest ["S1", "S1"]) (.ok spareInventory) "f3" 0
      = .ok created ∧ ¬ DistinctDisks spareInventory created.plan.spec
  := by
  refine ⟨_, rfl, ?_⟩
  intro h
  apply absurd h.paths
  decide

end StorageService
