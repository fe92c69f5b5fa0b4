import Mathlib.Data.Int.Notation
import NasOs.Library.RoseTree

/-!
# The guard of devices in use

The inventory is a forest of block devices: a disk has its partitions below it, a partition
what is made on it, and so on.  The guard marks every device that hosts something in use,
be it the device itself or something below it, and collects the serials of the marked disks,
which are the devices at the roots of the forest.

`walk_eq` says what the guard's walk computes: the reason it finds is the first condition
in the tree, and every node is marked by the first condition below it.  So a device is marked
exactly when it `Hosts` something in use (`isProtected_mark_iff`).
-/

/-- The fields of a `DiskNode` but for its children; `type` is `lsblk`'s. -/
structure BlockDevice where
  name : String
  path : String
  type : String
  serial : Option String
  model : Option String
  wwn : Option String
  size : ℤ
  rota : Bool
  transport : String
  fstype : Option String
  mountpoint : Option String
  uuid : Option String
  isProtected : Bool
  protectedReason : Option String
  deriving DecidableEq

/-- `DiskNode`: a block device with the devices made on it. -/
abbrev DiskNode : Type :=
  RoseTree BlockDevice

/-- `VgInfo`: a volume group and the paths of its physical volumes. -/
structure VgInfo where
  name : String
  pvs : List String
  size : ℤ
  free : ℤ

/-- `LvInfo`: a logical volume. -/
structure LvInfo where
  name : String
  vg : String
  path : String
  size : ℤ

/-- `StorageInventoryResult`, but for the summary of its arrays. -/
structure StorageInventoryResult where
  disks : List DiskNode
  vgs : List VgInfo
  lvs : List LvInfo

/-- A string that is there and not empty. -/
def truthy : Option String → Option String
  | some s => if s = "" then none else some s
  | none => none

/-! ### The walk -/

/-- `_own_reason`: why the device itself is in use, if it is. -/
def ownReason (protectedPvPaths : List String) (device : BlockDevice) : Option String :=
  match truthy device.mountpoint with
  | some mountpoint => some ("mounted at " ++ mountpoint)
  | none =>
      if device.fstype = some "swap" then some "active swap"
      else if device.path ∈ protectedPvPaths then
        some "LVM physical volume backing an active logical volume"
      else if "raid".toList <+: device.type.toList then
        some ("active RAID member (" ++ device.type ++ ")")
      else none

/-- A device is in use when it is mounted, swap, a physical volume that is protected, or an array. -/
theorem ownReason_isSome_iff (protectedPvPaths : List String) (device : BlockDevice) :
  (ownReason protectedPvPaths device).isSome
    ↔ (truthy device.mountpoint).isSome ∨ device.fstype = some "swap"
      ∨ device.path ∈ protectedPvPaths ∨ "raid".toList <+: device.type.toList
  := by
  rw [ownReason]
  cases truthy device.mountpoint with
  | some mountpoint => simp
  | none =>
      by_cases hswap : device.fstype = some "swap"
      · simp [hswap]
      by_cases hpath : device.path ∈ protectedPvPaths
      · simp [hswap, hpath]
      by_cases hraid : "raid".toList <+: device.type.toList
      · rw [if_neg hswap, if_neg hpath, if_pos hraid]
        exact ⟨fun _ => Or.inr (Or.inr (Or.inr hraid)), fun _ => rfl⟩
      · rw [if_neg hswap, if_neg hpath, if_neg hraid]
        constructor
        · rintro ⟨⟩
        · rintro (⟨⟨⟩⟩ | h | h | h)
          · apply absurd h hswap
          · apply absurd h hpath
          · apply absurd h hraid

/-- Mark a device by the reason it is in use, if there is one. -/
def BlockDevice.mark (device : BlockDevice) : Option String → BlockDevice
  | some reason => { device with isProtected := true, protectedReason := some reason }
  | none => device

mutual

/-- `_walk`: the reason the tree is in use, and the tree with every node marked. -/
def walk (protectedPvPaths : List String) : DiskNode → Option String × DiskNode
  | .node device children =>
      let below := walkChildren protectedPvPaths children
      let reason := (ownReason protectedPvPaths device).or below.1
      (reason, .node (device.mark reason) below.2)

/-- The first reason in the trees of a list, and the trees with every node marked. -/
def walkChildren (protectedPvPaths : List String) : List DiskNode → Option String × List DiskNode
  | [] => (none, [])
  | child :: children =>
      let first := walk protectedPvPaths child
      let rest := walkChildren protectedPvPaths children
      (first.1.or rest.1, first.2 :: rest.2)

end

/-- The paths of the physical volumes of the volume groups that have a logical volume. -/
def protectedPvPaths (inventory : StorageInventoryResult) : List String :=
  let lvVgs := inventory.lvs.map (·.vg)
  inventory.vgs.flatMap fun vg => if vg.name ∈ lvVgs then vg.pvs else []

/-- `compute_protected`: the serials of the disks in use, and the inventory with every
device in use marked. -/
def computeProtected (inventory : StorageInventoryResult) :
    List String × StorageInventoryResult :=
  let disks := inventory.disks.map fun disk => (walk (protectedPvPaths inventory) disk).2
  let protectedSerials := disks.filterMap fun disk =>
    if disk.value.isProtected then truthy disk.value.serial else none
  (protectedSerials, { inventory with disks })

/-! ### What the walk finds -/

/-- The device of the tree or one below it is in use. -/
def Hosts (protectedPvPaths : List String) (node : DiskNode) : Prop :=
  ∃ below ∈ node.subtrees, (ownReason protectedPvPaths below.value).isSome

instance (protectedPvPaths : List String) (node : DiskNode) :
    Decidable (Hosts protectedPvPaths node) :=
  inferInstanceAs (Decidable (∃ below ∈ node.subtrees, _))

/-- The device at the root, marked by the first condition in its tree. -/
def markRoot (protectedPvPaths : List String) (node : DiskNode) : BlockDevice :=
  node.value.mark (node.firstSome (ownReason protectedPvPaths))

/-- The tree with every node marked by the first condition below it. -/
def mark (protectedPvPaths : List String) (node : DiskNode) : DiskNode :=
  node.annotate (markRoot protectedPvPaths)

section

variable (protectedPvPaths : List String)

theorem walkChildren_eq {children : List DiskNode}
    (h : ∀ child ∈ children, walk protectedPvPaths child
      = (child.firstSome (ownReason protectedPvPaths), mark protectedPvPaths child)) :
  walkChildren protectedPvPaths children
    = (RoseTree.firstSomeOf (ownReason protectedPvPaths) children,
        children.map (mark protectedPvPaths))
  := by
  induction children with
  | nil => rfl
  | cons child children ih =>
      have hchild := h child List.mem_cons_self
      have hrest := ih fun c hc => h c (List.mem_cons_of_mem _ hc)
      rw [walkChildren, hchild, hrest, RoseTree.firstSomeOf, List.map_cons]

/-- The walk finds the first condition in a tree, and marks every node by the first
condition below it. -/
theorem walk_eq (node : DiskNode) :
  walk protectedPvPaths node
    = (node.firstSome (ownReason protectedPvPaths), mark protectedPvPaths node)
  := by
  induction node using RoseTree.induction with
  | h device children ih =>
      rw [walk, walkChildren_eq protectedPvPaths ih, mark, RoseTree.annotate,
        RoseTree.annotateAll_eq_map, RoseTree.firstSome]
      rfl

variable {protectedPvPaths}

/-- A device below a device hosts what the one above hosts. -/
theorem Hosts.mono {below node : DiskNode} (hbelow : below ∈ node.subtrees)
    (h : Hosts protectedPvPaths below) :
  Hosts protectedPvPaths node
  := by
  obtain ⟨inUse, hmem, hreason⟩ := h
  use inUse, RoseTree.mem_subtrees_trans hmem hbelow, hreason

/-- A node is marked when it was or when it hosts something in use. -/
theorem isProtected_mark_iff {node : DiskNode} :
  (mark protectedPvPaths node).value.isProtected
    ↔ node.value.isProtected = true ∨ Hosts protectedPvPaths node
  := by
  have hsome := RoseTree.firstSome_isSome (f := ownReason protectedPvPaths) (t := node)
  rw [mark, RoseTree.value_annotate, markRoot, Hosts, ← hsome]
  cases node.firstSome (ownReason protectedPvPaths) with
  | none => simp [BlockDevice.mark]
  | some reason => simp [BlockDevice.mark]

/-- Marking a node changes nothing but its mark. -/
theorem mark_fields (node : DiskNode) :
  (mark protectedPvPaths node).value.path = node.value.path
    ∧ (mark protectedPvPaths node).value.serial = node.value.serial
    ∧ (mark protectedPvPaths node).value.size = node.value.size
  := by
  rw [mark, RoseTree.value_annotate, markRoot]
  cases node.firstSome (ownReason protectedPvPaths) with
  | none => exact ⟨rfl, rfl, rfl⟩
  | some reason => exact ⟨rfl, rfl, rfl⟩

end

section

variable (inventory : StorageInventoryResult)

/-- The guard marks every device of the inventory. -/
theorem computeProtected_disks :
  (computeProtected inventory).2.disks = inventory.disks.map (mark (protectedPvPaths inventory))
  := by
  simp only [computeProtected, walk_eq]

/-- The devices of the marked inventory are the marked devices of the inventory. -/
theorem subtreesOf_computeProtected :
  RoseTree.subtreesOf (computeProtected inventory).2.disks
    = (RoseTree.subtreesOf inventory.disks).map (mark (protectedPvPaths inventory))
  := by
  rw [computeProtected_disks]
  apply RoseTree.subtreesOf_map_annotate
  intro disk _
  apply RoseTree.subtrees_annotate

/-- A serial is protected when a disk at a root carries it that is marked or hosts
something in use. -/
theorem mem_computeProtected_iff {serial : String} :
  serial ∈ (computeProtected inventory).1
    ↔ ∃ disk ∈ inventory.disks, truthy disk.value.serial = some serial
        ∧ (disk.value.isProtected = true ∨ Hosts (protectedPvPaths inventory) disk)
  := by
  simp only [computeProtected, List.mem_filterMap, List.mem_map, walk_eq]
  constructor
  · rintro ⟨_, ⟨disk, hdisk, rfl⟩, hserial⟩
    split at hserial
    · rename_i hprotected
      use disk, hdisk
      rw [(mark_fields disk).2.1] at hserial
      use hserial, isProtected_mark_iff.mp hprotected
    · cases hserial
  · rintro ⟨disk, hdisk, hserial, hprotected⟩
    refine ⟨_, ⟨disk, hdisk, rfl⟩, ?_⟩
    rw [if_pos (isProtected_mark_iff.mpr hprotected), (mark_fields disk).2.1]
    apply hserial

end
