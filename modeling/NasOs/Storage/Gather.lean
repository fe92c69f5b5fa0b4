import NasOs.Library.JsonReading
import NasOs.Storage.Arrays
import NasOs.System.Smart

/-!
# Gathering the inventory

`gather` lists the block devices and the volumes, asks for the details of each array, and attaches to each
device with a serial number what `smartctl` tells of it.  An exception at any of these ends it, so that one
disk whose report cannot be read hides all disks.
-/

/-- What the commands tell during a gathering, where `smartctl` is the output for a device. -/
structure GatherSources where
  blockDevices : Except Exc (List DiskNode)
  vgs : Except Exc (List VgInfo)
  lvs : Except Exc (List LvInfo)
  mdstat : List Char
  detail : String → Except Exc TextDict
  smartctl : String → String

/-- A block device with its health, and the devices made on it. -/
abbrev SmartNode (F : Type) : Type :=
  RoseTree (BlockDevice × Option (DiskSmart F))

/-- `StorageInventoryResult`, with the health of the disks and the summary of the arrays. -/
structure Gathered (F : Type) where
  disks : List (SmartNode F)
  arrays : List (ArrayInfo F)
  vgs : List VgInfo
  lvs : List LvInfo

namespace Inventory

variable {F : Type} (numbers : PythonNumbers F) (py : PythonConversions F) (loads : String → Loaded)
  (sources : GatherSources)

/-- The details of some arrays, by name. -/
def gatherDetails : List DiskNode → ArrayDetails → Except Exc ArrayDetails
  | [], arrayDetails => .ok arrayDetails
  | mdNode :: mdNodes, arrayDetails => do
      let detail ← sources.detail mdNode.value.path
      gatherDetails mdNodes (arrayDetails.put (mdNode.value.name, detail))

/-- What `smart_adapter.read` tells of a device, if it has a serial number. -/
def readSmart (device : BlockDevice) : Except Exc (Option (DiskSmart F)) :=
  if (truthy device.serial).isSome then Smart.read py (loads (sources.smartctl device.path)) else .ok none

mutual

/-- Attach the health to the devices of `_find_with_serial`. -/
def attachSmart : DiskNode → Except Exc (SmartNode F)
  | .node device children => do
      let smart ← readSmart py loads sources device
      let children ← attachBelow children
      .ok (.node (device, smart) children)

/-- Attach the health to the devices below a device. -/
def attachBelow : List DiskNode → Except Exc (List (SmartNode F))
  | [] => .ok []
  | child :: children => do
      let child ← attachSmart child
      let children ← attachBelow children
      .ok (child :: children)

end

/-- `gather`. -/
def gather : Except Exc (Gathered F) := do
  let disks ← sources.blockDevices
  let vgs ← sources.vgs
  let lvs ← sources.lvs
  let arrayDetails ← gatherDetails sources (disks.flatMap (findTypePrefix "raid")) Table.empty
  let smartDisks ← attachBelow py loads sources disks
  let (inventory, arrays) ← merge numbers disks vgs lvs sources.mdstat arrayDetails
  .ok { disks := smartDisks, arrays, vgs := inventory.vgs, lvs := inventory.lvs }

/-! ### What is gathered -/

/-- `lsblk`, `vgs`, `lvs` and `mdadm` succeed. -/
structure Succeed (disks : List DiskNode) : Prop where
  blockDevices : sources.blockDevices = .ok disks
  vgs : ∃ vgs, sources.vgs = .ok vgs
  lvs : ∃ lvs, sources.lvs = .ok lvs
  detail : ∀ mdNode ∈ raidNodes disks, ∃ detail, sources.detail mdNode.value.path = .ok detail

variable {numbers py loads sources}

/-- The children are given their health one after the other. -/
theorem attachBelow_eq (nodes : List DiskNode) :
  attachBelow py loads sources nodes = nodes.mapM (attachSmart py loads sources)
  := by
  induction nodes with
  | nil => rfl
  | cons node nodes ih =>
      rw [attachBelow, List.mapM_cons, ih]
      rfl

/-- Where nothing but the health is attached to some nodes, nothing else is to all of them. -/
theorem map_attachBelow {nodes : List DiskNode} {smartNodes : List (SmartNode F)}
    (h : attachBelow py loads sources nodes = .ok smartNodes)
    (hnode : ∀ node ∈ nodes, ∀ smartNode, attachSmart py loads sources node = .ok smartNode →
      smartNode.map Prod.fst = node) :
  smartNodes.map (RoseTree.map Prod.fst) = nodes
  := by
  rw [attachBelow_eq, List.mapM_except_eq_ok_iff] at h
  have hmap : List.Forall₂ (fun smartNode node => smartNode.map Prod.fst = node) smartNodes nodes :=
    List.forall₂_imp_of_mem h.flip fun smartNode node hmem => hnode node hmem smartNode
  rw [← List.forall₂_map_left_iff, List.forall₂_eq_eq_eq] at hmap
  exact hmap

/-- Nothing but the health is attached. -/
theorem map_attachSmart {node : DiskNode} {smartNode : SmartNode F}
    (h : attachSmart py loads sources node = .ok smartNode) :
  smartNode.map Prod.fst = node
  := by
  induction node using RoseTree.induction generalizing smartNode with
  | h device children ih =>
      obtain ⟨smart, -, h⟩ := Except.bind_eq_ok_iff.mp h
      obtain ⟨smartChildren, hchildren, h⟩ := Except.bind_eq_ok_iff.mp h
      cases h
      rw [RoseTree.map, RoseTree.mapAll_eq_map, map_attachBelow hchildren]
      intro child hchild smartChild
      exact ih child hchild

/-- The health of a device is read if it has no serial number, or its report can be read. -/
theorem readSmart_iff {device : BlockDevice} :
  (∃ smart, readSmart py loads sources device = .ok smart)
    ↔ ((truthy device.serial).isSome = true →
        Smart.OutputReadable py (loads (sources.smartctl device.path)))
  := by
  rw [readSmart, ← Smart.read_iff]
  split
  · simp [*]
  · simp [*]

/-- The health is attached to some nodes if and only if it is to each of them. -/
theorem attachBelow_iff {nodes : List DiskNode} :
  (∃ smartNodes, attachBelow py loads sources nodes = .ok smartNodes)
    ↔ ∀ node ∈ nodes, ∃ smartNode, attachSmart py loads sources node = .ok smartNode
  := by
  rw [attachBelow_eq]
  simp only [List.mapM_except_eq_ok_iff, List.exists_forall₂_iff]

/-- The health is attached if and only if each report can be read. -/
theorem attachSmart_iff {node : DiskNode} :
  (∃ smartNode, attachSmart py loads sources node = .ok smartNode)
    ↔ ∀ below ∈ node.subtrees, (truthy below.value.serial).isSome = true →
        Smart.OutputReadable py (loads (sources.smartctl below.value.path))
  := by
  induction node using RoseTree.induction with
  | h device children ih =>
      have hattach : (∃ smartNode, attachSmart py loads sources (.node device children) = .ok smartNode)
          ↔ (∃ smart, readSmart py loads sources device = .ok smart)
            ∧ ∃ smartNodes, attachBelow py loads sources children = .ok smartNodes := by
        constructor
        · rintro ⟨smartNode, h⟩
          obtain ⟨smart, hsmart, h⟩ := Except.bind_eq_ok_iff.mp h
          obtain ⟨smartChildren, hchildren, -⟩ := Except.bind_eq_ok_iff.mp h
          exact ⟨⟨smart, hsmart⟩, smartChildren, hchildren⟩
        · rintro ⟨⟨smart, hsmart⟩, smartChildren, hchildren⟩
          rw [attachSmart, hsmart, hchildren]
          exact ⟨_, rfl⟩
      rw [hattach, readSmart_iff, attachBelow_iff]
      constructor
      · rintro ⟨hdevice, hchildren⟩ below hbelow
        rcases RoseTree.mem_subtrees_node.mp hbelow with rfl | ⟨child, hchild, hbelow⟩
        · exact hdevice
        · exact (ih child hchild).mp (hchildren child hchild) below hbelow
      · intro hall
        constructor
        · exact hall _ (RoseTree.self_mem_subtrees _)
        · intro child hchild
          rw [ih child hchild]
          intro below hbelow
          exact hall below (RoseTree.mem_subtrees_node.mpr (.inr ⟨child, hchild, hbelow⟩))

/-- The details of arrays are gathered if `mdadm` succeeds for each. -/
theorem exists_gatherDetails {mdNodes : List DiskNode}
    (h : ∀ mdNode ∈ mdNodes, ∃ detail, sources.detail mdNode.value.path = .ok detail)
    (arrayDetails : ArrayDetails) :
  ∃ gathered, gatherDetails sources mdNodes arrayDetails = .ok gathered
  := by
  induction mdNodes generalizing arrayDetails with
  | nil => exact ⟨arrayDetails, rfl⟩
  | cons mdNode mdNodes ih =>
      obtain ⟨⟨detail, hdetail⟩, hrest⟩ := List.forall_mem_cons.mp h
      obtain ⟨gathered, hgathered⟩ := ih hrest (arrayDetails.put (mdNode.value.name, detail))
      rw [gatherDetails, hdetail]
      exact ⟨gathered, hgathered⟩

/-- The arrays that are found below one disk after the other are those of the forest. -/
theorem flatMap_findTypePrefix (disks : List DiskNode) :
  disks.flatMap (findTypePrefix "raid") = raidNodes disks
  := by
  induction disks with
  | nil => rfl
  | cons disk disks ih =>
      rw [List.flatMap_cons, ih, findTypePrefix_eq, raidNodes, raidNodes, RoseTree.subtreesOf,
        List.filter_append]

/-- The summaries are merged if and only if the progress of each array is told. -/
theorem merge_iff {disks : List DiskNode} {vgs : List VgInfo} {lvs : List LvInfo} {mdstat : List Char}
    {arrayDetails : ArrayDetails} :
  (∃ result, merge numbers disks vgs lvs mdstat arrayDetails = .ok result)
    ↔ ∀ mdNode ∈ raidNodes disks, ∃ percent,
        Mdadm.resyncPercent numbers mdstat mdNode.value.name.toList = .ok percent
  := by
  constructor
  · rintro ⟨result, hresult⟩ mdNode hmdNode
    obtain ⟨array, -, harray⟩ := List.exists_of_mem_forall₂ (merge_eq_ok_iff.mp hresult).2.flip hmdNode
    exact ⟨_, (of_arrayInfo_eq_ok harray).2.1⟩
  · intro h
    obtain ⟨arrays, harrays⟩ := List.exists_forall₂_iff.mpr fun mdNode hmdNode =>
      (h mdNode hmdNode).elim fun percent hpercent => exists_arrayInfo hpercent arrayDetails
    exact ⟨(⟨disks, vgs, lvs⟩, arrays), merge_eq_ok_iff.mpr ⟨rfl, harrays⟩⟩

/-- Where the other commands succeed, the whole tree of devices is gathered if and only if the report of
each device with a serial number can be read, and the progress of each array is told. -/
theorem gather_iff {disks : List DiskNode} (h : Succeed sources disks) :
  (∃ gathered, gather numbers py loads sources = .ok gathered
      ∧ gathered.disks.map (RoseTree.map Prod.fst) = disks)
    ↔ (∀ node ∈ RoseTree.subtreesOf disks, (truthy node.value.serial).isSome = true →
        Smart.OutputReadable py (loads (sources.smartctl node.value.path)))
      ∧ ∀ mdNode ∈ raidNodes disks, ∃ percent,
          Mdadm.resyncPercent numbers sources.mdstat mdNode.value.name.toList = .ok percent
  := by
  obtain ⟨vgs, hvgs⟩ := h.vgs
  obtain ⟨lvs, hlvs⟩ := h.lvs
  obtain ⟨arrayDetails, hdetails⟩ := exists_gatherDetails h.detail Table.empty
  have hsubtrees : (∀ node ∈ RoseTree.subtreesOf disks, (truthy node.value.serial).isSome = true →
        Smart.OutputReadable py (loads (sources.smartctl node.value.path)))
      ↔ ∃ smartNodes, attachBelow py loads sources disks = .ok smartNodes := by
    rw [attachBelow_iff]
    simp only [attachSmart_iff, RoseTree.mem_subtreesOf]
    constructor
    · intro hall disk hdisk below hbelow
      exact hall below ⟨disk, hdisk, hbelow⟩
    · rintro hall below ⟨disk, hdisk, hbelow⟩
      exact hall disk hdisk below hbelow
  rw [hsubtrees, ← @merge_iff _ numbers disks vgs lvs sources.mdstat arrayDetails, gather,
    h.blockDevices, hvgs, hlvs]
  simp only [bind, Except.bind]
  rw [flatMap_findTypePrefix, hdetails]
  constructor
  · rintro ⟨gathered, hgathered, -⟩
    obtain ⟨smartDisks, hsmart, hgathered⟩ := Except.bind_eq_ok_iff.mp hgathered
    obtain ⟨result, hresult, -⟩ := Except.bind_eq_ok_iff.mp hgathered
    exact ⟨⟨smartDisks, hsmart⟩, result, hresult⟩
  · rintro ⟨⟨smartDisks, hsmart⟩, result, hresult⟩
    rw [hsmart]
    dsimp only
    rw [hresult]
    refine ⟨_, rfl, ?_⟩
    apply map_attachBelow hsmart
    intro node _ smartNode
    exact map_attachSmart

/-- An output is read if and only if it can be; and where the other commands succeed, the whole tree of
devices is gathered if and only if the output for each device with a serial number can be read, and the
progress of each array is told. -/
theorem read_and_gather_iff (numbers : PythonNumbers F) (py : PythonConversions F) (loads : String → Loaded) :
  (∀ output, (∃ smart, Smart.read py (loads output) = .ok smart)
      ↔ Smart.OutputReadable py (loads output))
    ∧ ∀ sources disks, Succeed sources disks →
      ((∃ gathered, gather numbers py loads sources = .ok gathered
          ∧ gathered.disks.map (RoseTree.map Prod.fst) = disks)
        ↔ (∀ node ∈ RoseTree.subtreesOf disks, (truthy node.value.serial).isSome = true →
            Smart.OutputReadable py (loads (sources.smartctl node.value.path)))
          ∧ ∀ mdNode ∈ raidNodes disks, ∃ percent,
              Mdadm.resyncPercent numbers sources.mdstat mdNode.value.name.toList = .ok percent)
  := by
  constructor
  · intro output
    exact Smart.read_iff
  · intro sources disks hsucceed
    exact gather_iff hsucceed

/-- `json.loads` of a text; numbers and nesting have no limits here. -/
def loadsText (text : String) : Loaded :=
  match Json.read text.toList with
  | some j => .value j
  | none => .decodeError

/-- The conversions of integers, as far as they are converted here. -/
def plainConversions : PythonConversions ℤ where
  str _ := ""
  intOfText s := Text.int s.toList
  intOfFloat _ := none
  floatOfInt z := some z
  float _ := 0
  floatOfBool b := if b then 1 else 0
  isPositive _ := false

/-- The report of a disk that passed, with an attribute whose id is null. -/
def oddReport : Json :=
  .obj [("smart_status", .obj [("passed", .bool true)]),
    ("ata_smart_attributes", .obj [("table", .arr [.obj [("id", .null)]])])]

/-- A report with an attribute whose id is null raises. -/
theorem not_read_oddReport :
  ¬ ∃ smart, Smart.read plainConversions (loadsText (String.ofList (Json.print Json.dumps oddReport)))
      = .ok smart
  := by
  have hloads : loadsText (String.ofList (Json.print Json.dumps oddReport)) = .value oddReport := by
    rw [loadsText, String.toList_ofList, Json.read_print]
  rw [hloads]
  rintro ⟨smart, ⟨⟩⟩

/-- A disk with a serial number. -/
def healthyDisk : DiskNode :=
  .node ⟨"sda", "/dev/sda", "disk", some "S1", none, none, 1000, false, "unknown", none, none, none, false,
    none⟩ []

/-- The report of a disk that passed. -/
def healthyReport : Json :=
  .obj [("smart_status", .obj [("passed", .bool true)])]

/-- What the commands tell where there is nothing but the disk. -/
def healthySources : GatherSources where
  blockDevices := .ok [healthyDisk]
  vgs := .ok []
  lvs := .ok []
  mdstat := []
  detail _ := .error (.other "mdadm")
  smartctl _ := String.ofList (Json.print Json.dumps healthyReport)

/-- A disk that passed is gathered. -/
theorem gathered_healthyDisk :
  Succeed healthySources [healthyDisk]
    ∧ ∃ gathered, gather ⟨Char.isDigit, Text.int⟩ plainConversions loadsText healthySources = .ok gathered
        ∧ gathered.disks.map (RoseTree.map Prod.fst) = [healthyDisk]
  := by
  have hraid : raidNodes [healthyDisk] = [] := by decide
  have hsucceed : Succeed healthySources [healthyDisk] := by
    refine ⟨rfl, ⟨[], rfl⟩, ⟨[], rfl⟩, ?_⟩
    rw [hraid]
    simp
  have hloads : loadsText (String.ofList (Json.print Json.dumps healthyReport)) = .value healthyReport := by
    rw [loadsText, String.toList_ofList, Json.read_print]
  obtain ⟨-, hgather⟩ := read_and_gather_iff ⟨Char.isDigit, Text.int⟩ plainConversions loadsText
  refine ⟨hsucceed, (hgather healthySources [healthyDisk] hsucceed).mpr ⟨?_, ?_⟩⟩
  · intro node _ _
    change Smart.OutputReadable _ (loadsText (String.ofList (Json.print Json.dumps healthyReport)))
    rw [hloads]
    apply Smart.read_iff.mp ⟨_, rfl⟩
  · rw [hraid]
    simp

end Inventory
