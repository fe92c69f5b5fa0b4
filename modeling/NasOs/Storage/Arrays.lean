import Mathlib.Data.String.Basic
import NasOs.Library.Table
import NasOs.Library.Traverse
import NasOs.Storage.Guard
import NasOs.System.Mdadm

/-!
# The arrays of the inventory

`merge` summarises the arrays that it finds in the tree of devices, where an array is below each of its
members.  It searches below one disk after the other, so that an array is listed as often as it is found.

Hence an array is listed once if and only if it is found once, and with its progress if and only if the
lines of `/proc/mdstat` that `resync_percent` looks at and those that it does not agree about it.
-/

/-- A `dict` of texts. -/
abbrev TextDict : Type :=
  Table (Prod.fst : String × String → String)

/-- The details of arrays, by name. -/
abbrev ArrayDetails : Type :=
  Table (Prod.fst : String × TextDict → String)

/-- `ArrayInfo`. -/
structure ArrayInfo (F : Type) where
  path : String
  name : String
  level : String
  devices : List String
  state : String
  resyncPercent : Option F

namespace Mdadm

/-- The keys of the members of an array. -/
def isMemberKey (key : String) : Bool :=
  "MD_DEVICE_".toList.isPrefixOf key.toList && "_DEV".toList.isSuffixOf key.toList

/-- `member_devices`. -/
def memberDevices (detail : TextDict) : List String :=
  ((detail.rows.filter fun row => isMemberKey row.1).map Prod.snd).mergeSort fun a b => decide (a ≤ b)

end Mdadm

namespace Inventory

mutual

/-- `_find_type_prefix`. -/
def findTypePrefix (typePrefix : String) : DiskNode → List DiskNode
  | .node device children =>
      (if typePrefix.toList.isPrefixOf device.type.toList then [.node device children] else [])
        ++ findTypePrefixBelow typePrefix children

/-- What is found in the devices below a device. -/
def findTypePrefixBelow (typePrefix : String) : List DiskNode → List DiskNode
  | [] => []
  | child :: children => findTypePrefix typePrefix child ++ findTypePrefixBelow typePrefix children

end

variable {F : Type} (py : PythonNumbers F)

/-- The value of a key, or another if there is none. -/
def get (dict : TextDict) (key default : String) : String :=
  ((dict.find? key).map Prod.snd).getD default

/-- The summary of an array. -/
def arrayInfo (mdstatText : List Char) (arrayDetails : ArrayDetails) (mdNode : DiskNode) :
    Except Exc (ArrayInfo F) := do
  let detail := ((arrayDetails.find? mdNode.value.name).map Prod.snd).getD Table.empty
  let percent ← Mdadm.resyncPercent py mdstatText mdNode.value.name.toList
  .ok {
    path := mdNode.value.path
    name := mdNode.value.name
    level := get detail "MD_LEVEL" mdNode.value.type
    devices := Mdadm.memberDevices detail
    state := get detail "MD_METADATA" "unknown"
    resyncPercent := percent
  }

/-- The summaries of the arrays that are found below one disk after the other. -/
def arraysBelow (mdstatText : List Char) (arrayDetails : ArrayDetails) :
    List DiskNode → Except Exc (List (ArrayInfo F))
  | [] => .ok []
  | disk :: disks => do
      let found ← (findTypePrefix "raid" disk).mapM (arrayInfo py mdstatText arrayDetails)
      let arrays ← arraysBelow mdstatText arrayDetails disks
      .ok (found ++ arrays)

/-- `merge`: the inventory, and the summary of its arrays. -/
def merge (disks : List DiskNode) (vgs : List VgInfo) (lvs : List LvInfo) (mdstatText : List Char)
    (arrayDetails : ArrayDetails) : Except Exc (StorageInventoryResult × List (ArrayInfo F)) := do
  let arrays ← arraysBelow py mdstatText arrayDetails disks
  .ok ({ disks, vgs, lvs }, arrays)

end Inventory

/-! ### What the inventory is to say -/

namespace Inventory

/-- The arrays anywhere in a forest of devices. -/
def raidNodes (disks : List DiskNode) : List DiskNode :=
  (RoseTree.subtreesOf disks).filter fun node => "raid".toList.isPrefixOf node.value.type.toList

variable {F : Type}

/-- What is known of an array. -/
def known (arrayDetails : ArrayDetails) (mdNode : DiskNode) : List (String × String) :=
  (arrayDetails.find? mdNode.value.name).elim [] fun row => row.2.rows

/-- A summary is that of an array: it has its level, which the type of the node tells too, its members,
and its progress. -/
structure Describes (arrayDetails : ArrayDetails) (progress : String → Option F) (mdNode : DiskNode)
    (array : ArrayInfo F) : Prop where
  name : array.name = mdNode.value.name
  level : array.level = (((known arrayDetails mdNode).find? fun row => row.1 = "MD_LEVEL").map
    Prod.snd).getD mdNode.value.type
  members : array.devices.Perm (((known arrayDetails mdNode).filter fun row =>
    Mdadm.isMemberKey row.1).map Prod.snd)
  resync : array.resyncPercent = progress mdNode.value.name

/-- Each array of the forest has one summary among some, and no other has. -/
structure Summarizes (disks : List DiskNode) (arrayDetails : ArrayDetails) (progress : String → Option F)
    (arrays : List (ArrayInfo F)) : Prop where
  once : (arrays.map ArrayInfo.path).Nodup
  paths : ∀ path, path ∈ arrays.map ArrayInfo.path ↔ ∃ node ∈ raidNodes disks, node.value.path = path
  described : ∀ array ∈ arrays, ∀ node ∈ raidNodes disks, node.value.path = array.path →
    Describes arrayDetails progress node array

/-! ### What is listed -/

variable {py : PythonNumbers F}

/-- What is found below some devices is found below each of them. -/
theorem findTypePrefixBelow_eq {typePrefix : String} {nodes : List DiskNode}
    (h : ∀ node ∈ nodes, findTypePrefix typePrefix node
      = node.subtrees.filter fun found => typePrefix.toList.isPrefixOf found.value.type.toList) :
  findTypePrefixBelow typePrefix nodes
    = (RoseTree.subtreesOf nodes).filter fun found => typePrefix.toList.isPrefixOf found.value.type.toList
  := by
  induction nodes with
  | nil => rfl
  | cons node nodes ih =>
      rw [findTypePrefixBelow, RoseTree.subtreesOf, List.filter_append, h node List.mem_cons_self, ih]
      intro other hother
      exact h other (List.mem_cons_of_mem _ hother)

/-- The nodes of a type are found anywhere below a node. -/
theorem findTypePrefix_eq (typePrefix : String) (node : DiskNode) :
  findTypePrefix typePrefix node
    = node.subtrees.filter fun found => typePrefix.toList.isPrefixOf found.value.type.toList
  := by
  induction node using RoseTree.induction with
  | h device children ih =>
      rw [findTypePrefix, findTypePrefixBelow_eq ih, RoseTree.subtrees, List.filter_cons]
      split
      · rw [if_pos ‹_›]
        rfl
      · rw [if_neg ‹_›]
        rfl

/-- The arrays are summarised one after the other. -/
theorem arraysBelow_eq (mdstatText : List Char) (arrayDetails : ArrayDetails) (disks : List DiskNode) :
  arraysBelow py mdstatText arrayDetails disks
    = (raidNodes disks).mapM (arrayInfo py mdstatText arrayDetails)
  := by
  induction disks with
  | nil => rfl
  | cons disk disks ih =>
      rw [arraysBelow, findTypePrefix_eq, ih, raidNodes, raidNodes, RoseTree.subtreesOf,
        List.filter_append, List.mapM_append]
      rfl

/-- A key is looked up among what is known. -/
theorem get_known (arrayDetails : ArrayDetails) (mdNode : DiskNode) (key default : String) :
  get (((arrayDetails.find? mdNode.value.name).map Prod.snd).getD Table.empty) key default
    = (((known arrayDetails mdNode).find? fun row => row.1 = key).map Prod.snd).getD default
  := by
  rw [get, known]
  cases arrayDetails.find? mdNode.value.name with
  | none => rfl
  | some row => rfl

/-- The members are those that are known. -/
theorem memberDevices_known (arrayDetails : ArrayDetails) (mdNode : DiskNode) :
  (Mdadm.memberDevices (((arrayDetails.find? mdNode.value.name).map Prod.snd).getD Table.empty)).Perm
    (((known arrayDetails mdNode).filter fun row => Mdadm.isMemberKey row.1).map Prod.snd)
  := by
  rw [Mdadm.memberDevices, known]
  cases arrayDetails.find? mdNode.value.name with
  | none => apply List.mergeSort_perm
  | some row => apply List.mergeSort_perm

/-- A summary is that of the array that it is made for, with the progress that is told. -/
theorem of_arrayInfo_eq_ok {mdstatText : List Char} {arrayDetails : ArrayDetails} {mdNode : DiskNode}
    {array : ArrayInfo F} (h : arrayInfo py mdstatText arrayDetails mdNode = .ok array) :
  array.path = mdNode.value.path
    ∧ Mdadm.resyncPercent py mdstatText mdNode.value.name.toList = .ok array.resyncPercent
    ∧ ∀ progress : String → Option F, array.resyncPercent = progress mdNode.value.name →
        Describes arrayDetails progress mdNode array
  := by
  obtain ⟨percent, hpercent, harray⟩ := Except.bind_eq_ok_iff.mp h
  cases harray
  refine ⟨rfl, hpercent, ?_⟩
  intro progress hprogress
  constructor
  · rfl
  · apply get_known
  · apply memberDevices_known
  · exact hprogress

/-- An array whose progress is told has a summary. -/
theorem exists_arrayInfo {mdstatText : List Char} {mdNode : DiskNode} {percent : Option F}
    (h : Mdadm.resyncPercent py mdstatText mdNode.value.name.toList = .ok percent)
    (arrayDetails : ArrayDetails) :
  ∃ array, arrayInfo py mdstatText arrayDetails mdNode = .ok array
  := by
  rw [arrayInfo, h]
  exact ⟨_, rfl⟩

/-- The paths of the summaries are those of the arrays. -/
theorem map_path_of_forall₂ {mdstatText : List Char} {arrayDetails : ArrayDetails}
    {nodes : List DiskNode} {arrays : List (ArrayInfo F)}
    (h : List.Forall₂ (fun node array => arrayInfo py mdstatText arrayDetails node = .ok array)
      nodes arrays) :
  arrays.map ArrayInfo.path = nodes.map fun node => node.value.path
  := by
  induction h with
  | nil => rfl
  | cons harray _ ih => rw [List.map_cons, List.map_cons, ih, (of_arrayInfo_eq_ok harray).1]

/-- The inventory that is merged has the summaries of the arrays. -/
theorem merge_eq_ok_iff {disks : List DiskNode} {vgs : List VgInfo} {lvs : List LvInfo}
    {mdstatText : List Char} {arrayDetails : ArrayDetails}
    {result : StorageInventoryResult × List (ArrayInfo F)} :
  merge py disks vgs lvs mdstatText arrayDetails = .ok result
    ↔ result.1 = ⟨disks, vgs, lvs⟩
      ∧ List.Forall₂ (fun node array => arrayInfo py mdstatText arrayDetails node = .ok array)
          (raidNodes disks) result.2
  := by
  rw [merge, arraysBelow_eq, Except.bind_eq_ok_iff]
  simp only [List.mapM_except_eq_ok_iff, Except.ok.injEq]
  constructor
  · rintro ⟨arrays, harrays, rfl⟩
    exact ⟨rfl, harrays⟩
  · rintro ⟨hresult, harrays⟩
    exact ⟨result.2, harrays, by rw [← hresult]⟩

/-- The arrays of a forest, which have the names that the kernel gives to arrays, are summarised, each once and
with the progress that `/proc/mdstat` has for it, if and only if each is found once in the forest and the lines
about it agree. -/
theorem merge_summarizes_iff (disks : List DiskNode) (vgs : List VgInfo) (lvs : List LvInfo) (m : Mdstat)
    (arrayDetails : ArrayDetails) (hnames : ∀ node ∈ raidNodes disks, IsMdName node.value.name.toList) :
  (∃ result, merge py disks vgs lvs m.text arrayDetails = .ok result
      ∧ Summarizes disks arrayDetails (fun name => m.progress py name.toList) result.2)
    ↔ ((raidNodes disks).map fun node => node.value.path).Nodup
      ∧ ∀ node ∈ raidNodes disks, m.Separate py node.value.name.toList
  := by
  have htells : ∀ node ∈ raidNodes disks, Mdadm.resyncPercent py m.text node.value.name.toList
      = .ok (m.progress py node.value.name.toList) ↔ m.Separate py node.value.name.toList := by
    intro node hnode
    exact m.resyncLoop_iff ⟨node.value.name.toList, hnames node hnode⟩
  constructor
  · rintro ⟨result, hmerge, hsummarizes⟩
    obtain ⟨-, harrays⟩ := merge_eq_ok_iff.mp hmerge
    constructor
    · rw [← map_path_of_forall₂ harrays]
      exact hsummarizes.once
    · intro node hnode
      obtain ⟨array, harray, hinfo⟩ := List.exists_of_mem_forall₂ harrays.flip hnode
      obtain ⟨hpath, hpercent, -⟩ := of_arrayInfo_eq_ok hinfo
      apply (htells node hnode).mp
      rw [hpercent, (hsummarizes.described array harray node hnode hpath.symm).resync]
  · rintro ⟨hnodup, hseparate⟩
    obtain ⟨arrays, harrays⟩ := List.exists_forall₂_iff.mpr fun node hnode =>
      exists_arrayInfo ((htells node hnode).mpr (hseparate node hnode)) arrayDetails
    have hpaths := map_path_of_forall₂ harrays
    refine ⟨(⟨disks, vgs, lvs⟩, arrays), merge_eq_ok_iff.mpr ⟨rfl, harrays⟩, ?_⟩
    constructor
    · rw [hpaths]
      exact hnodup
    · intro path
      rw [hpaths, List.mem_map]
    · intro array harray node hnode hpath
      obtain ⟨found, hfound, hinfo⟩ := List.exists_of_mem_forall₂ harrays harray
      obtain ⟨hpath', hpercent, hdescribes⟩ := of_arrayInfo_eq_ok hinfo
      have hsame : found = node := by
        apply List.inj_on_of_nodup_map hnodup hfound hnode
        rw [hpath, hpath']
      subst hsame
      apply hdescribes
      rw [(htells found hfound).mpr (hseparate found hfound)] at hpercent
      exact (Except.ok.inj hpercent).symm

/-- An array below both of its members. -/
def mirrored : List DiskNode :=
  let array : DiskNode := .node ⟨"md127", "/dev/md127", "raid1", none, none, none, 1000, false, "unknown",
    none, none, none, false, none⟩ []
  ["sda", "sdb"].map fun name =>
    .node ⟨name, "/dev/" ++ name, "disk", some name, none, none, 1000, false, "unknown", none, none, none,
      false, none⟩ [array]

/-- An array below both of its members is listed twice. -/
theorem not_merge_summarizes_mirrored :
  ¬ ∃ result, merge ⟨Char.isDigit, Text.int⟩ mirrored [] [] Mdstat.adjoining.text Table.empty = .ok result
      ∧ Summarizes mirrored Table.empty (fun name => Mdstat.adjoining.progress ⟨Char.isDigit, Text.int⟩
          name.toList) result.2
  := by
  rintro ⟨result, hmerge, hsummarizes⟩
  obtain ⟨-, harrays⟩ := merge_eq_ok_iff.mp hmerge
  have honce := hsummarizes.once
  rw [map_path_of_forall₂ harrays] at honce
  revert honce
  decide

/-- An array below one of its members is listed with its progress. -/
theorem merge_summarizes_syncing :
  ∃ result, merge ⟨Char.isDigit, Text.int⟩ (mirrored.take 1) [] [] Mdstat.syncing.text Table.empty = .ok result
    ∧ Summarizes (mirrored.take 1) Table.empty (fun name => Mdstat.syncing.progress
        ⟨Char.isDigit, Text.int⟩ name.toList) result.2
  := by
  apply (@merge_summarizes_iff _ _ (mirrored.take 1) [] [] Mdstat.syncing Table.empty (by decide)).mpr
  constructor
  · decide
  · intro node hnode
    have hname : node.value.name.toList = "md127".toList := by
      revert node
      decide
    rw [hname]
    apply (Mdstat.syncing.resyncLoop_iff ⟨"md127".toList, by decide⟩).mp
    rfl

end Inventory
