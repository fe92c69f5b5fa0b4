import NasOs.Library.Traverse
import NasOs.Storage.Guard
import NasOs.System.JsonValues

/-!
# The inventory of block devices

`lsblk` prints a tree of devices as JSON: a device is an object, the devices below it are its member
`children`.  The adapter makes a node of every object below an object of type `disk`.
-/

namespace Lsblk

variable (py : PythonValues)

/-- The size of a device. -/
def size (entry : Json) : Except Exc ℤ :=
  match entry.get? "size" with
  | none => .ok 0
  | some .null => .ok 0
  | some value =>
      match Text.int (value.pyStr py).toList with
      | some size => .ok size
      | none => .error (.other ("invalid literal for int() with base 10: "
          ++ String.ofList (Text.repr (value.pyStr py).toList)))

/-- The fields of a device of some size. -/
def device (entry : Json) (size : ℤ) : BlockDevice where
  name := entry.textOf py "name"
  path := entry.textOf py "path"
  type := entry.textOf py "type"
  serial := entry.strOrNone py "serial"
  model := entry.strOrNone py "model"
  wwn := entry.strOrNone py "wwn"
  size := size
  rota := ((entry.get? "rota").map (Json.isTrue py)).getD false
  transport := (entry.strOrNone py "tran").getD "unknown"
  fstype := entry.strOrNone py "fstype"
  mountpoint := entry.strOrNone py "mountpoint"
  uuid := entry.strOrNone py "uuid"
  isProtected := false
  protectedReason := none

mutual

/-- `_to_node`. -/
def toNode : Json → Except Exc DiskNode
  | .obj members => do
      -- that there is a list is checked before the size is read, and the list is read last
      let children ← childNodes members
      let size ← size py (.obj members)
      let children ← children
      pure (.node (device py (.obj members) size) children)
  | j => .error (.other ("'" ++ j.typeName ++ "' object has no attribute 'get'"))

/-- The nodes of the member `children`, which is the last of that name. -/
def childNodes : List (String × Json) → Except Exc (Except Exc (List DiskNode))
  | [] => .ok (.ok [])
  | (key, value) :: members =>
      if key = "children" ∧ members.all (fun m => m.1 ≠ "children") then listNodes value
      else childNodes members

/-- The nodes of a value that has to be a list, unless it counts as false. -/
def listNodes : Json → Except Exc (Except Exc (List DiskNode))
  | .arr elements => .ok (toNodes elements)
  | j => if j.isTrue py then .error (.other "") else .ok (.ok [])

/-- The nodes of the elements of a list. -/
def toNodes : List Json → Except Exc (List DiskNode)
  | [] => .ok []
  | element :: elements => do
      let node ← toNode element
      let nodes ← toNodes elements
      pure (node :: nodes)

end

/-- The type of an object is `disk`. -/
def isDisk (type : Option Json) : Bool :=
  match type with
  | some (.str type) => type = "disk"
  | _ => false

/-- The nodes of the disks among some objects. -/
def diskNodes : List Json → Except Exc (List DiskNode)
  | [] => .ok []
  | entry :: entries => do
      let type ← entry.attrGet "type"
      if isDisk type then do
        let node ← toNode py entry
        let nodes ← diskNodes entries
        pure (node :: nodes)
      else diskNodes entries

/-- `list_block_devices`, of the value that was printed. -/
def listBlockDevices (parsed : Json) : Except Exc (List DiskNode) := do
  let found ← parsed.attrGet "blockdevices"
  let entries ← (found.getD (.arr [])).iterate
  diskNodes py entries

/-! ### The nodes of a tree of objects -/

/-- The objects below an object. -/
def childEntries (entry : Json) : List Json :=
  entry.listOf "children"

/-- The nodes of the elements of a list are those of each. -/
theorem toNodes_eq (elements : List Json) :
  toNodes py elements = elements.mapM (toNode py)
  := by
  induction elements with
  | nil =>
      rw [toNodes]
      rfl
  | cons element elements ih => rw [toNodes, List.mapM_cons, ih]

/-- A member is that of the rest of an object, if there is one there. -/
theorem get?_cons (key key' : String) (value : Json) (members : List (String × Json)) :
  Json.get? key (.obj ((key', value) :: members))
    = (Json.get? key (.obj members)).or (if key' = key then some value else none)
  := by
  rw [Json.get?, Json.get?, List.reverse_cons, List.find?_append]
  cases List.find? (fun m => m.1 == key) members.reverse with
  | some m => rfl
  | none =>
      by_cases hkey : key' = key
      · simp [hkey]
      · simp [hkey]

/-- The nodes of the member `children`. -/
theorem childNodes_eq (members : List (String × Json)) :
  childNodes py members
    = match Json.get? "children" (.obj members) with
      | none => .ok (.ok [])
      | some value => listNodes py value
  := by
  have hnone : ∀ l : List (String × Json), l.all (fun m => m.1 ≠ "children") = true
      ↔ Json.get? "children" (.obj l) = none := by
    intro l
    simp [Json.get?]
  induction members with
  | nil =>
      rw [childNodes]
      rfl
  | cons m members ih =>
      obtain ⟨key, value⟩ := m
      rw [childNodes, get?_cons]
      by_cases hkey : key = "children" ∧ members.all (fun m => m.1 ≠ "children")
      · rw [if_pos hkey, if_pos hkey.1, (hnone members).mp hkey.2]
        rfl
      · rw [if_neg hkey, ih]
        cases hget : Json.get? "children" (.obj members) with
        | some found => rfl
        | none =>
            rw [if_neg (fun h => hkey ⟨h, (hnone members).mpr hget⟩)]
            rfl

/-- The node of an object has its fields, and below it the nodes of the objects below. -/
theorem toNode_eq_ok {entry : Json} {node : DiskNode} (h : toNode py entry = .ok node) :
  ∃ size children, node = .node (device py entry size) children
    ∧ List.Forall₂ (fun child below => toNode py child = .ok below) (childEntries entry) children
  := by
  cases entry with
  | obj members =>
      rw [toNode, Except.bind_eq_ok_iff] at h
      obtain ⟨read, hread, h⟩ := h
      obtain ⟨size, hsize, h⟩ := Except.bind_eq_ok_iff.mp h
      obtain ⟨children, hchildren, h⟩ := Except.bind_eq_ok_iff.mp h
      cases h
      refine ⟨size, children, rfl, ?_⟩
      rw [childNodes_eq] at hread
      rw [childEntries, Json.listOf]
      cases hget : Json.get? "children" (.obj members) with
      | none =>
          rw [hget] at hread
          cases hread
          cases hchildren
          exact List.Forall₂.nil
      | some value =>
          rw [hget] at hread
          cases value with
          | arr elements =>
              cases hread
              rw [toNodes_eq, List.mapM_except_eq_ok_iff] at hchildren
              apply hchildren
          | _ =>
              simp only [listNodes] at hread
              split at hread
              · cases hread
              · cases hread
                cases hchildren
                exact List.Forall₂.nil
  | _ => simp [toNode] at h

/-- The disks among some objects: those whose type is the text `disk`. -/
def diskEntries (entries : List Json) : List Json :=
  entries.filter fun entry =>
    match entry.get? "type" with
    | some (.str type) => type = "disk"
    | _ => false

/-- The disks are those that are told to be. -/
theorem diskEntries_eq (entries : List Json) :
  diskEntries entries = entries.filter fun entry => isDisk (entry.get? "type")
  := rfl

/-- The nodes of the disks are those of the objects of type `disk`. -/
theorem forall₂_of_diskNodes {entries : List Json} {disks : List DiskNode}
    (h : diskNodes py entries = .ok disks) :
  List.Forall₂ (fun entry disk => toNode py entry = .ok disk) (diskEntries entries) disks
  := by
  induction entries generalizing disks with
  | nil =>
      cases h
      exact List.Forall₂.nil
  | cons entry entries ih =>
      rw [diskNodes, Except.bind_eq_ok_iff] at h
      obtain ⟨type, htype, h⟩ := h
      obtain ⟨members, rfl, rfl⟩ := Json.attrGet_eq_ok_iff.mp htype
      rw [diskEntries_eq, List.filter_cons]
      split at h
      · rename_i hdisk
        obtain ⟨node, hnode, h⟩ := Except.bind_eq_ok_iff.mp h
        obtain ⟨nodes, hnodes, h⟩ := Except.bind_eq_ok_iff.mp h
        cases h
        rw [if_pos hdisk]
        exact List.Forall₂.cons hnode (ih hnodes)
      · rename_i hdisk
        rw [if_neg hdisk]
        apply ih h

/-- A text has no type. -/
theorem eq_nil_of_diskNodes {entries : List Json} {disks : List DiskNode}
    (h : diskNodes py entries = .ok disks) (htext : ∀ entry ∈ entries, ∃ s, entry = .str s) :
  disks = []
  := by
  cases entries with
  | nil =>
      cases h
      rfl
  | cons entry entries =>
      obtain ⟨s, rfl⟩ := htext entry List.mem_cons_self
      cases h

/-- The objects that are listed. -/
def listed (parsed : Json) : List Json :=
  parsed.listOf "blockdevices"

/-- The nodes that are listed are those of the objects of type `disk`. -/
theorem forall₂_of_listBlockDevices {parsed : Json} {disks : List DiskNode}
    (h : listBlockDevices py parsed = .ok disks) :
  List.Forall₂ (fun entry disk => toNode py entry = .ok disk) (diskEntries (listed parsed)) disks
  := by
  rw [listBlockDevices, Except.bind_eq_ok_iff] at h
  obtain ⟨found, hfound, h⟩ := h
  obtain ⟨entries, hentries, hnodes⟩ := Except.bind_eq_ok_iff.mp h
  obtain ⟨members, rfl, rfl⟩ := Json.attrGet_eq_ok_iff.mp hfound
  rw [listed, Json.listOf]
  cases hget : Json.get? "blockdevices" (.obj members) with
  | none =>
      rw [hget] at hentries
      cases hentries
      cases hnodes
      exact List.Forall₂.nil
  | some value =>
      rw [hget] at hentries
      cases value with
      | arr elements =>
          cases hentries
          apply forall₂_of_diskNodes py hnodes
      | _ =>
          rcases Json.of_iterate_eq_ok hentries with ⟨⟨⟩⟩ | htext
          rw [eq_nil_of_diskNodes py hnodes htext]
          exact List.Forall₂.nil

end Lsblk
