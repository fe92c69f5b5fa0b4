import NasOs.System.Lsblk
import NasOs.System.Lvm

/-!
# What the guard protects, from what the commands printed

The guard reads nothing but the inventory, which is made of what `lsblk`, `vgs` and `lvs` print.  So
what it protects can be told from their output: the node of an object is marked exactly when something
in use is below the object.
-/

section

variable (py : PythonValues)

/-! ### What is in use -/

/-- The device of an object is in use by itself: it is mounted, it is swap, it is an array, or it is a
physical volume that a row of `vgs` names with a volume group that a row of `lvs` names. -/
def EntryInUse (vgRows lvRows : List Json) (entry : Json) : Prop :=
  (∃ mountpoint, entry.HasWord py "mountpoint" mountpoint)
    ∨ entry.HasWord py "fstype" "swap"
    ∨ (∃ type, entry.HasText py "type" type ∧ "raid".toList <+: type.toList)
    ∨ ∃ path, entry.HasText py "path" path ∧ Lvm.IsBacking py vgRows lvRows path

/-- An object is another or below it. -/
inductive EntryBelow : Json → Json → Prop where
  | self (entry : Json) : EntryBelow entry entry
  | child {entry child below : Json} (hchild : child ∈ Lsblk.childEntries entry)
      (h : EntryBelow below child) : EntryBelow below entry

/-- Something in use is below an object. -/
def EntryHosts (vgRows lvRows : List Json) (entry : Json) : Prop :=
  ∃ below, EntryBelow below entry ∧ EntryInUse py vgRows lvRows below

/-- A text that is there is not empty. -/
theorem truthy_strOrNone (key : String) (entry : Json) :
  truthy (entry.strOrNone py key) = entry.strOrNone py key
  := by
  rw [Json.strOrNone]
  split
  · rfl
  · rfl
  · split
    · rfl
    · rename_i hne
      rw [truthy, if_neg hne]

/-- A device has a reason to be in use when its object is in use. -/
theorem ownReason_device_iff {vgRows lvRows : List Json} {paths : List String}
    (hpaths : ∀ path, path ∈ paths ↔ Lvm.IsBacking py vgRows lvRows path)
    (entry : Json) (size : ℤ) :
  (ownReason paths (Lsblk.device py entry size)).isSome ↔ EntryInUse py vgRows lvRows entry
  := by
  have hmounted : (truthy (entry.strOrNone py "mountpoint")).isSome
      ↔ ∃ mountpoint, entry.HasWord py "mountpoint" mountpoint := by
    rw [truthy_strOrNone, Option.isSome_iff_exists]
    simp only [Json.strOrNone_eq_some_iff]
  have htype : (∃ type, entry.HasText py "type" type ∧ "raid".toList <+: type.toList)
      ↔ "raid".toList <+: (entry.textOf py "type").toList := by
    simp only [← Json.textOf_eq_iff, exists_eq_left']
  have hpath : (∃ path, entry.HasText py "path" path ∧ Lvm.IsBacking py vgRows lvRows path)
      ↔ entry.textOf py "path" ∈ paths := by
    simp only [← Json.textOf_eq_iff, exists_eq_left', hpaths]
  rw [ownReason_isSome_iff, EntryInUse, ← hmounted, ← Json.strOrNone_eq_some_iff, htype, hpath]
  apply or_congr_right
  apply or_congr_right
  exact or_comm

/-- Something in use is below an object when it is in use or something in use is below one of those
below it. -/
theorem entryHosts_iff {vgRows lvRows : List Json} {entry : Json} :
  EntryHosts py vgRows lvRows entry
    ↔ EntryInUse py vgRows lvRows entry
      ∨ ∃ child ∈ Lsblk.childEntries entry, EntryHosts py vgRows lvRows child
  := by
  constructor
  · rintro ⟨below, hbelow, huse⟩
    cases hbelow with
    | self =>
        left
        apply huse
    | child hchild hbelow =>
        right
        exact ⟨_, hchild, below, hbelow, huse⟩
  · rintro (huse | ⟨child, hchild, below, hbelow, huse⟩)
    · exact ⟨entry, EntryBelow.self entry, huse⟩
    · exact ⟨below, EntryBelow.child hchild hbelow, huse⟩

/-- A node hosts something in use when it is in use or one of those below it hosts something. -/
theorem hosts_node_iff {paths : List String} {value : BlockDevice} {children : List DiskNode} :
  Hosts paths (.node value children)
    ↔ (ownReason paths value).isSome ∨ ∃ child ∈ children, Hosts paths child
  := by
  simp only [Hosts, RoseTree.mem_subtrees_node]
  constructor
  · rintro ⟨below, rfl | ⟨child, hchild, hbelow⟩, hreason⟩
    · left
      apply hreason
    · right
      exact ⟨child, hchild, below, hbelow, hreason⟩
  · rintro (hreason | ⟨child, hchild, below, hbelow, hreason⟩)
    · exact ⟨_, Or.inl rfl, hreason⟩
    · exact ⟨below, Or.inr ⟨child, hchild, hbelow⟩, hreason⟩

/-- The node of an object hosts something in use when something in use is below the object. -/
theorem hosts_toNode_iff {vgRows lvRows : List Json} {paths : List String}
    (hpaths : ∀ path, path ∈ paths ↔ Lvm.IsBacking py vgRows lvRows path)
    {node : DiskNode} {entry : Json} (h : Lsblk.toNode py entry = .ok node) :
  Hosts paths node ↔ EntryHosts py vgRows lvRows entry
  := by
  induction node using RoseTree.induction generalizing entry with
  | h value children ih =>
      obtain ⟨size, children', heq, hchildren⟩ := Lsblk.toNode_eq_ok py h
      cases heq
      rw [hosts_node_iff, entryHosts_iff, ownReason_device_iff py hpaths]
      apply or_congr_right
      apply (List.exists_mem_iff_of_forall₂ hchildren _).symm
      intro child below hbelow hchild
      apply (ih below hbelow hchild).symm

/-! ### What the guard marks -/

/-- A node is marked when something in use is below its object, and so are the nodes below it. -/
inductive Marked (vgRows lvRows : List Json) : Json → DiskNode → Prop where
  | node (entry : Json) (value : BlockDevice) (children : List DiskNode)
      (hmark : value.isProtected = true ↔ EntryHosts py vgRows lvRows entry)
      (hchildren : List.Forall₂ (Marked vgRows lvRows) (Lsblk.childEntries entry) children) :
      Marked vgRows lvRows entry (.node value children)

/-- The guard marks the node of an object, and those below it. -/
theorem marked_mark {vgRows lvRows : List Json} {paths : List String}
    (hpaths : ∀ path, path ∈ paths ↔ Lvm.IsBacking py vgRows lvRows path)
    {node : DiskNode} {entry : Json} (h : Lsblk.toNode py entry = .ok node) :
  Marked py vgRows lvRows entry (mark paths node)
  := by
  induction node using RoseTree.induction generalizing entry with
  | h value children ih =>
      obtain ⟨size, children', heq, hchildren⟩ := Lsblk.toNode_eq_ok py h
      cases heq
      have hmark : (mark paths (.node (Lsblk.device py entry size) children)).value.isProtected = true
          ↔ EntryHosts py vgRows lvRows entry := by
        rw [isProtected_mark_iff, hosts_toNode_iff py hpaths h]
        simp [Lsblk.device]
      rw [mark, RoseTree.value_annotate] at hmark
      rw [mark, RoseTree.annotate, RoseTree.annotateAll_eq_map]
      apply Marked.node _ _ _ hmark
      rw [List.forall₂_map_right_iff]
      apply List.forall₂_imp_of_mem hchildren
      intro child below hbelow hchild
      apply ih below hbelow hchild

/-! ### Adding a mount or a device -/

/-- An object becomes another by a mount, or by a device that is made on it or on one below it. -/
inductive EntryAdds : Json → Json → Prop where
  | mount {entry entry' : Json} (mountpoint : String)
      (hsame : ∀ key, key ≠ "mountpoint" → entry'.get? key = entry.get? key)
      (hmount : entry'.get? "mountpoint" = some (.str mountpoint)) (hne : mountpoint.strip ≠ "") :
      EntryAdds entry entry'
  | device {entry entry' : Json} (before after : List Json) (new : Json)
      (hsame : ∀ key, key ≠ "children" → entry'.get? key = entry.get? key)
      (hchildren : Lsblk.childEntries entry = before ++ after)
      (hchildren' : Lsblk.childEntries entry' = before ++ new :: after) :
      EntryAdds entry entry'
  | inner {entry entry' child child' : Json} (before after : List Json)
      (hsame : ∀ key, key ≠ "children" → entry'.get? key = entry.get? key)
      (hchildren : Lsblk.childEntries entry = before ++ child :: after)
      (hchildren' : Lsblk.childEntries entry' = before ++ child' :: after)
      (h : EntryAdds child child') : EntryAdds entry entry'

/-- Every row of `vgs` and of `lvs` is there again, with the same names. -/
structure RowsGrow (vgRows vgRows' lvRows lvRows' : List Json) : Prop where
  vgs : ∀ row ∈ vgRows, ∃ row' ∈ vgRows', (∀ pv, Lvm.IsPv py row pv → Lvm.IsPv py row' pv)
    ∧ ∀ name, row.HasText py "vg_name" name → row'.HasText py "vg_name" name
  lvs : ∀ row ∈ lvRows, ∃ row' ∈ lvRows', ∀ name, row.HasText py "vg_name" name →
    row'.HasText py "vg_name" name

variable {py}

/-- The rows are there again when they are the same. -/
theorem RowsGrow.refl (vgRows lvRows : List Json) :
  RowsGrow py vgRows vgRows lvRows lvRows
  := by
  constructor
  · intro row hrow
    exact ⟨row, hrow, fun _ h => h, fun _ h => h⟩
  · intro row hrow
    exact ⟨row, hrow, fun _ h => h⟩

/-- What is in use is in use when there are more rows. -/
theorem EntryInUse.of_rows {vgRows vgRows' lvRows lvRows' : List Json} {entry : Json}
    (hrows : RowsGrow py vgRows vgRows' lvRows lvRows') (h : EntryInUse py vgRows lvRows entry) :
  EntryInUse py vgRows' lvRows' entry
  := by
  rcases h with hmount | hswap | hraid | ⟨path, hpath, row, hrow, hpv, lvRow, hlvRow, name, hname, hlvName⟩
  · left
    apply hmount
  · right
    left
    apply hswap
  · right
    right
    left
    apply hraid
  · right
    right
    right
    obtain ⟨row', hrow', hpv', hname'⟩ := hrows.vgs row hrow
    obtain ⟨lvRow', hlvRow', hlvName'⟩ := hrows.lvs lvRow hlvRow
    exact ⟨path, hpath, row', hrow', hpv' path hpv, lvRow', hlvRow', name, hname' name hname,
      hlvName' name hlvName⟩

/-- What is below an object is in use when there are more rows. -/
theorem EntryHosts.of_rows {vgRows vgRows' lvRows lvRows' : List Json} {entry : Json}
    (hrows : RowsGrow py vgRows vgRows' lvRows lvRows') (h : EntryHosts py vgRows lvRows entry) :
  EntryHosts py vgRows' lvRows' entry
  := by
  obtain ⟨below, hbelow, huse⟩ := h
  exact ⟨below, hbelow, huse.of_rows hrows⟩

/-- An object is in use when it has the type, the path and the filesystem of one that is in use, and is
mounted if that one is. -/
theorem EntryInUse.of_same {vgRows lvRows : List Json} {entry entry' : Json}
    (hmount : ∀ mountpoint, entry.HasWord py "mountpoint" mountpoint →
      ∃ mountpoint', entry'.HasWord py "mountpoint" mountpoint')
    (hsame : ∀ key, key ≠ "mountpoint" → key ≠ "children" → entry'.get? key = entry.get? key)
    (h : EntryInUse py vgRows lvRows entry) :
  EntryInUse py vgRows lvRows entry'
  := by
  rcases h with ⟨mountpoint, hmountpoint⟩ | hswap | ⟨type, htype, hraid⟩ | ⟨path, hpath, hbacking⟩
  · left
    apply hmount mountpoint hmountpoint
  · right
    left
    apply hswap.congr py (hsame "fstype" (by decide) (by decide))
  · right
    right
    left
    exact ⟨type, htype.congr py (hsame "type" (by decide) (by decide)), hraid⟩
  · right
    right
    right
    exact ⟨path, hpath.congr py (hsame "path" (by decide) (by decide)), hbacking⟩

/-- Adding a mount or a device leaves what hosts something in use hosting something. -/
theorem EntryHosts.of_adds {vgRows lvRows : List Json} {entry entry' : Json}
    (hadds : EntryAdds entry entry') (h : EntryHosts py vgRows lvRows entry) :
  EntryHosts py vgRows lvRows entry'
  := by
  have hkept : ∀ {e e' : Json}, (∀ key, key ≠ "children" → e'.get? key = e.get? key) →
      EntryInUse py vgRows lvRows e → EntryInUse py vgRows lvRows e' := by
    intro e e' hsame huse
    apply huse.of_same
    · intro mountpoint hmountpoint
      exact ⟨mountpoint, hmountpoint.congr py (hsame "mountpoint" (by decide))⟩
    · intro key _ hkey
      apply hsame key hkey
  induction hadds with
  | mount mountpoint hsame hmount hne =>
      rw [entryHosts_iff] at h ⊢
      rcases h with huse | ⟨child, hchild, hhosts⟩
      · left
        apply huse.of_same
        · intro _ _
          exact ⟨mountpoint.strip, hne, _, hmount, by simp, rfl⟩
        · intro key hkey _
          apply hsame key hkey
      · right
        use child
        rw [Lsblk.childEntries, Json.listOf, hsame "children" (by decide), ← Json.listOf,
          ← Lsblk.childEntries]
        exact ⟨hchild, hhosts⟩
  | device before after new hsame hchildren hchildren' =>
      rw [entryHosts_iff] at h ⊢
      rcases h with huse | ⟨child, hchild, hhosts⟩
      · left
        apply hkept hsame huse
      · right
        use child
        rw [hchildren] at hchild
        rw [hchildren']
        refine ⟨?_, hhosts⟩
        rcases List.mem_append.mp hchild with hchild | hchild
        · apply List.mem_append_left _ hchild
        · apply List.mem_append_right _ (List.mem_cons_of_mem _ hchild)
  | inner before after hsame hchildren hchildren' _ ih =>
      rw [entryHosts_iff] at h ⊢
      rcases h with huse | ⟨child, hchild, hhosts⟩
      · left
        apply hkept hsame huse
      · right
        rw [hchildren] at hchild
        rw [hchildren']
        rcases List.mem_append.mp hchild with hchild | hchild
        · exact ⟨child, List.mem_append_left _ hchild, hhosts⟩
        rcases List.mem_cons.mp hchild with rfl | hchild
        · exact ⟨_, List.mem_append_right _ List.mem_cons_self, ih hhosts⟩
        · exact ⟨child, List.mem_append_right _ (List.mem_cons_of_mem _ hchild), hhosts⟩

variable (py)

/-! ### Readings -/

/-- What `lsblk`, `vgs` and `lvs` printed. -/
structure Reading where
  lsblk : Json
  vgs : Json
  lvs : Json

namespace Reading

/-- What the guard protects, and the inventory that it marks. -/
def protect (r : Reading) : Except Exc (List String × StorageInventoryResult) := do
  let disks ← Lsblk.listBlockDevices py r.lsblk
  let vgs ← Lvm.reportVgs py r.vgs
  let lvs ← Lvm.reportLvs py r.lvs
  pure (computeProtected ⟨disks, vgs, lvs⟩)

/-- The objects of the disks. -/
def disks (r : Reading) : List Json :=
  Lsblk.diskEntries (Lsblk.listed r.lsblk)

/-- The rows of `vgs`. -/
def vgRows (r : Reading) : List Json :=
  Lvm.listed "vg" r.vgs

/-- The rows of `lvs`. -/
def lvRows (r : Reading) : List Json :=
  Lvm.listed "lv" r.lvs

/-- Something in use is below an object. -/
def Hosts (r : Reading) (entry : Json) : Prop :=
  EntryHosts py r.vgRows r.lvRows entry

/-- What is protected is what hosts something in use. -/
structure Protects (r : Reading) (protectedSerials : List String)
    (inventory : StorageInventoryResult) : Prop where
  marked : List.Forall₂ (Marked py r.vgRows r.lvRows) r.disks inventory.disks
  serials : ∀ serial, serial ∈ protectedSerials
    ↔ ∃ entry ∈ r.disks, entry.HasWord py "serial" serial ∧ r.Hosts py entry

variable {py}

/-- What the guard protects is what hosts something in use. -/
theorem protects_of_protect {r : Reading} {protectedSerials : List String}
    {inventory : StorageInventoryResult} (h : r.protect py = .ok (protectedSerials, inventory)) :
  r.Protects py protectedSerials inventory
  := by
  obtain ⟨disks, hdisks, h⟩ := Except.bind_eq_ok_iff.mp h
  obtain ⟨vgs, hvgs, h⟩ := Except.bind_eq_ok_iff.mp h
  obtain ⟨lvs, hlvs, h⟩ := Except.bind_eq_ok_iff.mp h
  have hpaths : ∀ path, path ∈ protectedPvPaths ⟨disks, vgs, lvs⟩
      ↔ Lvm.IsBacking py r.vgRows r.lvRows path :=
    Lvm.mem_protectedPvPaths_iff py hvgs hlvs
  have hentries := Lsblk.forall₂_of_listBlockDevices py hdisks
  have hpair : computeProtected ⟨disks, vgs, lvs⟩ = (protectedSerials, inventory) := Except.ok.inj h
  have hserials : (computeProtected ⟨disks, vgs, lvs⟩).1 = protectedSerials := by rw [hpair]
  have hinventory : (computeProtected ⟨disks, vgs, lvs⟩).2 = inventory := by rw [hpair]
  constructor
  · rw [← hinventory, computeProtected_disks, List.forall₂_map_right_iff]
    apply hentries.imp
    intro entry disk hdisk
    apply marked_mark py hpaths hdisk
  · intro serial
    rw [← hserials, mem_computeProtected_iff]
    apply (List.exists_mem_iff_of_forall₂ hentries _).symm
    intro entry disk _ hdisk
    rw [hosts_toNode_iff py hpaths hdisk, Hosts]
    obtain ⟨size, children, rfl, -⟩ := Lsblk.toNode_eq_ok py hdisk
    have hserial : truthy (Lsblk.device py entry size).serial = entry.strOrNone py "serial" :=
      truthy_strOrNone py "serial" entry
    rw [RoseTree.value_node, hserial, Json.strOrNone_eq_some_iff]
    simp [Lsblk.device]

/-- What was printed grows by a mount or a device, or by rows of `vgs` and `lvs`. -/
inductive Adds (py : PythonValues) (r r' : Reading) : Prop where
  | device (before after : List Json) (entry entry' : Json) (hadds : EntryAdds entry entry')
      (hdisks : r.disks = before ++ entry :: after) (hdisks' : r'.disks = before ++ entry' :: after)
      (hvgs : r'.vgs = r.vgs) (hlvs : r'.lvs = r.lvs) : Adds py r r'
  | volume (hlsblk : r'.lsblk = r.lsblk) (hrows : RowsGrow py r.vgRows r'.vgRows r.lvRows r'.lvRows) :
      Adds py r r'

/-- The serial of a disk stays the same when a mount or a device is added. -/
theorem serial_of_adds {entry entry' : Json} (h : EntryAdds entry entry') :
  entry'.strOrNone py "serial" = entry.strOrNone py "serial"
  := by
  apply Json.strOrNone_congr
  cases h with
  | mount _ hsame => apply hsame _ (by decide)
  | device _ _ _ hsame => apply hsame _ (by decide)
  | inner _ _ hsame => apply hsame _ (by decide)

/-- The disks of a reading that grows have the same serials and host what they hosted. -/
theorem Adds.forall₂ {r r' : Reading} (h : r.Adds py r') :
  List.Forall₂ (fun entry entry' => entry'.strOrNone py "serial" = entry.strOrNone py "serial"
    ∧ (r.Hosts py entry → r'.Hosts py entry')) r.disks r'.disks
  := by
  have hrefl : ∀ entries : List Json, (∀ entry, r.Hosts py entry → r'.Hosts py entry) →
      List.Forall₂ (fun entry entry' => entry'.strOrNone py "serial" = entry.strOrNone py "serial"
        ∧ (r.Hosts py entry → r'.Hosts py entry')) entries entries := by
    intro entries hhosts
    apply List.forall₂_same.mpr
    intro entry _
    exact ⟨rfl, hhosts entry⟩
  cases h with
  | device before after entry entry' hadds hdisks hdisks' hvgs hlvs =>
      have hvgRows : r'.vgRows = r.vgRows := by rw [vgRows, vgRows, hvgs]
      have hlvRows : r'.lvRows = r.lvRows := by rw [lvRows, lvRows, hlvs]
      have hhosts : ∀ entry, r.Hosts py entry → r'.Hosts py entry := by
        intro entry h
        rw [Hosts, hvgRows, hlvRows]
        apply h
      rw [hdisks, hdisks']
      apply List.rel_append (hrefl before hhosts)
      apply List.Forall₂.cons _ (hrefl after hhosts)
      refine ⟨serial_of_adds hadds, ?_⟩
      intro h
      apply hhosts entry' (EntryHosts.of_adds hadds h)
  | volume hlsblk hrows =>
      rw [disks, disks, hlsblk]
      apply hrefl
      intro entry h
      apply EntryHosts.of_rows hrows h

/-- The disks of a reading have the same serials and host what they hosted after any number of
additions. -/
theorem forall₂_of_adds {r r' : Reading} (h : Relation.ReflTransGen (Adds py) r r') :
  List.Forall₂ (fun entry entry' => entry'.strOrNone py "serial" = entry.strOrNone py "serial"
    ∧ (r.Hosts py entry → r'.Hosts py entry')) r.disks r'.disks
  := by
  induction h with
  | refl =>
      apply List.forall₂_same.mpr
      intro entry _
      exact ⟨rfl, id⟩
  | tail _ hstep ih =>
      apply List.forall₂_of_forall₂ (List.forall₂_same.mpr fun entry _ => Eq.refl entry) ih hstep.forall₂
      rintro entry entry' _ entry'' rfl ⟨hserial, hhosts⟩ ⟨hserial', hhosts'⟩
      exact ⟨hserial'.trans hserial, hhosts' ∘ hhosts⟩

/-- A node that is marked hosts something in use. -/
theorem isProtected_of_marked {vgRows lvRows : List Json} {entry : Json} {node : DiskNode}
    (h : Marked py vgRows lvRows entry node) :
  node.value.isProtected = true ↔ EntryHosts py vgRows lvRows entry
  := by
  cases h with
  | node _ _ _ hmark => apply hmark

/-- For every output of `lsblk`, `vgs` and `lvs`, a node is marked exactly when its subtree contains one
that is in use, and the serials are those of the disks that are marked.  Hence whatever mounts, arrays
and logical volumes are added to the output, what was protected is protected. -/
theorem protect_spec {r : Reading} {protectedSerials : List String}
    {inventory : StorageInventoryResult} (h : r.protect py = .ok (protectedSerials, inventory)) :
  r.Protects py protectedSerials inventory
    ∧ ∀ r' protectedSerials' inventory', Relation.ReflTransGen (Adds py) r r' →
      r'.protect py = .ok (protectedSerials', inventory') →
        List.Forall₂ (fun disk disk' => disk.value.isProtected = true → disk'.value.isProtected = true)
            inventory.disks inventory'.disks
          ∧ ∀ serial ∈ protectedSerials, serial ∈ protectedSerials'
  := by
  have hprotects := protects_of_protect h
  refine ⟨hprotects, ?_⟩
  intro r' protectedSerials' inventory' hadds h'
  have hprotects' := protects_of_protect h'
  have hdisks := forall₂_of_adds hadds
  constructor
  · apply List.forall₂_of_forall₂ hprotects.marked hdisks hprotects'.marked
    intro entry entry' disk disk' hmarked hentry hmarked'
    rw [isProtected_of_marked hmarked, isProtected_of_marked hmarked']
    apply hentry.2
  · intro serial hserial
    obtain ⟨entry, hentry, hname, hhosts⟩ := (hprotects.serials serial).mp hserial
    apply (hprotects'.serials serial).mpr
    obtain ⟨entry', hentry', hname', hhosts'⟩ := List.exists_of_mem_forall₂ hdisks.flip hentry
    have hserial' := hname'.trans ((Json.strOrNone_eq_some_iff py).mpr hname)
    exact ⟨entry', hentry', (Json.strOrNone_eq_some_iff py).mp hserial', hhosts' hhosts⟩

/-- A disk of which a partition is mounted, without a volume group. -/
def mounted : Reading where
  lsblk := .obj [("blockdevices", .arr [.obj [("name", .str "sda"), ("path", .str "/dev/sda"),
    ("type", .str "disk"), ("serial", .str "S1"), ("size", .int 100),
    ("children", .arr [.obj [("path", .str "/dev/sda1"), ("type", .str "part"),
      ("mountpoint", .str "/")]])]])]
  vgs := .obj [("report", .arr [])]
  lvs := .obj [("report", .arr [])]

/-- The same disk, and a volume group with a logical volume. -/
def mountedWithVolume : Reading where
  lsblk := mounted.lsblk
  vgs := .obj [("report", .arr [.obj [("vg", .arr [.obj [("vg_name", .str "data"),
    ("pv_name", .str "/dev/md0")]])]])]
  lvs := .obj [("report", .arr [.obj [("lv", .arr [.obj [("lv_name", .str "lv0"),
    ("vg_name", .str "data")]])]])]

/-- Values of which no float and no text of an array or an object is read. -/
def plainValues : PythonValues where
  str _ := ""
  isZero _ := false
  intOfFloat _ := none

/-- Adding a logical volume leaves the disk with the mounted partition protected. -/
theorem protect_mounted :
  ∃ inventory serials' inventory', mounted.protect plainValues = .ok (["S1"], inventory)
    ∧ mountedWithVolume.protect plainValues = .ok (serials', inventory')
    ∧ mounted.Protects plainValues ["S1"] inventory ∧ "S1" ∈ serials'
  := by
  obtain ⟨inventory, h⟩ : ∃ inventory, mounted.protect plainValues = .ok (["S1"], inventory) :=
    ⟨_, rfl⟩
  obtain ⟨serials', inventory', h'⟩ : ∃ serials' inventory',
      mountedWithVolume.protect plainValues = .ok (serials', inventory') := ⟨_, _, rfl⟩
  have hadds : Adds plainValues mounted mountedWithVolume := by
    have hlsblk : mountedWithVolume.lsblk = mounted.lsblk := rfl
    apply Adds.volume hlsblk
    constructor
    · rintro row ⟨⟩
    · rintro row ⟨⟩
  obtain ⟨hprotects, hkept⟩ := protect_spec h
  obtain ⟨-, hserials⟩ := hkept _ _ _ (Relation.ReflTransGen.single hadds) h'
  exact ⟨inventory, serials', inventory', h, h', hprotects, hserials "S1" List.mem_cons_self⟩

end Reading

end
