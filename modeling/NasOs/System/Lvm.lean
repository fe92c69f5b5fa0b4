import NasOs.Library.Traverse
import NasOs.Storage.Guard
import NasOs.System.JsonValues

/-!
# The reports of the volume manager

`vgs` prints a row for every physical volume of a volume group and `lvs` a row for every logical
volume, in reports that are listed in a JSON object.  The rows of `vgs` are put together by the names
of the volume groups.
-/

namespace Lvm

variable (py : PythonValues)

/-- The rows of some reports. -/
def rowsOf (kind : String) : List Json → Except Exc (List Json)
  | [] => .ok []
  | report :: reports => do
      let found ← report.attrGet kind
      let rows ← (found.getD (.arr [])).iterate
      let rest ← rowsOf kind reports
      pure (rows ++ rest)

/-- `_report_rows`, of the value that was printed. -/
def reportRows (kind : String) (parsed : Json) : Except Exc (List Json) := do
  let found ← parsed.attrGet "report"
  let reports ← (found.getD (.arr [])).iterate
  rowsOf kind reports

/-- `_to_int` of a member. -/
def toInt (key : String) (row : Json) : Except Exc ℤ :=
  match row.get? key with
  | none => .ok 0
  | some .null => .ok 0
  | some value =>
      match py.intOfFloat (value.pyStr py) with
      | some n => .ok n
      | none => .error (.other ("could not convert string to float: "
          ++ String.ofList (Text.repr (value.pyStr py).toList)))

/-- The physical volume that a row names. -/
def pvOf (row : Json) : Option String :=
  match row.get? "pv_name" with
  | some value => if value.isTrue py then some (value.pyStr py) else none
  | none => none

/-- Add a physical volume to the volume groups with a name. -/
def addPv (name : String) (pv : Option String) (vgs : List VgInfo) : List VgInfo :=
  match pv with
  | some pv => vgs.map fun vg => if vg.name = name then { vg with pvs := vg.pvs ++ [pv] } else vg
  | none => vgs

/-- The volume groups, with one of some name, which is made of a row. -/
def withVg (row : Json) (vgs : List VgInfo) : Except Exc (List VgInfo) :=
  if vgs.any fun vg => vg.name = row.textOf py "vg_name" then .ok vgs
  else do
    let size ← toInt py "vg_size" row
    let free ← toInt py "vg_free" row
    pure (vgs ++ [⟨row.textOf py "vg_name", [], size, free⟩])

/-- What a row adds to the volume groups. -/
def addRow (vgs : List VgInfo) (row : Json) : Except Exc (List VgInfo) := do
  let _ ← row.attrGet "vg_name"
  let vgs ← withVg py row vgs
  pure (addPv (row.textOf py "vg_name") (pvOf py row) vgs)

/-- `report_vgs`, of the value that was printed. -/
def reportVgs (parsed : Json) : Except Exc (List VgInfo) := do
  let rows ← reportRows "vg" parsed
  rows.foldlM (addRow py) []

/-- The logical volume of a row. -/
def lvOf (row : Json) : Except Exc LvInfo := do
  let _ ← row.attrGet "lv_name"
  let size ← toInt py "lv_size" row
  pure ⟨row.textOf py "lv_name", row.textOf py "vg_name", row.textOf py "lv_path", size⟩

/-- `report_lvs`, of the value that was printed. -/
def reportLvs (parsed : Json) : Except Exc (List LvInfo) := do
  let rows ← reportRows "lv" parsed
  rows.mapM (lvOf py)

/-! ### What the reports say -/

/-- The rows that are listed: those of each report, one after the other. -/
def listed (kind : String) (parsed : Json) : List Json :=
  (parsed.listOf "report").flatMap (Json.listOf kind)

/-- A row names a physical volume: its member counts as true, and has that text. -/
def IsPv (row : Json) (pv : String) : Prop :=
  ∃ value, row.get? "pv_name" = some value ∧ value.isTrue py = true ∧ value.pyStr py = pv

/-- A row of `vgs` names a physical volume with a volume group that a row of `lvs` names. -/
def IsBacking (vgRows lvRows : List Json) (pv : String) : Prop :=
  ∃ row ∈ vgRows, IsPv py row pv ∧ ∃ lvRow ∈ lvRows, ∃ name,
    row.HasText py "vg_name" name ∧ lvRow.HasText py "vg_name" name

/-- What is read of a row is the physical volume that it names. -/
theorem pvOf_eq_some_iff {row : Json} {pv : String} :
  pvOf py row = some pv ↔ IsPv py row pv
  := by
  rw [pvOf, IsPv]
  cases row.get? "pv_name" with
  | none => simp
  | some value => simp

/-- The rows of some reports are those that are listed, if they are objects. -/
theorem rowsOf_eq_ok {kind : String} {reports rows : List Json} (h : rowsOf kind reports = .ok rows)
    (hobj : ∀ row ∈ rows, ∃ members, row = .obj members) :
  reports.flatMap (Json.listOf kind) = rows
  := by
  induction reports generalizing rows with
  | nil =>
      cases h
      rfl
  | cons report reports ih =>
      rw [rowsOf, Except.bind_eq_ok_iff] at h
      obtain ⟨found, hfound, h⟩ := h
      obtain ⟨first, hfirst, h⟩ := Except.bind_eq_ok_iff.mp h
      obtain ⟨rest, hrest, h⟩ := Except.bind_eq_ok_iff.mp h
      cases h
      obtain ⟨members, rfl, rfl⟩ := Json.attrGet_eq_ok_iff.mp hfound
      have hlist : (Json.obj members).listOf kind = first := by
        rw [Json.listOf]
        cases hget : Json.get? kind (.obj members) with
        | none =>
            rw [hget] at hfirst
            cases hfirst
            rfl
        | some value =>
            rw [hget] at hfirst
            rcases Json.of_iterate_eq_ok hfirst with harr | htext
            · cases harr
              rfl
            · -- texts are no objects
              have hnil : first = [] := by
                apply List.eq_nil_iff_forall_not_mem.mpr
                intro row hrow
                obtain ⟨s, rfl⟩ := htext row hrow
                obtain ⟨members, ⟨⟩⟩ := hobj _ (List.mem_append_left _ hrow)
              subst hnil
              cases value with
              | arr elements =>
                  cases hfirst
                  rfl
              | _ => rfl
      rw [List.flatMap_cons, hlist, ih hrest fun row hrow => hobj row (List.mem_append_right _ hrow)]

/-- The rows that are read are those that are listed, if they are objects. -/
theorem reportRows_eq_ok {kind : String} {parsed : Json} {rows : List Json}
    (h : reportRows kind parsed = .ok rows) (hobj : ∀ row ∈ rows, ∃ members, row = .obj members) :
  listed kind parsed = rows
  := by
  obtain ⟨found, hfound, h⟩ := Except.bind_eq_ok_iff.mp h
  obtain ⟨reports, hreports, hrows⟩ := Except.bind_eq_ok_iff.mp h
  obtain ⟨members, rfl, rfl⟩ := Json.attrGet_eq_ok_iff.mp hfound
  have hlist : (Json.obj members).listOf "report" = reports := by
    rw [Json.listOf]
    cases hget : Json.get? "report" (.obj members) with
    | none =>
        rw [hget] at hreports
        cases hreports
        rfl
    | some value =>
        rw [hget] at hreports
        rcases Json.of_iterate_eq_ok hreports with harr | htext
        · cases harr
          rfl
        · -- a text has no rows
          have hnil : reports = [] := by
            cases reports with
            | nil => rfl
            | cons report reports =>
                obtain ⟨s, rfl⟩ := htext _ List.mem_cons_self
                cases hrows
          subst hnil
          cases value with
          | arr elements =>
              cases hreports
              rfl
          | _ => rfl
  rw [listed, hlist]
  exact rowsOf_eq_ok hrows hobj

/-- A volume group of some name has a physical volume. -/
def HasPv (vgs : List VgInfo) (name pv : String) : Prop :=
  ∃ vg ∈ vgs, vg.name = name ∧ pv ∈ vg.pvs

/-- Making a volume group that has no physical volume adds none. -/
theorem hasPv_withVg {row : Json} {vgs vgs' : List VgInfo} (h : withVg py row vgs = .ok vgs')
    (name pv : String) :
  HasPv vgs' name pv ↔ HasPv vgs name pv
  := by
  rw [withVg] at h
  split at h
  · cases h
    rfl
  · obtain ⟨size, -, h⟩ := Except.bind_eq_ok_iff.mp h
    obtain ⟨free, -, h⟩ := Except.bind_eq_ok_iff.mp h
    cases h
    simp [HasPv]

/-- There is a volume group of the name of a row. -/
theorem mem_withVg {row : Json} {vgs vgs' : List VgInfo} (h : withVg py row vgs = .ok vgs') :
  ∃ vg ∈ vgs', vg.name = row.textOf py "vg_name"
  := by
  rw [withVg] at h
  split at h
  · rename_i hany
    cases h
    simpa using hany
  · obtain ⟨size, -, h⟩ := Except.bind_eq_ok_iff.mp h
    obtain ⟨free, -, h⟩ := Except.bind_eq_ok_iff.mp h
    cases h
    exact ⟨_, List.mem_append_right _ List.mem_cons_self, rfl⟩

/-- Adding a physical volume to a volume group adds that one. -/
theorem hasPv_addPv {vgs : List VgInfo} {name : String} (h : ∃ vg ∈ vgs, vg.name = name)
    (added : Option String) (name' pv : String) :
  HasPv (addPv name added vgs) name' pv
    ↔ HasPv vgs name' pv ∨ (name = name' ∧ added = some pv)
  := by
  cases added with
  | none => simp [addPv]
  | some new =>
      simp only [HasPv, addPv, List.mem_map]
      constructor
      · rintro ⟨_, ⟨vg, hvg, rfl⟩, hname, hpv⟩
        by_cases hvgName : vg.name = name
        · rw [if_pos hvgName] at hname hpv
          rcases List.mem_append.mp hpv with hpv | hpv
          · left
            exact ⟨vg, hvg, hname, hpv⟩
          · right
            cases List.mem_singleton.mp hpv
            exact ⟨hvgName.symm.trans hname, rfl⟩
        · rw [if_neg hvgName] at hname hpv
          left
          exact ⟨vg, hvg, hname, hpv⟩
      · rintro (⟨vg, hvg, hname, hpv⟩ | ⟨rfl, hnew⟩)
        · refine ⟨_, ⟨vg, hvg, rfl⟩, ?_⟩
          split
          · exact ⟨hname, List.mem_append_left _ hpv⟩
          · exact ⟨hname, hpv⟩
        · obtain ⟨vg, hvg, hname⟩ := h
          cases hnew
          refine ⟨_, ⟨vg, hvg, rfl⟩, ?_⟩
          rw [if_pos hname]
          exact ⟨hname, List.mem_append_right _ List.mem_cons_self⟩

/-- The volume groups that are put together have the physical volumes of the rows. -/
theorem hasPv_foldlM {rows : List Json} {vgs vgs' : List VgInfo}
    (h : rows.foldlM (addRow py) vgs = .ok vgs') (name pv : String) :
  HasPv vgs' name pv
    ↔ HasPv vgs name pv ∨ ∃ row ∈ rows, row.textOf py "vg_name" = name ∧ pvOf py row = some pv
  := by
  induction rows generalizing vgs with
  | nil =>
      cases h
      simp
  | cons row rows ih =>
      rw [List.foldlM_cons, Except.bind_eq_ok_iff] at h
      obtain ⟨added, hadded, h⟩ := h
      obtain ⟨_, -, hadded⟩ := Except.bind_eq_ok_iff.mp hadded
      obtain ⟨made, hmade, hadded⟩ := Except.bind_eq_ok_iff.mp hadded
      cases hadded
      rw [ih h, hasPv_addPv (mem_withVg py hmade), hasPv_withVg py hmade, or_assoc]
      simp

/-- Rows that are put together are objects. -/
theorem obj_of_foldlM {rows : List Json} {vgs vgs' : List VgInfo}
    (h : rows.foldlM (addRow py) vgs = .ok vgs') :
  ∀ row ∈ rows, ∃ members, row = .obj members
  := by
  induction rows generalizing vgs with
  | nil => simp
  | cons row rows ih =>
      rw [List.foldlM_cons, Except.bind_eq_ok_iff] at h
      obtain ⟨added, hadded, h⟩ := h
      obtain ⟨found, hfound, -⟩ := Except.bind_eq_ok_iff.mp hadded
      obtain ⟨members, rfl, -⟩ := Json.attrGet_eq_ok_iff.mp hfound
      intro row hrow
      rcases List.mem_cons.mp hrow with rfl | hrow
      · exact ⟨members, rfl⟩
      · exact ih h row hrow

/-- The volume groups that are reported are put together from the rows that are listed. -/
theorem of_reportVgs {parsed : Json} {vgs : List VgInfo} (h : reportVgs py parsed = .ok vgs) :
  (listed "vg" parsed).foldlM (addRow py) [] = .ok vgs
  := by
  obtain ⟨rows, hrows, hfold⟩ := Except.bind_eq_ok_iff.mp h
  rw [reportRows_eq_ok hrows (obj_of_foldlM py hfold)]
  exact hfold

/-- The logical volumes that are reported are of the volume groups that the listed rows name. -/
theorem map_vg_of_reportLvs {parsed : Json} {lvs : List LvInfo} (h : reportLvs py parsed = .ok lvs) :
  lvs.map LvInfo.vg = (listed "lv" parsed).map (Json.textOf py "vg_name")
  := by
  obtain ⟨rows, hrows, hlvs⟩ := Except.bind_eq_ok_iff.mp h
  have hforall := List.mapM_except_eq_ok_iff.mp hlvs
  have hobj : ∀ row ∈ rows, ∃ members, row = .obj members := by
    intro row hrow
    obtain ⟨lv, -, hlv⟩ := List.exists_of_mem_forall₂ hforall.flip hrow
    obtain ⟨found, hfound, -⟩ := Except.bind_eq_ok_iff.mp hlv
    obtain ⟨members, hmembers, -⟩ := Json.attrGet_eq_ok_iff.mp hfound
    exact ⟨members, hmembers⟩
  rw [reportRows_eq_ok hrows hobj]
  clear hrows hlvs hobj h
  induction hforall with
  | nil => rfl
  | cons hlv _ ih =>
      obtain ⟨_, -, hlv⟩ := Except.bind_eq_ok_iff.mp hlv
      obtain ⟨size, -, hlv⟩ := Except.bind_eq_ok_iff.mp hlv
      cases hlv
      rw [List.map_cons, List.map_cons, ih]

/-- A physical volume is protected when a row of `vgs` names it with a volume group that a row of `lvs`
names. -/
theorem mem_protectedPvPaths_iff {vgsParsed lvsParsed : Json} {disks : List DiskNode} {vgs : List VgInfo}
    {lvs : List LvInfo} (hvgs : reportVgs py vgsParsed = .ok vgs) (hlvs : reportLvs py lvsParsed = .ok lvs)
    (path : String) :
  path ∈ protectedPvPaths ⟨disks, vgs, lvs⟩
    ↔ IsBacking py (listed "vg" vgsParsed) (listed "lv" lvsParsed) path
  := by
  have hpvs := fun name => hasPv_foldlM py (of_reportVgs py hvgs) name path
  have hnames := map_vg_of_reportLvs py hlvs
  have hhas : path ∈ protectedPvPaths ⟨disks, vgs, lvs⟩
      ↔ ∃ name ∈ lvs.map LvInfo.vg, HasPv vgs name path := by
    simp only [protectedPvPaths, List.mem_flatMap, HasPv]
    constructor
    · rintro ⟨vg, hvg, hpath⟩
      split at hpath
      · rename_i hname
        exact ⟨vg.name, hname, vg, hvg, rfl, hpath⟩
      · cases hpath
    · rintro ⟨_, hname, vg, hvg, rfl, hpath⟩
      use vg, hvg
      rw [if_pos hname]
      apply hpath
  rw [hhas, hnames]
  constructor
  · rintro ⟨name, hname, hpv⟩
    rcases (hpvs name).mp hpv with ⟨_, ⟨⟩, -⟩ | ⟨row, hrow, hrowName, hpvOf⟩
    obtain ⟨lvRow, hlvRow, hlvName⟩ := List.mem_map.mp hname
    exact ⟨row, hrow, (pvOf_eq_some_iff py).mp hpvOf, lvRow, hlvRow, name,
      (Json.textOf_eq_iff py).mp hrowName, (Json.textOf_eq_iff py).mp hlvName⟩
  · rintro ⟨row, hrow, hpv, lvRow, hlvRow, name, hname, hlvName⟩
    refine ⟨name, List.mem_map.mpr ⟨lvRow, hlvRow, (Json.textOf_eq_iff py).mpr hlvName⟩, (hpvs _).mpr ?_⟩
    right
    exact ⟨row, hrow, (Json.textOf_eq_iff py).mpr hname, (pvOf_eq_some_iff py).mpr hpv⟩

end Lvm
