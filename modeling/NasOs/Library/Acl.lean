import Mathlib.Data.Int.Notation
import Mathlib.Data.List.AList

/-!
# Access control lists of files

The access control lists of POSIX file systems: permission triples, lists with a mask and
named entries, the default list that a directory hands on, and the changes that the tools
make to them.

A list with named entries has a mask, which its type says.  A named entry grants what the
mask leaves of it.  A file created in a directory with a default list starts with that
list, the mode of its creation taking bits away from the owner's entry, the mask and the
entry of others.
-/

/-- A permission triple. -/
structure Perm where
  read : Bool
  write : Bool
  execute : Bool
  deriving DecidableEq

namespace Perm

/-- `rwx`. -/
def all : Perm :=
  ⟨true, true, true⟩

/-- `---`. -/
def none : Perm :=
  ⟨false, false, false⟩

/-- `r-x`. -/
def readExecute : Perm :=
  ⟨true, false, true⟩

instance : Inter Perm :=
  ⟨fun p q => ⟨p.read && q.read, p.write && q.write, p.execute && q.execute⟩⟩

instance : Union Perm :=
  ⟨fun p q => ⟨p.read || q.read, p.write || q.write, p.execute || q.execute⟩⟩

/-- What `p` grants, `q` grants too. -/
instance : HasSubset Perm :=
  ⟨fun p q => (p.read → q.read) ∧ (p.write → q.write) ∧ (p.execute → q.execute)⟩

instance (p q : Perm) : Decidable (p ⊆ q) :=
  inferInstanceAs (Decidable ((p.read → q.read) ∧ (p.write → q.write) ∧ (p.execute → q.execute)))

/-- The triple of three bits of a mode. -/
def ofBits (bits : ℕ) : Perm :=
  ⟨bits.testBit 2, bits.testBit 1, bits.testBit 0⟩

@[simp]
theorem inter_all (p : Perm) :
  p ∩ all = p
  := by
  cases p
  simp [Inter.inter, all]

@[simp]
theorem inter_none (p : Perm) :
  p ∩ none = none
  := by
  cases p
  simp [Inter.inter, none]

@[simp]
theorem all_inter (p : Perm) :
  all ∩ p = p
  := by
  cases p
  simp [Inter.inter, all]

end Perm

/-- Who a named entry is for. -/
inductive Principal where
  | user (id : ℕ)
  | group (id : ℕ)
  deriving DecidableEq

/-- The named entries of a list. -/
abbrev NamedEntries : Type :=
  AList fun _ : Principal => Perm

/-- An access control list; one with named entries has a mask. -/
@[ext]
structure Acl where
  userObj : Perm
  groupObj : Perm
  other : Perm
  mask : Option Perm
  named : NamedEntries
  masked : mask = none → named = ∅

namespace Acl

instance : DecidableEq Acl := fun a b =>
  decidable_of_iff
    (a.userObj = b.userObj ∧ a.groupObj = b.groupObj ∧ a.other = b.other ∧ a.mask = b.mask
      ∧ a.named = b.named)
    (by
      cases a
      cases b
      simp)

/-- The list of the three entries every file has. -/
def minimal (userObj groupObj other : Perm) : Acl :=
  ⟨userObj, groupObj, other, none, ∅, fun _ => rfl⟩

/-- What the mask leaves. -/
def maskPerm (acl : Acl) : Perm :=
  acl.mask.getD Perm.all

/-- What a named entry grants, if there is one for the principal. -/
def effective (acl : Acl) (principal : Principal) : Option Perm :=
  (acl.named.lookup principal).map fun perm => perm ∩ acl.maskPerm

/-- Drop every entry but the three that every file has; what the mask took from the owning
group stays taken. -/
def removeExtended (acl : Acl) : Acl :=
  minimal acl.userObj (acl.groupObj ∩ acl.maskPerm) acl.other

/-- The mask that takes nothing from the owning group and the named entries. -/
def unionMask (acl : Acl) : Perm :=
  acl.named.entries.foldl (fun mask entry => mask ∪ entry.2) acl.groupObj

/-- Take the mask that takes nothing away, if there is to be a mask. -/
def recalculateMask (acl : Acl) : Acl :=
  if h : acl.mask = none then acl
  else { acl with mask := some acl.unionMask, masked := by simp }

end Acl

/-- Which entry of a list a change is for. -/
inductive AclTag where
  | userObj
  | groupObj
  | other
  | mask
  | named (principal : Principal)
  deriving DecidableEq

/-- A change of one entry, of the access list or the default list. -/
structure AclSpec where
  isDefault : Bool
  tag : AclTag
  perm : Perm
  deriving DecidableEq

/-- The changes of the access list, or those of the default list. -/
def AclSpec.restrict (isDefault : Bool) (specs : List AclSpec) : List AclSpec :=
  specs.filter fun spec => spec.isDefault == isDefault

namespace Acl

/-- Set an entry; the first named entry brings a mask with it. -/
def set (acl : Acl) (tag : AclTag) (perm : Perm) : Acl :=
  match tag with
  | .userObj => { acl with userObj := perm }
  | .groupObj => { acl with groupObj := perm }
  | .other => { acl with other := perm }
  | .mask => { acl with mask := some perm, masked := by simp }
  | .named principal =>
      { acl with
        mask := some (acl.mask.getD acl.groupObj)
        named := acl.named.insert principal perm
        masked := by simp }

/-- Set entries one after the other. -/
def setAll (acl : Acl) (specs : List AclSpec) : Acl :=
  specs.foldl (fun acl spec => acl.set spec.tag spec.perm) acl

/-- Change a list: the mask is recalculated unless it is among the entries set. -/
def modify (acl : Acl) (specs : List AclSpec) : Acl :=
  if specs.any fun spec => spec.tag = .mask then acl.setAll specs
  else (acl.setAll specs).recalculateMask

/-- The named entries that specs set, in their order. -/
def namedBy (named : NamedEntries) (specs : List AclSpec) : NamedEntries :=
  specs.foldl
    (fun named spec =>
      match spec.tag with
      | .named principal => named.insert principal spec.perm
      | _ => named)
    named

/-- Setting entries sets the named ones among them, and leaves the other named entries. -/
theorem setAll_named (acl : Acl) (specs : List AclSpec) :
  (acl.setAll specs).named = namedBy acl.named specs
  := by
  induction specs generalizing acl with
  | nil => rfl
  | cons spec specs ih =>
      rw [setAll, List.foldl_cons]
      apply Eq.trans (ih (acl.set spec.tag spec.perm))
      rw [namedBy, namedBy, List.foldl_cons]
      congr 1
      cases spec.tag
      all_goals rfl

/-- Setting entries one list after the other. -/
theorem setAll_append (acl : Acl) (specs specs' : List AclSpec) :
  acl.setAll (specs ++ specs') = (acl.setAll specs).setAll specs'
  := List.foldl_append

/-- Setting named entries of a list with a mask changes nothing but the named entries. -/
theorem setAll_of_named {acl : Acl} {mask : Perm} (hmask : acl.mask = some mask)
    {specs : List AclSpec} (h : ∀ spec ∈ specs, ∃ principal, spec.tag = .named principal) :
  (acl.setAll specs).userObj = acl.userObj ∧ (acl.setAll specs).groupObj = acl.groupObj
    ∧ (acl.setAll specs).other = acl.other ∧ (acl.setAll specs).mask = some mask
  := by
  induction specs generalizing acl with
  | nil => exact ⟨rfl, rfl, rfl, hmask⟩
  | cons spec specs ih =>
      obtain ⟨principal, hspec⟩ := h spec List.mem_cons_self
      have hset : (acl.set spec.tag spec.perm).mask = some mask := by
        rw [hspec]
        simp [set, hmask]
      obtain ⟨huser, hgroup, hother, hmask'⟩ :=
        ih hset fun spec' h' => h spec' (List.mem_cons_of_mem _ h')
      rw [hspec] at huser hgroup hother hmask'
      rw [setAll, List.foldl_cons, hspec]
      exact ⟨huser, hgroup, hother, hmask'⟩

/-- When entries set for one principal agree, what is set for a principal is found. -/
theorem lookup_namedBy {specs : List AclSpec} {f : Principal → Perm}
    (h : ∀ spec ∈ specs, ∀ principal, spec.tag = .named principal → spec.perm = f principal)
    (named : NamedEntries) (principal : Principal) :
  (namedBy named specs).lookup principal
    = if ∃ spec ∈ specs, spec.tag = .named principal then some (f principal)
      else named.lookup principal
  := by
  induction specs generalizing named with
  | nil => simp [namedBy]
  | cons spec specs ih =>
      have hrest := ih (fun spec' h' => h spec' (List.mem_cons_of_mem _ h'))
      rw [namedBy, List.foldl_cons, ← namedBy, hrest]
      by_cases hlater : ∃ spec ∈ specs, spec.tag = .named principal
      · have hboth : ∃ spec' ∈ spec :: specs, spec'.tag = .named principal := by
          obtain ⟨spec', hmem, htag⟩ := hlater
          use spec', List.mem_cons_of_mem _ hmem
        rw [if_pos hlater, if_pos hboth]
      · rw [if_neg hlater]
        by_cases htag : spec.tag = .named principal
        · have hboth : ∃ spec' ∈ spec :: specs, spec'.tag = .named principal := by
            use spec, List.mem_cons_self
          rw [if_pos hboth, htag, ← h spec List.mem_cons_self principal htag]
          apply AList.lookup_insert
        · have hneither : ¬ ∃ spec' ∈ spec :: specs, spec'.tag = .named principal := by
            rintro ⟨spec', hmem, htag'⟩
            rcases List.mem_cons.mp hmem with rfl | hmem
            · apply htag htag'
            · apply hlater ⟨spec', hmem, htag'⟩
          rw [if_neg hneither]
          cases hspec : spec.tag with
          | named principal' =>
              apply AList.lookup_insert_ne
              rintro rfl
              apply htag hspec
          | _ => rfl

theorem recalculateMask_named (acl : Acl) :
  acl.recalculateMask.named = acl.named
  := by
  rw [recalculateMask]
  split
  all_goals rfl

theorem modify_named (acl : Acl) (specs : List AclSpec) :
  (acl.modify specs).named = namedBy acl.named specs
  := by
  rw [modify]
  split
  · apply setAll_named
  · rw [recalculateMask_named, setAll_named]

end Acl

/-! ### Files and directories -/

/-- The lists of a file: only a directory has a default list. -/
@[ext]
structure FileAcl where
  isDir : Bool
  access : Acl
  default : Option Acl
  default_isDir : default ≠ none → isDir = true

namespace FileAcl

/-- What has no default ACL is of any kind. -/
theorem default_isDir_none (isDir : Bool) :
  (none : Option Acl) ≠ none → isDir = true
  := by
  intro h
  apply absurd rfl h

instance : DecidableEq FileAcl := fun a b =>
  decidable_of_iff (a.isDir = b.isDir ∧ a.access = b.access ∧ a.default = b.default)
    (by
      cases a
      cases b
      simp)

/-- Drop the extended entries and the default list. -/
def removeAll (acl : FileAcl) : FileAcl :=
  ⟨acl.isDir, acl.access.removeExtended, none, by simp⟩

/-- Change the lists of a directory; a default list that was not there starts with the three
entries of the access list. -/
def modifyDir (acl : FileAcl) (specs : List AclSpec) : FileAcl :=
  let access := acl.access.modify (AclSpec.restrict false specs)
  let defaults := AclSpec.restrict true specs
  let base := acl.default.getD (Acl.minimal access.userObj access.groupObj access.other)
  { isDir := true
    access := access
    default := if defaults = [] then acl.default else some (base.modify defaults)
    default_isDir := fun _ => rfl }

/-- Change the lists of a file.  Entries of a default list fail on what is no directory, but
are passed over there in a change of a whole tree. -/
def modify (acl : FileAcl) (recursive : Bool) (specs : List AclSpec) : Option FileAcl :=
  if acl.isDir then some (acl.modifyDir specs)
  else if recursive ∨ AclSpec.restrict true specs = [] then
    some ⟨false, acl.access.modify (AclSpec.restrict false specs), none, by simp⟩
  else none

/-- Create a file with a mode in a directory. -/
def create (directory : FileAcl) (mode : ℕ) : FileAcl :=
  let owner := Perm.ofBits (mode / 64)
  let group := Perm.ofBits (mode / 8)
  let other := Perm.ofBits mode
  match directory.default with
  | none => ⟨false, Acl.minimal owner group other, none, by simp⟩
  | some acl =>
      { isDir := false
        access :=
          { userObj := acl.userObj ∩ owner
            groupObj := if acl.mask.isSome then acl.groupObj else acl.groupObj ∩ group
            other := acl.other ∩ other
            mask := acl.mask.map fun mask => mask ∩ group
            named := acl.named
            masked := by
              intro h
              apply acl.masked
              simpa using h }
        default := none
        default_isDir := by simp }

/-- Create a directory with a mode in a directory, whose default list it takes over. -/
def createDir (directory : FileAcl) (mode : ℕ) : FileAcl :=
  ⟨true, (create directory mode).access, directory.default, fun _ => rfl⟩

/-- Change the mode of a file: that of the group is the mask, if there is one. -/
def chmod (acl : FileAcl) (mode : ℕ) : FileAcl :=
  { acl with
    access :=
      { userObj := Perm.ofBits (mode / 64)
        groupObj := if acl.access.mask.isSome then acl.access.groupObj else Perm.ofBits (mode / 8)
        other := Perm.ofBits mode
        mask := acl.access.mask.map fun _ => Perm.ofBits (mode / 8)
        named := acl.access.named
        masked := by
          intro h
          apply acl.access.masked
          simpa using h } }

/-- What is created is no directory. -/
@[simp]
theorem isDir_create (directory : FileAcl) (mode : ℕ) :
  (create directory mode).isDir = false
  := by
  rw [create]
  split
  all_goals rfl

end FileAcl

/-! ### Who a list names -/

namespace Acl

/-- The named entries after some are set are those before, and those that are set. -/
theorem mem_namedBy {named : NamedEntries} {specs : List AclSpec} {principal : Principal} :
  principal ∈ namedBy named specs
    ↔ principal ∈ named ∨ ∃ spec ∈ specs, spec.tag = .named principal
  := by
  induction specs generalizing named with
  | nil => simp [namedBy]
  | cons spec specs ih =>
      rw [namedBy, List.foldl_cons, ← namedBy, ih]
      simp only [List.mem_cons, exists_eq_or_imp, ← or_assoc]
      apply or_congr_left
      cases spec.tag with
      | named principal' =>
          simp only [AList.mem_insert, AclTag.named.injEq, eq_comm (a := principal)]
          apply or_comm
      | _ => simp

end Acl

namespace FileAcl

/-- One of the lists of a file has a named entry for the principal. -/
def Names (acl : FileAcl) (principal : Principal) : Prop :=
  principal ∈ acl.access.named ∨ ∃ list, acl.default = some list ∧ principal ∈ list.named

/-- A list without extended entries names nobody. -/
theorem not_names_removeAll (acl : FileAcl) (principal : Principal) :
  ¬ acl.removeAll.Names principal
  := by
  rintro (hnamed | ⟨list, ⟨⟩, -⟩)
  cases hnamed

/-- Changes name nobody but whom they set entries for. -/
theorem names_modify {acl acl' : FileAcl} {recursive : Bool} {specs : List AclSpec}
    (h : acl.modify recursive specs = some acl') {principal : Principal} (hnames : acl'.Names principal) :
  acl.Names principal ∨ ∃ spec ∈ specs, spec.tag = .named principal
  := by
  have haccess : ∀ isDefault, principal ∈ (acl.access.modify (AclSpec.restrict isDefault specs)).named →
      acl.Names principal ∨ ∃ spec ∈ specs, spec.tag = .named principal := by
    intro isDefault hmem
    rw [Acl.modify_named, Acl.mem_namedBy] at hmem
    rcases hmem with hmem | ⟨spec, hspec, htag⟩
    · left
      left
      apply hmem
    · right
      use spec, List.mem_of_mem_filter hspec
  rw [modify] at h
  split at h
  · cases h
    rcases hnames with hmem | ⟨list, hlist, hmem⟩
    · apply haccess false hmem
    · simp only [modifyDir] at hlist
      split at hlist
      · left
        right
        use list
      · cases hlist
        rw [Acl.modify_named, Acl.mem_namedBy] at hmem
        rcases hmem with hmem | ⟨spec, hspec, htag⟩
        · left
          right
          cases hdefault : acl.default with
          | none =>
              rw [hdefault] at hmem
              cases hmem
          | some list =>
              rw [hdefault] at hmem
              use list, rfl
              apply hmem
        · right
          use spec, List.mem_of_mem_filter hspec
  · split at h
    · cases h
      rcases hnames with hmem | ⟨list, ⟨⟩, -⟩
      apply haccess false hmem
    · cases h

/-- A new directory names nobody but whom the directory that it is made in names. -/
theorem names_createDir {directory : FileAcl} {mode : ℕ} {principal : Principal}
    (h : (directory.createDir mode).Names principal) :
  directory.Names principal
  := by
  rcases h with hmem | hdefault
  · right
    rw [createDir, create] at hmem
    split at hmem
    · cases hmem
    · rename_i list hlist
      exact ⟨list, hlist, hmem⟩
  · right
    apply hdefault

/-- A change of the mode names the same. -/
@[simp]
theorem names_chmod {acl : FileAcl} {mode : ℕ} {principal : Principal} :
  (acl.chmod mode).Names principal ↔ acl.Names principal
  := Iff.rfl

end FileAcl
