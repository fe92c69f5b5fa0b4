import Mathlib.Algebra.Order.Ring.Int
import NasOs.Library.AclText
import NasOs.Library.Traverse
import NasOs.System.Acl

/-!
# What the commands do to a path

The commands of `SetfaclAcl` change the lists of one path.  A reset leaves the three entries that every
file has; a rebuild after it, on a directory or over a whole tree, leaves exactly the
entries it was given (`modify_removeAll`).
-/

/-! ### Entries as changes -/

/-- The principal of a kind with a number. -/
def PrincipalKind.toPrincipal : PrincipalKind → ℕ → Principal
  | .user => .user
  | .group => .group

/-- Who an entry is for. -/
def AclEntry.principal (e : AclEntry) : Principal :=
  e.kind.toPrincipal e.numericId.toNat

/-- The permission a level stands for. -/
def AclLevel.toPerm : AclLevel → Perm
  | .rw => Perm.all
  | .ro => Perm.readExecute

/-- The change that sets an entry, of the access list or the default list. -/
def AclEntry.toSpec (isDefault : Bool) (e : AclEntry) : AclSpec :=
  ⟨isDefault, .named e.principal, e.level.toPerm⟩

/-- The changes of `_ALWAYS_ENTRIES`. -/
def alwaysSpecs : List AclSpec :=
  [⟨false, .userObj, Perm.all⟩, ⟨false, .groupObj, Perm.none⟩, ⟨false, .mask, Perm.all⟩,
    ⟨true, .userObj, Perm.all⟩, ⟨true, .groupObj, Perm.none⟩, ⟨true, .mask, Perm.all⟩,
    ⟨false, .other, Perm.none⟩, ⟨true, .other, Perm.none⟩]

/-- The changes that `replace_all` makes after the reset. -/
def SetfaclAcl.aclSpecs (entries : List AclEntry) : List AclSpec :=
  alwaysSpecs ++ entries.flatMap fun e => [e.toSpec false, e.toSpec true]

/-- The named entries that a permission list stands for. -/
def grants (entries : List AclEntry) : NamedEntries :=
  Acl.namedBy ∅ (entries.map (AclEntry.toSpec false))

/-- The list that `replace_all` makes. -/
def replacedAcl (entries : List AclEntry) : Acl :=
  { userObj := Perm.all
    groupObj := Perm.none
    other := Perm.none
    mask := some Perm.all
    named := grants entries
    masked := by simp }

/-- Two entries whose numbers principals can have are for the same principal if they have the same key. -/
theorem AclEntry.principal_eq_iff {e : AclEntry} (he : 0 ≤ e.numericId) (kind : PrincipalKind)
    (id : ℕ) :
  e.principal = kind.toPrincipal id ↔ e.key = (kind, (id : ℤ))
  := by
  rcases e with ⟨kind', id', level⟩
  obtain ⟨n, rfl⟩ := Int.eq_ofNat_of_zero_le he
  cases kind
  all_goals cases kind'
  all_goals simp [AclEntry.principal, AclEntry.key, PrincipalKind.toPrincipal]

/-! ### The text of a rebuild -/

theorem AclLevel.toList_perm (level : AclLevel) :
  level.perm.toList = level.toPerm.text
  := by
  cases level
  all_goals decide

/-- The numeral of an integer is a number of a principal unless it has a sign. -/
theorem decimal_toString (id : ℤ) :
  Text.decimal (toString id).toList = if 0 ≤ id then some id.toNat else none
  := by
  cases id with
  | ofNat n =>
      have hn : 0 ≤ Int.ofNat n := Int.natCast_nonneg n
      rw [if_pos hn]
      change Text.decimal n.repr.toList = _
      rw [Nat.toList_repr, Text.decimal_toDigits]
      rfl
  | negSucc n =>
      have hminus : '-' ∈ (toString (Int.negSucc n)).toList := by
        change '-' ∈ ("-" ++ (n + 1).repr).toList
        simp
      rw [if_neg (by simp), Text.decimal, if_neg]
      rintro ⟨-, hall⟩
      have hdigit := List.all_eq_true.mp hall _ hminus
      cases hdigit

/-- The numeral of an integer is not empty. -/
theorem toList_toString_ne_nil (id : ℤ) :
  (toString id).toList ≠ []
  := by
  cases id with
  | ofNat n =>
      change n.repr.toList ≠ []
      rw [Nat.toList_repr]
      apply Nat.toDigits_ne_nil
  | negSucc n =>
      change ("-" ++ (n + 1).repr).toList ≠ []
      simp

/-- The numeral of a natural number has digits only in it. -/
theorem not_mem_repr {c : Char} (hc : c.isDigit = false) (n : ℕ) :
  c ∉ n.repr.toList
  := by
  intro h
  rw [Nat.toList_repr] at h
  have hdigit := Nat.isDigit_of_mem_toDigits (by decide) (by decide) h
  rw [hc] at hdigit
  cases hdigit

/-- The numeral of an integer has nothing but digits and a minus in it. -/
theorem not_mem_toString {c : Char} (hc : c.isDigit = false) (hminus : c ≠ '-') (z : ℤ) :
  c ∉ (toString z).toList
  := by
  cases z with
  | ofNat n => apply not_mem_repr hc n
  | negSucc n =>
      change c ∉ ("-" ++ (n + 1).repr).toList
      rw [String.toList_append, List.mem_append]
      rintro (h | h)
      · apply hminus (List.mem_singleton.mp h)
      · apply not_mem_repr hc _ h

/-- The fields of an entry have neither colons nor commas in them. -/
theorem AclEntry.not_mem_fields {c : Char} (hc : c = ':' ∨ c = ',') (e : AclEntry) :
  ∀ field ∈ "d" :: e.fields, c ∉ field.toList
  := by
  intro field hfield
  simp only [fields, List.mem_cons, List.not_mem_nil, or_false] at hfield
  rcases hfield with rfl | rfl | rfl | rfl
  · rcases hc with rfl | rfl
    all_goals decide
  · cases e.kind
    all_goals
      rcases hc with rfl | rfl
      all_goals decide
  · rcases hc with rfl | rfl
    · apply not_mem_toString rfl (by decide)
    · apply not_mem_toString rfl (by decide)
  · cases e.level
    all_goals
      rcases hc with rfl | rfl
      all_goals decide

/-- The tag of a named entry. -/
theorem AclTag.parse_qualifier (kind : PrincipalKind) {id : List Char} (h : id ≠ []) :
  AclTag.parse kind.qualifier.toList id
    = (Text.decimal id).map fun n => .named (kind.toPrincipal n)
  := by
  obtain ⟨c, l, rfl⟩ := List.exists_cons_of_ne_nil h
  cases kind
  all_goals rfl

/-- The fields of an entry denote its change, if its number can be one. -/
theorem AclEntry.ofFields (isDefault : Bool) (e : AclEntry) :
  AclSpec.ofFields isDefault e.kind.qualifier.toList (toString e.numericId).toList
      e.level.perm.toList
    = if 0 ≤ e.numericId then some (e.toSpec isDefault) else none
  := by
  rw [AclSpec.ofFields, AclLevel.toList_perm, Perm.parse_text,
    AclTag.parse_qualifier _ (toList_toString_ne_nil _), decimal_toString]
  split
  all_goals rfl

/-- The two texts of an entry denote its changes of the access and the default list. -/
theorem AclEntry.parse_specs (e : AclEntry) :
  (e.specs.map String.toList).mapM AclSpec.parse
    = if 0 ≤ e.numericId then some [e.toSpec false, e.toSpec true] else none
  := by
  have hcolon := e.not_mem_fields (Or.inl rfl)
  have hsplit : ∀ fields : List String, fields ≠ [] → (∀ field ∈ fields, ':' ∉ field.toList) →
      (":".intercalate fields).toList.splitOn ':' = fields.map String.toList := by
    intro fields hne h
    rw [String.toList_intercalate]
    apply List.splitOn_intercalate
    · intro l hl
      obtain ⟨field, hfield, rfl⟩ := List.mem_map.mp hl
      apply h field hfield
    · simpa using hne
  have haccess := hsplit e.fields (by simp [fields]) fun field hfield =>
    hcolon field (List.mem_cons_of_mem _ hfield)
  have hdefault := hsplit ("d" :: e.fields) (by simp) hcolon
  have hparse : AclSpec.parse (":".intercalate e.fields).toList
      = if 0 ≤ e.numericId then some (e.toSpec false) else none := by
    rw [← e.ofFields false, AclSpec.parse, haccess]
    rfl
  have hparse' : AclSpec.parse (":".intercalate ("d" :: e.fields)).toList
      = if 0 ≤ e.numericId then some (e.toSpec true) else none := by
    rw [← e.ofFields true, AclSpec.parse, hdefault]
    rfl
  rw [specs, List.map_cons, List.map_cons, List.mapM_cons, List.mapM_cons, hparse, hparse']
  split
  all_goals rfl

/-- The texts of an entry have no commas in them. -/
theorem AclEntry.not_mem_specs (e : AclEntry) :
  ∀ spec ∈ e.specs, ',' ∉ spec.toList
  := by
  have hcomma := e.not_mem_fields (Or.inr rfl)
  have hjoin : ∀ fields : List String, (∀ field ∈ fields, ',' ∉ field.toList) →
      ',' ∉ (":".intercalate fields).toList := by
    intro fields h hmem
    rw [String.toList_intercalate] at hmem
    rcases Text.mem_intercalate hmem with hsep | ⟨l, hl, hmem⟩
    · cases hsep
    · obtain ⟨field, hfield, rfl⟩ := List.mem_map.mp hl
      apply h field hfield hmem
  intro spec hspec
  simp only [specs, List.mem_cons, List.not_mem_nil, or_false] at hspec
  rcases hspec with rfl | rfl
  · apply hjoin
    intro field hfield
    apply hcomma field (List.mem_cons_of_mem _ hfield)
  · apply hjoin _ hcomma

/-- The text of `_ALWAYS_ENTRIES` denotes its changes. -/
theorem parse_alwaysEntries :
  AclSpec.parseList alwaysEntries.toList = some alwaysSpecs
  := by
  decide

/-- The texts of entries denote their changes, if every number can be one. -/
theorem AclEntry.parse_flatMap_specs (entries : List AclEntry) :
  ((entries.flatMap specs).map String.toList).mapM AclSpec.parse
    = if ∀ e ∈ entries, 0 ≤ e.numericId then
        some (entries.flatMap fun e => [e.toSpec false, e.toSpec true])
      else none
  := by
  induction entries with
  | nil => rfl
  | cons e entries ih =>
      rw [List.flatMap_cons, List.map_append, List.mapM_append, e.parse_specs, ih]
      simp only [List.forall_mem_cons]
      by_cases he : 0 ≤ e.numericId
      · by_cases hentries : ∀ e ∈ entries, 0 ≤ e.numericId
        · rw [if_pos he, if_pos hentries, if_pos ⟨he, hentries⟩]
          rfl
        · rw [if_pos he, if_neg hentries, if_neg fun h => hentries h.2]
          rfl
      · have hboth : ¬ (0 ≤ e.numericId ∧ ∀ e ∈ entries, 0 ≤ e.numericId) := fun h => he h.1
        rw [if_neg he, if_neg hboth]
        rfl

/-- The text of a rebuild denotes its changes, if every number in it can be one. -/
theorem SetfaclAcl.parse_specs (entries : List AclEntry) :
  AclSpec.parseList (",".intercalate (specs entries)).toList
    = if ∀ e ∈ entries, 0 ≤ e.numericId then some (aclSpecs entries) else none
  := by
  have hsplit : ((entries.flatMap AclEntry.specs).map String.toList).flatMap (fun l => l.splitOn ',')
      = (entries.flatMap AclEntry.specs).map String.toList := by
    apply Eq.trans _ (List.flatMap_singleton' _)
    apply List.flatMap_congr
    intro l hl
    obtain ⟨spec, hspec, rfl⟩ := List.mem_map.mp hl
    obtain ⟨e, -, hspec⟩ := List.mem_flatMap.mp hspec
    apply List.splitOn_eq_singleton (e.not_mem_specs spec hspec)
  have halways := parse_alwaysEntries
  rw [AclSpec.parseList] at halways
  have hlists : (",".intercalate (specs entries)).toList.splitOn ','
      = alwaysEntries.toList.splitOn ','
        ++ (entries.flatMap AclEntry.specs).map String.toList := by
    rw [String.toList_intercalate]
    apply Eq.trans (Text.splitOn_intercalate (by simp [specs]))
    rw [specs, List.map_cons, List.flatMap_cons, hsplit]
  rw [AclSpec.parseList, hlists, List.mapM_append, halways, AclEntry.parse_flatMap_specs]
  split
  all_goals rfl

/-! ### What a reset and a rebuild do -/

/-- What a command does to the lists of `path`, and what it prints, if it succeeds: the
commands as `SetfaclAcl` runs them. -/
def FileAcl.command (path : String) (acl : FileAcl) : List String → Option (String × FileAcl)
  | ["setfacl", "-b", p] => if p = path then some ("", acl.removeAll) else none
  | ["setfacl", "-b", "-R", p] => if p = path then some ("", acl.removeAll) else none
  | ["setfacl", "-m", specs, p] =>
      if p = path then
        (AclSpec.parseList specs.toList).bind fun specs =>
          (acl.modify false specs).map fun acl => ("", acl)
      else none
  | ["setfacl", "-R", "-m", specs, p] =>
      if p = path then
        (AclSpec.parseList specs.toList).bind fun specs =>
          (acl.modify true specs).map fun acl => ("", acl)
      else none
  | ["getfacl", "-n", "--absolute-names", "--omit-header", p] =>
      if p = path then some (String.ofList acl.text, acl) else none
  | _ => none

/-- The lists that `replace_all` makes. -/
def replacedFile (isDir : Bool) (entries : List AclEntry) : FileAcl :=
  { isDir := isDir
    access := replacedAcl entries
    default := if isDir then some (replacedAcl entries) else none
    default_isDir := by simp }

/-- Nothing is left but the three entries every file has. -/
def Bare (acl : FileAcl) : Prop :=
  acl.access.named = ∅ ∧ acl.default = none

theorem FileAcl.removeAll_bare (acl : FileAcl) :
  Bare acl.removeAll
  := ⟨rfl, rfl⟩

/-- The changes of a rebuild of one of the lists. -/
theorem SetfaclAcl.restrict_aclSpecs (entries : List AclEntry) (isDefault : Bool) :
  AclSpec.restrict isDefault (aclSpecs entries)
    = AclSpec.restrict isDefault alwaysSpecs ++ entries.map (AclEntry.toSpec isDefault)
  := by
  rw [aclSpecs, AclSpec.restrict, AclSpec.restrict, List.filter_append]
  congr 1
  induction entries with
  | nil => rfl
  | cons e entries ih =>
      rw [List.flatMap_cons, List.filter_append, ih, List.map_cons]
      cases isDefault
      all_goals rfl

/-- The named entries set do not depend on which of the lists they are set in. -/
theorem namedBy_toSpec (entries : List AclEntry) (isDefault : Bool) :
  Acl.namedBy ∅ (entries.map (AclEntry.toSpec isDefault)) = grants entries
  := by
  rw [grants, Acl.namedBy, Acl.namedBy, List.foldl_map, List.foldl_map]
  rfl

/-- A rebuild of a list without named entries makes it the one that the entries stand
for. -/
theorem Acl.modify_aclSpecs {acl : Acl} (h : acl.named = ∅) (entries : List AclEntry)
    (isDefault : Bool) :
  acl.modify (AclSpec.restrict isDefault (SetfaclAcl.aclSpecs entries)) = replacedAcl entries
  := by
  let base := acl.setAll (AclSpec.restrict isDefault alwaysSpecs)
  have hbase : base.userObj = Perm.all ∧ base.groupObj = Perm.none ∧ base.other = Perm.none
      ∧ base.mask = some Perm.all ∧ base.named = acl.named := by
    cases isDefault
    all_goals exact ⟨rfl, rfl, rfl, rfl, rfl⟩
  obtain ⟨huser, hgroup, hother, hmask, hnamed⟩ := hbase
  have hspecs : ∀ spec ∈ entries.map (AclEntry.toSpec isDefault),
      ∃ principal, spec.tag = .named principal := by
    intro spec hspec
    obtain ⟨e, -, rfl⟩ := List.mem_map.mp hspec
    use e.principal
    rfl
  have hany : (AclSpec.restrict isDefault alwaysSpecs).any
      (fun spec => spec.tag = .mask) = true := by
    cases isDefault
    all_goals rfl
  rw [SetfaclAcl.restrict_aclSpecs, modify, if_pos (by rw [List.any_append, hany]; rfl), setAll_append]
  obtain ⟨huser', hgroup', hother', hmask'⟩ := setAll_of_named hmask hspecs
  apply Acl.ext
  · apply huser'.trans huser
  · apply hgroup'.trans hgroup
  · apply hother'.trans hother
  · apply hmask'
  · rw [setAll_named]
    change namedBy base.named _ = _
    rw [hnamed, h, namedBy_toSpec]
    rfl

/-- A rebuild after a reset leaves exactly the entries it was given; on what is no
directory it succeeds only as part of a tree. -/
theorem FileAcl.modify_aclSpecs {acl : FileAcl} (h : Bare acl) (recursive : Bool)
    (entries : List AclEntry) :
  acl.modify recursive (SetfaclAcl.aclSpecs entries)
    = if acl.isDir ∨ recursive then some (replacedFile acl.isDir entries) else none
  := by
  have hne : AclSpec.restrict true (SetfaclAcl.aclSpecs entries) ≠ [] := by
    rw [SetfaclAcl.restrict_aclSpecs]
    apply List.append_ne_nil_of_left_ne_nil
    decide
  have haccess := Acl.modify_aclSpecs h.1 entries false
  rw [modify]
  split
  · rename_i hdir
    rw [if_pos (Or.inl hdir), hdir]
    apply congrArg some
    apply FileAcl.ext
    · rfl
    · apply haccess
    · simp only [modifyDir, h.2, haccess, if_neg hne]
      apply congrArg some
      apply Acl.modify_aclSpecs rfl
  · rename_i hdir
    simp only [hne, hdir, or_false, Bool.false_eq_true, false_or, haccess]
    rfl

/-- The reset of `path` leaves its lists bare. -/
theorem FileAcl.command_reset (path : String) (acl : FileAcl) (recursive : Bool) :
  acl.command path ("setfacl" :: SetfaclAcl.resetArgs path recursive) = some ("", acl.removeAll)
  := by
  cases recursive
  all_goals simp [SetfaclAcl.resetArgs, command]

/-- The rebuild of `path` after its reset. -/
theorem FileAcl.command_apply (path : String) {acl : FileAcl} (h : Bare acl)
    (entries : List AclEntry) (recursive : Bool) :
  acl.command path ("setfacl" :: SetfaclAcl.applyArgs path entries recursive)
    = if (∀ e ∈ entries, 0 ≤ e.numericId) ∧ (acl.isDir ∨ recursive) then
        some ("", replacedFile acl.isDir entries)
      else none
  := by
  have hcommand : acl.command path ("setfacl" :: SetfaclAcl.applyArgs path entries recursive)
      = (AclSpec.parseList (",".intercalate (SetfaclAcl.specs entries)).toList).bind fun specs =>
          (acl.modify recursive specs).map fun acl => ("", acl) := by
    cases recursive
    all_goals simp [SetfaclAcl.applyArgs, command]
  rw [hcommand, SetfaclAcl.parse_specs]
  by_cases hids : ∀ e ∈ entries, 0 ≤ e.numericId
  · rw [if_pos hids, Option.bind_some, modify_aclSpecs h]
    by_cases hdir : acl.isDir ∨ recursive
    · rw [if_pos hdir, if_pos ⟨hids, hdir⟩]
      rfl
    · rw [if_neg hdir, if_neg fun h => hdir h.2]
      rfl
  · rw [if_neg hids, if_neg fun h => hids h.1]
    rfl

/-! ### Replacing the permissions of a path alone -/

/-- Run a command alone; one that fails leaves the lists as they are. -/
def FileAcl.answer (path : String) (file : FileAcl) : (op : AclOp) → op.Answer × FileAcl
  | .run argv =>
      match file.command path argv with
      | some (out, file') => (.ok ⟨0, out, ""⟩, file')
      | none => (.ok ⟨1, "", ""⟩, file)
  | .acquire _ => ((), file)
  | .release _ => ((), file)

/-- A command that succeeds, run alone. -/
theorem SetfaclAcl.execute_run {path : String} {file file' : FileAcl} {args : List String}
    {out : String} (h : file.command path ("setfacl" :: args) = some (out, file')) :
  (run args).run.execute (FileAcl.answer path) file = (.ok (), file')
  := by
  have hanswer : file.answer path (.run ("setfacl" :: args)) = (.ok ⟨0, out, ""⟩, file') := by
    simp only [FileAcl.answer, h]
  change Coroutine.execute _ (.await (AclOp.run ("setfacl" :: args)) _) _ = _
  rw [Coroutine.execute_await, hanswer]
  rfl

/-- Replacing the permissions of a directory, or of a path as part of a tree. -/
theorem SetfaclAcl.execute_replaceAll (path : String) (file : FileAcl) {entries : List AclEntry}
    (hids : ∀ e ∈ entries, 0 ≤ e.numericId) {recursive : Bool} (hdir : file.isDir ∨ recursive) :
  (replaceAll path entries recursive).run.execute (FileAcl.answer path) file
    = (.ok (), replacedFile file.isDir entries)
  := by
  have hreset := execute_run (file.command_reset path recursive)
  have hcommand := FileAcl.command_apply path file.removeAll_bare entries recursive
  rw [if_pos ⟨hids, hdir⟩] at hcommand
  rw [replaceAll, ExceptT.run_bind, Coroutine.execute_bind, hreset]
  apply execute_run hcommand

/-- A command that fails, run alone. -/
theorem SetfaclAcl.execute_run_of_none {path : String} {file : FileAcl} {args : List String}
    (h : file.command path ("setfacl" :: args) = none) :
  ∃ e, (run args).run.execute (FileAcl.answer path) file = (.error e, file)
  := by
  have hanswer : file.answer path (.run ("setfacl" :: args)) = (.ok ⟨1, "", ""⟩, file) := by
    simp only [FileAcl.answer, h]
  use .adapterError ("".strip.orElse ("setfacl " ++ " ".intercalate args ++ " failed"))
  change Coroutine.execute _ (.await (AclOp.run ("setfacl" :: args)) _) _ = _
  rw [Coroutine.execute_await, hanswer]
  rfl

/-- What a replacement that succeeds leaves. -/
theorem SetfaclAcl.of_execute_replaceAll {path : String} {file file' : FileAcl}
    {entries : List AclEntry} {recursive : Bool}
    (h : (replaceAll path entries recursive).run.execute (FileAcl.answer path) file
      = (.ok (), file')) :
  file' = replacedFile file.isDir entries
  := by
  have hreset := execute_run (file.command_reset path recursive)
  have hcommand := FileAcl.command_apply path file.removeAll_bare entries recursive
  rw [replaceAll, ExceptT.run_bind, Coroutine.execute_bind, hreset] at h
  change (run (applyArgs path entries recursive)).run.execute _ _ = _ at h
  split at hcommand
  · rw [execute_run hcommand] at h
    cases h
    rfl
  · obtain ⟨e, he⟩ := execute_run_of_none hcommand
    rw [he] at h
    cases h

/-! ### What a replacement awaits -/

/-- A command whose last argument is a path. -/
def AclOp.Concerns (path : String) : AclOp → Prop
  | .run argv => argv.getLast? = some path
  | _ => False

/-- Running a command awaits nothing else. -/
theorem SetfaclAcl.awaits_run {path : String} {args : List String}
    (h : ("setfacl" :: args).getLast? = some path) :
  (run args).run.Awaits (AclOp.Concerns path)
  := by
  apply Coroutine.awaits_exceptT_bind
  · use h
    intro r
    trivial
  · intro result
    apply Async.awaits_raiseIf

/-- Replacing the permissions of a path alone awaits commands on it. -/
theorem SetfaclAcl.awaits_replaceAll (path : String) (entries : List AclEntry) :
  (replaceAll path entries false).run.Awaits (AclOp.Concerns path)
  := by
  apply Coroutine.awaits_exceptT_bind
  · apply awaits_run rfl
  · intro _
    apply awaits_run rfl
