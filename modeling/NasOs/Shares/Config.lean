import NasOs.Library.SmbConf
import NasOs.System.Acl
import NasOs.Users.Requests

/-!
# The configuration of shares

`render_nasos_conf` writes the shares and their permissions as a file that Samba includes.  The template
splices names in as they are.

Reading the file gives back the shares if and only if every name of a share is one that the header of
a section can have (`readNasosConf_renderNasosConf_iff`).  The API takes any name, although a pattern
for names of shares is declared that would rule the others out.
-/

/-! ### The tables -/

/-- A row of the `shares` table. -/
structure Share where
  id : ℤ
  name : String
  volumeId : ℤ
  path : String
  description : Option String
  smbEnabled : Bool
  deriving DecidableEq

/-- A row of the `share_permissions` table. -/
structure SharePermission where
  shareId : ℤ
  principalType : PrincipalKind
  principal : String
  level : AclLevel
  deriving DecidableEq

/-! ### What is rendered -/

/-- `__version__`. -/
def nasosVersion : String :=
  "0.1.0"

/-- `ShareSambaView`. -/
structure ShareSambaView where
  name : String
  path : String
  validUsers : List String
  readList : List String
  writeList : List String
  deriving DecidableEq

/-- `_principal_ref`. -/
def principalRef : PrincipalKind → String → String
  | .group, name => "@" ++ name
  | .user, name => name

/-- How a permission refers to its principal. -/
def SharePermission.ref (p : SharePermission) : String :=
  principalRef p.principalType p.principal

/-- `build_share_view`. -/
def buildShareView (share : Share) (permissions : List SharePermission) : ShareSambaView where
  name := share.name
  path := share.path
  validUsers := permissions.map SharePermission.ref
  readList := (permissions.filter fun p => p.level = .ro).map SharePermission.ref
  writeList := (permissions.filter fun p => p.level = .rw).map SharePermission.ref

/-! ### The template -/

/-- A line of the template that is written if the list in it is not empty. -/
def directive (key : String) (names : List String) : List String :=
  if names = [] then [] else ["    " ++ key ++ " = " ++ ", ".intercalate names]

/-- The lines of a share. -/
def ShareSambaView.lines (share : ShareSambaView) : List String :=
  ["[" ++ share.name ++ "]", "    path = " ++ share.path]
    ++ directive "valid users" share.validUsers
    ++ directive "read list" share.readList
    ++ directive "write list" share.writeList
    ++ ["    inherit acls = yes", "    create mask = 0777", "    directory mask = 0777",
      "    browseable = yes", "    guest ok = no", ""]

/-- The comment at the top of the file. -/
def nasosConfHeader : String :=
  "# Generated by NAS-OS " ++ nasosVersion ++ ". DO NOT EDIT; "
    ++ "manage shares from Control Panel -> Shared Folders."

/-- The lines of the file. -/
def nasosConfLines (shares : List ShareSambaView) : List String :=
  nasosConfHeader :: "" :: shares.flatMap ShareSambaView.lines

/-- `render_nasos_conf`. -/
def renderNasosConf (shares : List ShareSambaView) : String :=
  String.join ((nasosConfLines shares).map fun line => line ++ "\n")

example :
    renderNasosConf
        [buildShareView ⟨1, "media", 1, "/volume1/media", none, true⟩
          [⟨1, .user, "alice", .rw⟩, ⟨1, .user, "bob", .ro⟩, ⟨1, .group, "family", .ro⟩]]
      = "# Generated by NAS-OS 0.1.0. DO NOT EDIT; manage shares from Control Panel -> Shared Folders.\n"
        ++ "\n[media]\n    path = /volume1/media\n    valid users = alice, bob, @family\n"
        ++ "    read list = bob, @family\n    write list = alice\n    inherit acls = yes\n"
        ++ "    create mask = 0777\n    directory mask = 0777\n    browseable = yes\n"
        ++ "    guest ok = no\n\n" := by
  decide +kernel

/-! ### Reading the file back -/

/-- The parameter of a list that is not empty. -/
def listParam (key : String) (names : List String) : List (String × String) :=
  if names = [] then [] else [(key, ", ".intercalate names)]

/-- The parameters of a share. -/
def ShareSambaView.params (share : ShareSambaView) : List (String × String) :=
  [("path", share.path)]
    ++ listParam "valid users" share.validUsers
    ++ listParam "read list" share.readList
    ++ listParam "write list" share.writeList
    ++ [("inherit acls", "yes"), ("create mask", "0777"), ("directory mask", "0777"),
      ("browseable", "yes"), ("guest ok", "no")]

/-- A key and a value as they are read. -/
def paramText (p : String × String) : List Char × List Char :=
  (p.1.toList, p.2.toList)

/-- The section that says what a share is, and nothing else. -/
def ShareSambaView.toSection (share : ShareSambaView) : SmbConf.Section where
  name := share.name.toList
  params := share.params.map paramText

/-- The names in the value of a list. -/
def readNames (value : List Char) : List String :=
  (value.splitOn ',').map fun name => String.ofList (SmbConf.trim name)

/-- The names in the list that a section has under a key. -/
def namesUnder (s : SmbConf.Section) (key : String) : List String :=
  ((s.params.lookup key.toList).map readNames).getD []

/-- The share that a section says, if it says nothing else. -/
def readShare (s : SmbConf.Section) : Option ShareSambaView :=
  let share : ShareSambaView :=
    { name := String.ofList s.name
      path := String.ofList ((s.params.lookup "path".toList).getD [])
      validUsers := namesUnder s "valid users"
      readList := namesUnder s "read list"
      writeList := namesUnder s "write list" }
  if share.toSection = s then some share else none

/-- The shares that a file says, in their order, if it says nothing else. -/
def readNasosConf (text : String) : Option (List ShareSambaView) :=
  (SmbConf.read text.toList).bind fun file =>
    if file.params = [] then file.sections.mapM readShare else none

/-! ### What is read back of one share -/

/-- The value of a parameter that is read as it was written. -/
def CleanValue (value : String) : Prop :=
  SmbConf.trim value.toList = value.toList ∧ '\n' ∉ value.toList

instance (value : String) : Decidable (CleanValue value) :=
  inferInstanceAs (Decidable (_ ∧ _))

/-- A name that can stand in a list. -/
def IsListName (name : String) : Prop :=
  name.toList ≠ [] ∧ ∀ c ∈ name.toList, SmbConf.isBlank c = false ∧ c ≠ ','

/-- The file of a share can be read back up to its name. -/
structure ShareSambaView.Sound (share : ShareSambaView) : Prop where
  path : SmbConf.IsName share.name.toList → CleanValue share.path
  names : ∀ name ∈ share.validUsers ++ share.readList ++ share.writeList, IsListName name

/-- What comes after the first of the names in a list. -/
def otherNames (names : List String) : List Char :=
  names.flatMap fun name => ',' :: ' ' :: name.toList

/-- The text of a list of names. -/
theorem toList_intercalate_cons (name : String) (names : List String) :
  (", ".intercalate (name :: names)).toList = name.toList ++ otherNames names
  := by
  rw [String.toList_intercalate]
  induction names generalizing name with
  | nil => simp [otherNames]
  | cons name' names ih =>
      rw [List.map_cons, List.map_cons, List.intercalate_cons_of_ne_nil (by simp), ← List.map_cons, ih]
      simp [otherNames]

/-- The text of a list of names is split into the names, with a blank before each but the first. -/
theorem splitOn_otherNames {first : List Char} (hfirst : ',' ∉ first) {names : List String}
    (h : ∀ name ∈ names, ',' ∉ name.toList) :
  (first ++ otherNames names).splitOn ',' = first :: names.map fun name => ' ' :: name.toList
  := by
  induction names generalizing first with
  | nil => simp [otherNames, List.splitOn_eq_singleton hfirst]
  | cons name names ih =>
      have hname : ',' ∉ ' ' :: name.toList := by
        rw [List.mem_cons]
        rintro (hblank | hmem)
        · cases hblank
        · apply h name List.mem_cons_self hmem
      have hrest := ih hname fun name' h' => h name' (List.mem_cons_of_mem _ h')
      have htext : first ++ otherNames (name :: names)
          = first ++ ',' :: (' ' :: name.toList ++ otherNames names) := by
        simp [otherNames]
      rw [htext, List.splitOn_append_cons_of_beq _ _ (beq_self_eq_true ','), hrest,
        List.splitOn_eq_singleton hfirst]
      rfl

/-- Nothing is trimmed of a name in a list. -/
theorem IsListName.trim {name : String} (h : IsListName name) :
  SmbConf.trim name.toList = name.toList
  := by
  apply SmbConf.trim_eq_self
  · intro c hc
    apply (h.2 c (List.mem_of_mem_head? hc)).1
  · intro c hc
    apply (h.2 c (List.mem_of_getLast? hc)).1

/-- The value of a list of names is read as the names. -/
theorem readNames_intercalate {names : List String} (hne : names ≠ [])
    (h : ∀ name ∈ names, IsListName name) :
  readNames (", ".intercalate names).toList = names
  := by
  obtain ⟨name, names, rfl⟩ := List.exists_cons_of_ne_nil hne
  have hcomma : ∀ name' ∈ name :: names, ',' ∉ name'.toList := fun name' h' hmem =>
    ((h name' h').2 ',' hmem).2 rfl
  have htrim : ∀ name' ∈ names, String.ofList (SmbConf.trim (' ' :: name'.toList)) = name' := by
    intro name' h'
    have hblank : SmbConf.trim ([' '] ++ name'.toList) = _ :=
      SmbConf.trim_append (List.forall_iff_forall_mem.mp (by decide)) _
    rw [← List.singleton_append, hblank, (h name' (List.mem_cons_of_mem _ h')).trim,
      String.ofList_toList]
  rw [readNames, toList_intercalate_cons,
    splitOn_otherNames (hcomma name List.mem_cons_self) fun name' h' =>
      hcomma name' (List.mem_cons_of_mem _ h'),
    List.map_cons, (h name List.mem_cons_self).trim, String.ofList_toList, List.map_map]
  congr 1
  apply Eq.trans (List.map_congr_left htrim) (List.map_id names)

/-- The text of a list of names ends with a character of its last name. -/
theorem getLast?_otherNames {name : String} {names : List String}
    (h : ∀ name' ∈ name :: names, IsListName name') :
  ∀ c ∈ (name.toList ++ otherNames names).getLast?, SmbConf.isBlank c = false
  := by
  induction names generalizing name with
  | nil =>
      intro c hc
      rw [otherNames, List.flatMap_nil, List.append_nil] at hc
      apply ((h name List.mem_cons_self).2 c (List.mem_of_getLast? hc)).1
  | cons name' names ih =>
      intro c hc
      have htext : name.toList ++ otherNames (name' :: names)
          = name.toList ++ [',', ' '] ++ (name'.toList ++ otherNames names) := by
        simp [otherNames]
      have hne : name'.toList ++ otherNames names ≠ [] :=
        List.append_ne_nil_of_left_ne_nil (h name' (by simp)).1 _
      rw [htext, List.getLast?_append_of_ne_nil _ hne] at hc
      apply ih (fun name'' h' => h name'' (List.mem_cons_of_mem _ h')) c hc

/-- The value of a list of names is read as it was written. -/
theorem cleanValue_intercalate {names : List String} (hne : names ≠ [])
    (h : ∀ name ∈ names, IsListName name) :
  CleanValue (", ".intercalate names)
  := by
  obtain ⟨name, names, rfl⟩ := List.exists_cons_of_ne_nil hne
  rw [CleanValue, toList_intercalate_cons]
  constructor
  · apply SmbConf.trim_eq_self
    · intro c hc
      obtain ⟨d, rest, hname⟩ := List.exists_cons_of_ne_nil (h name List.mem_cons_self).1
      rw [hname] at hc
      cases hc
      apply ((h name List.mem_cons_self).2 _ (by rw [hname]; apply List.mem_cons_self)).1
    · apply getLast?_otherNames h
  · rw [List.mem_append, otherNames, List.mem_flatMap]
    rintro (hmem | ⟨name', h', hmem⟩)
    · cases ((h name List.mem_cons_self).2 _ hmem).1
    · rcases List.mem_cons.mp hmem with hcomma | hmem
      · cases hcomma
      · rcases List.mem_cons.mp hmem with hblank | hmem
        · cases hblank
        · cases ((h name' (List.mem_cons_of_mem _ h')).2 _ hmem).1

/-- What a share's list has in its section. -/
theorem mem_listParam {key : String} {names : List String} {p : String × String}
    (h : p ∈ listParam key names) :
  p = (key, ", ".intercalate names) ∧ names ≠ []
  := by
  rw [listParam] at h
  split at h
  · cases h
  · rename_i hne
    exact ⟨List.mem_singleton.mp h, hne⟩

/-- The parameters of a share have keys that can be read, and values that are read as they were
written. -/
theorem ShareSambaView.Sound.params {share : ShareSambaView} (h : share.Sound)
    (hname : SmbConf.IsName share.name.toList) :
  ∀ p ∈ share.params, SmbConf.IsKey p.1.toList ∧ '\n' ∉ p.1.toList ∧ CleanValue p.2
  := by
  have hlist : ∀ {key : String} {names : List String} {p : String × String},
      (∀ name ∈ names, IsListName name) → SmbConf.IsKey key.toList → '\n' ∉ key.toList →
      p ∈ listParam key names → SmbConf.IsKey p.1.toList ∧ '\n' ∉ p.1.toList ∧ CleanValue p.2 := by
    intro key names p hnames hkey hno hp
    obtain ⟨rfl, hne⟩ := mem_listParam hp
    exact ⟨hkey, hno, cleanValue_intercalate hne hnames⟩
  intro p hp
  simp only [ShareSambaView.params, List.mem_append, or_assoc] at hp
  rcases hp with hp | hp | hp | hp | hp
  · have hkey : SmbConf.IsKey "path".toList ∧ '\n' ∉ "path".toList := by decide
    rw [List.mem_singleton.mp hp]
    exact ⟨hkey.1, hkey.2, h.path hname⟩
  · apply hlist (fun name hmem => h.names name (by simp [hmem])) (by decide) (by decide) hp
  · apply hlist (fun name hmem => h.names name (by simp [hmem])) (by decide) (by decide) hp
  · apply hlist (fun name hmem => h.names name (by simp [hmem])) (by decide) (by decide) hp
  · simp only [List.mem_cons, List.not_mem_nil, or_false] at hp
    rcases hp with rfl | rfl | rfl | rfl | rfl
    all_goals decide

/-- The line of a parameter. -/
def paramLine (p : String × String) : String :=
  "    " ++ p.1 ++ " = " ++ p.2

/-- The lines of a share are its header, its parameters, and a blank line. -/
theorem ShareSambaView.lines_eq (share : ShareSambaView) :
  share.lines = ("[" ++ share.name ++ "]") :: share.params.map paramLine ++ [""]
  := by
  have hlist : ∀ (key : String) (names : List String),
      directive key names = (listParam key names).map paramLine := by
    intro key names
    rw [directive, listParam]
    split
    all_goals rfl
  simp only [lines, params, List.map_append, hlist]
  simp [paramLine]

/-- The lines of a share say its section. -/
theorem ShareSambaView.Sound.parse_lines {share : ShareSambaView} (h : share.Sound)
    (hname : SmbConf.IsName share.name.toList) :
  (share.lines.map String.toList).map SmbConf.Line.parse = share.toSection.lines.map some
  := by
  have hheader : SmbConf.Line.parse ("[" ++ share.name ++ "]").toList
      = some (.header share.name.toList) := by
    have htext : ("[" ++ share.name ++ "]").toList = '[' :: (share.name.toList ++ [']']) := by
      simp
    rw [htext, SmbConf.parse_header hname]
  have hparam : ∀ p ∈ share.params,
      SmbConf.Line.parse (paramLine p).toList = some (.param p.1.toList p.2.toList) := by
    intro p hp
    obtain ⟨hkey, -, hvalue, -⟩ := h.params hname p hp
    have htext : (paramLine p).toList
        = "    ".toList ++ (p.1.toList ++ " = ".toList ++ p.2.toList) := by
      simp [paramLine]
    rw [htext, SmbConf.parse_param (List.forall_iff_forall_mem.mp (by decide)) hkey, hvalue]
  rw [share.lines_eq, SmbConf.Section.lines, toSection]
  simp only [List.map_append, List.map_cons, List.map_map, hheader, List.map_nil]
  congr 2
  apply List.map_congr_left hparam

/-- The lines of a share have no newlines in them. -/
theorem ShareSambaView.Sound.not_mem_lines {share : ShareSambaView} (h : share.Sound)
    (hname : SmbConf.IsName share.name.toList) :
  ∀ line ∈ share.lines, '\n' ∉ line.toList
  := by
  intro line hline
  rw [share.lines_eq, List.mem_append, List.mem_cons, List.mem_map, List.mem_singleton] at hline
  rcases hline with (rfl | ⟨p, hp, rfl⟩) | rfl
  · simpa using hname.2.2.2
  · obtain ⟨-, hkey, -, hvalue⟩ := h.params hname p hp
    simp [paramLine, hkey, hvalue]
  · decide

/-- What parameters have under a key. -/
theorem lookup_map_paramText (params : List (String × String)) (key : String) :
  (params.map paramText).lookup key.toList = (params.lookup key).map String.toList
  := by
  induction params with
  | nil => rfl
  | cons p params ih =>
      have hkeys : (key.toList == p.1.toList) = (key == p.1) := by
        rw [Bool.eq_iff_iff, beq_iff_eq, beq_iff_eq, String.toList_inj]
      rw [List.map_cons, paramText, List.lookup_cons, List.lookup_cons, hkeys, ih]
      cases key == p.1
      all_goals rfl

/-- What the parameter of a list has under a key. -/
theorem lookup_listParam (key key' : String) (names : List String) :
  (listParam key names).lookup key'
    = if key' = key ∧ names ≠ [] then some (", ".intercalate names) else none
  := by
  rw [listParam]
  split
  · rename_i hnil
    simp [hnil]
  · rename_i hne
    by_cases hkey : key' = key
    · simp [hkey, hne]
    · rw [List.lookup_cons, beq_eq_false_iff_ne.mpr hkey, if_neg fun h => hkey h.1]
      rfl

/-- The lists of a share are read back from its section. -/
theorem ShareSambaView.Sound.namesUnder_toSection {share : ShareSambaView} (h : share.Sound) :
  namesUnder share.toSection "valid users" = share.validUsers
    ∧ namesUnder share.toSection "read list" = share.readList
    ∧ namesUnder share.toSection "write list" = share.writeList
  := by
  have hnames : ∀ names : List String, (∀ name ∈ names, IsListName name) →
      ((if names = [] then none else some (", ".intercalate names)).map
        (readNames ∘ String.toList)).getD [] = names := by
    intro names hnames
    split
    · rename_i hnil
      rw [hnil]
      rfl
    · rename_i hne
      apply readNames_intercalate hne hnames
  simp only [namesUnder, toSection, lookup_map_paramText, ShareSambaView.params, List.lookup_append,
    lookup_listParam, Option.map_map]
  refine ⟨?_, ?_, ?_⟩
  · apply Eq.trans _ (hnames _ fun name hmem => h.names name (by simp [hmem]))
    simp [List.lookup_cons]
  · apply Eq.trans _ (hnames _ fun name hmem => h.names name (by simp [hmem]))
    simp [List.lookup_cons]
  · apply Eq.trans _ (hnames _ fun name hmem => h.names name (by simp [hmem]))
    simp [List.lookup_cons]

/-- The section of a share is read as the share. -/
theorem ShareSambaView.Sound.readShare_toSection {share : ShareSambaView} (h : share.Sound) :
  readShare share.toSection = some share
  := by
  obtain ⟨hvalid, hread, hwrite⟩ := h.namesUnder_toSection
  have hpath : share.toSection.params.lookup "path".toList = some share.path.toList := by
    simp only [toSection, lookup_map_paramText, ShareSambaView.params]
    simp
  have hname : String.ofList share.toSection.name = share.name := String.ofList_toList
  simp only [readShare, hpath, hvalid, hread, hwrite, hname, Option.getD_some, String.ofList_toList]
  rw [if_pos trivial]

/-- A section is read as a share only if the share says the section. -/
theorem toSection_of_readShare {s : SmbConf.Section} {share : ShareSambaView}
    (h : readShare s = some share) :
  share.toSection = s
  := by
  simp only [readShare] at h
  split at h
  · rename_i heq
    cases h
    apply heq
  · cases h

/-! ### What is read back of a file -/

/-- The text of a file is its lines, each ended by a newline. -/
theorem toList_renderNasosConf (shares : List ShareSambaView) :
  (renderNasosConf shares).toList
    = ((nasosConfLines shares).map String.toList).flatMap fun line => line ++ ['\n']
  := by
  simp [renderNasosConf, List.flatMap_map]

/-- A file of shares whose names can be read says the sections of the shares. -/
theorem read_renderNasosConf {shares : List ShareSambaView} (h : ∀ share ∈ shares, share.Sound)
    (hnames : ∀ share ∈ shares, SmbConf.IsName share.name.toList) :
  SmbConf.read (renderNasosConf shares).toList = some ⟨[], shares.map ShareSambaView.toSection⟩
  := by
  have hparse : ((nasosConfLines shares).map String.toList).map SmbConf.Line.parse
      = (.skip :: .skip :: (shares.map ShareSambaView.toSection).flatMap SmbConf.Section.lines).map
          some := by
    have hheader : SmbConf.Line.parse nasosConfHeader.toList = some .skip := by
      rfl
    have hblank : SmbConf.Line.parse "".toList = some .skip := rfl
    simp only [nasosConfLines, List.map_cons, hheader, hblank]
    congr 2
    rw [List.map_flatMap, List.map_flatMap, List.flatMap_map, List.map_flatMap]
    apply List.flatMap_congr
    intro share hshare
    apply (h share hshare).parse_lines (hnames share hshare)
  have hno : ∀ text ∈ (nasosConfLines shares).map String.toList, '\n' ∉ text := by
    intro text htext
    obtain ⟨line, hline, rfl⟩ := List.mem_map.mp htext
    rcases List.mem_cons.mp hline with rfl | hline
    · decide
    rcases List.mem_cons.mp hline with rfl | hline
    · decide
    obtain ⟨share, hshare, hline⟩ := List.mem_flatMap.mp hline
    apply (h share hshare).not_mem_lines (hnames share hshare) line hline
  rw [toList_renderNasosConf, SmbConf.read_flatMap hno hparse]
  simp only [SmbConf.ofLines_cons, SmbConf.ofLines_sections, SmbConf.File.after]

/-- A file is read back as the shares it was made of if and only if their names can be read. -/
theorem readNasosConf_iff_isName {shares : List ShareSambaView} (h : ∀ share ∈ shares, share.Sound) :
  readNasosConf (renderNasosConf shares) = some shares
    ↔ ∀ share ∈ shares, SmbConf.IsName share.name.toList
  := by
  constructor
  · intro hread share hshare
    obtain ⟨file, hfile, hread⟩ := Option.bind_eq_some_iff.mp hread
    split at hread
    · obtain ⟨s, hs, hread⟩ := List.exists_of_mem_forall₂ (List.mapM_option_eq_some_iff.mp hread) hshare
      have hname := SmbConf.isName_of_read hfile s hs
      rw [← toSection_of_readShare hread] at hname
      apply hname
    · cases hread
  · intro hnames
    rw [readNasosConf, read_renderNasosConf h hnames, Option.bind_some, if_pos rfl,
      List.mapM_option_eq_some_iff, List.forall₂_map_left_iff, List.forall₂_same]
    intro share hshare
    apply (h share hshare).readShare_toSection

/-! ### The shares of the database -/

/-- A share of the database with its permissions: its path is made of its name and of the mount point
of a volume, which `/proc/mounts` has as one of the words of a line, and its permissions are for
accounts and groups.  Requests write such rows (`SharesWorld.Stored`). -/
structure StoredShare where
  share : Share
  permissions : List SharePermission
  mountpoint : String
  path_eq : share.path = mountpoint ++ "/" ++ share.name
  isSpace_mountpoint : ∀ c ∈ mountpoint.toList, Text.isSpace c = false
  principals : ∀ p ∈ permissions, p.shareId = share.id ∧ usernameRe p.principal.toList = true

/-- What the template gets of a share. -/
def StoredShare.view (s : StoredShare) : ShareSambaView :=
  buildShareView s.share s.permissions

/-- Blanks are whitespace. -/
theorem isSpace_of_isBlank {c : Char} (h : SmbConf.isBlank c = true) :
  Text.isSpace c = true
  := by
  simp only [SmbConf.isBlank, Bool.or_eq_true, Bool.and_eq_true, beq_iff_eq, decide_eq_true_eq] at h
  simp only [Text.isSpace, Bool.or_eq_true, Bool.and_eq_true, beq_iff_eq, decide_eq_true_eq]
  rcases h with h | h
  · rw [h]
    decide
  · simp [h]

/-- The characters of names of accounts are not blank. -/
theorem not_isBlank_of_isAlphanum {c : Char}
    (h : (c.isAlphanum || c == '_' || c == '-') = true) :
  SmbConf.isBlank c = false
  := by
  simp only [Bool.or_eq_true, beq_iff_eq] at h
  rcases h with (h | rfl) | rfl
  · delta Char.isAlphanum Char.isAlpha Char.isUpper Char.isLower Char.isDigit at h
    simp only [Bool.or_eq_true, Bool.and_eq_true, decide_eq_true_eq, ge_iff_le, UInt32.le_iff_toNat_le] at h
    simp only [SmbConf.isBlank, Bool.or_eq_false_iff, Bool.and_eq_false_iff, beq_eq_false_iff_ne, ne_eq,
      decide_eq_false_iff_not, UInt32.le_iff_toNat_le, ← UInt32.toNat_inj]
    have hbounds : 'A'.val.toNat = 65 ∧ 'a'.val.toNat = 97 ∧ '0'.val.toNat = 48 := by decide
    simp only [UInt32.reduceToNat] at h ⊢
    omega
  · rfl
  · rfl

/-- The name of an account is not empty, and has neither blanks nor commas in it. -/
theorem isListName_of_usernameRe {name : String} (h : usernameRe name.toList = true) :
  IsListName name
  := by
  have hchar : ∀ c : Char, (c.isLower || c.isDigit || c == '_' || c == '-') = true →
      SmbConf.isBlank c = false ∧ c ≠ ',' := by
    intro c hc
    constructor
    · apply not_isBlank_of_isAlphanum
      delta Char.isAlphanum Char.isAlpha
      simp only [Bool.or_eq_true] at hc ⊢
      tauto
    · rintro rfl
      cases hc
  cases hl : name.toList with
  | nil =>
      rw [hl] at h
      cases h
  | cons c l =>
      rw [hl, usernameRe, Bool.and_eq_true, Bool.and_eq_true, List.all_eq_true] at h
      rw [IsListName, hl]
      constructor
      · apply List.cons_ne_nil
      · intro d hd
        apply hchar
        rcases List.mem_cons.mp hd with rfl | hd
        · have hfirst := h.1.1
          rw [Bool.or_eq_true] at hfirst
          rcases hfirst with hfirst | hfirst
          all_goals simp [hfirst]
        · apply h.2 d hd

/-- How a permission refers to an account is a name that can stand in a list. -/
theorem isListName_ref {p : SharePermission} (h : usernameRe p.principal.toList = true) :
  IsListName p.ref
  := by
  have hname := isListName_of_usernameRe h
  rw [SharePermission.ref]
  cases p.principalType with
  | user => apply hname
  | group =>
      rw [principalRef, IsListName, String.toList_append]
      constructor
      · simp
      · intro c hc
        rcases List.mem_append.mp hc with hc | hc
        · have hat : c = '@' := by simpa using hc
          rw [hat]
          decide
        · apply hname.2 c hc

/-- The path of a share whose name can be read is read as it was written. -/
theorem StoredShare.cleanValue_path (s : StoredShare) (h : SmbConf.IsName s.share.name.toList) :
  CleanValue s.share.path
  := by
  have hblank : ∀ c ∈ s.mountpoint.toList, SmbConf.isBlank c = false := by
    intro c hc
    rw [Bool.eq_false_iff]
    intro hblank
    have hspace := s.isSpace_mountpoint c hc
    rw [isSpace_of_isBlank hblank] at hspace
    cases hspace
  obtain ⟨hne, htrim, -, hno⟩ := h
  have htext : s.share.path.toList = s.mountpoint.toList ++ '/' :: s.share.name.toList := by
    rw [s.path_eq]
    simp
  rw [CleanValue, htext]
  constructor
  · apply SmbConf.trim_eq_self
    · intro c hc
      cases hmount : s.mountpoint.toList with
      | nil =>
          rw [hmount] at hc
          cases hc
          rfl
      | cons d l =>
          rw [hmount] at hc
          cases hc
          apply hblank
          rw [hmount]
          apply List.mem_cons_self
    · intro c hc
      rw [List.getLast?_append_of_ne_nil _ (List.cons_ne_nil _ _), List.getLast?_cons_of_ne_nil hne] at hc
      apply SmbConf.getLast?_trim (l := s.share.name.toList)
      rw [htrim]
      apply hc
  · rw [List.mem_append, List.mem_cons]
    rintro (hmem | hslash | hmem)
    · cases hblank _ hmem
    · cases hslash
    · apply hno hmem

/-- What the API puts in the database about a share can be read back up to its name. -/
theorem StoredShare.sound (s : StoredShare) :
  s.view.Sound
  := by
  constructor
  · apply s.cleanValue_path
  · intro name hname
    have href : ∃ p ∈ s.permissions, p.ref = name := by
      simp only [view, buildShareView, List.mem_append, List.mem_map, List.mem_filter] at hname
      rcases hname with (⟨p, hp, hname⟩ | ⟨p, ⟨hp, -⟩, hname⟩) | ⟨p, ⟨hp, -⟩, hname⟩
      all_goals exact ⟨p, hp, hname⟩
    obtain ⟨p, hp, rfl⟩ := href
    apply isListName_ref (s.principals p hp).2

/-- For every list of shares of the database, the rendered file is read back as exactly the shares, in
their order and with their paths and lists, if and only if every name of a share is one that the header
of a section can have. -/
theorem readNasosConf_renderNasosConf_iff (shares : List StoredShare) :
  readNasosConf (renderNasosConf (shares.map StoredShare.view)) = some (shares.map StoredShare.view)
    ↔ ∀ s ∈ shares, SmbConf.IsName s.share.name.toList
  := by
  rw [readNasosConf_iff_isName, List.forall_mem_map]
  · rfl
  · rw [List.forall_mem_map]
    intro s _
    apply s.sound

/-- A share whose name has a closing bracket in it. -/
def bracketShare : StoredShare where
  share := ⟨1, "photos]2024", 1, "/volume1/photos]2024", none, true⟩
  permissions := []
  mountpoint := "/volume1"
  path_eq := by decide
  isSpace_mountpoint := List.forall_iff_forall_mem.mp (by decide)
  principals := by simp

/-- A share whose name has a closing bracket in it is read back under another name. -/
theorem not_readNasosConf_bracketShare :
  ¬ ∀ shares : List StoredShare,
    readNasosConf (renderNasosConf (shares.map StoredShare.view))
      = some (shares.map StoredShare.view)
  := by
  intro h
  have hnames := (readNasosConf_iff_isName (by simp [bracketShare.sound])).mp (h [bracketShare])
  have hname := hnames bracketShare.view (by simp)
  revert hname
  decide

/-- `SHARE_NAME_RE`: a letter or a digit, then at most 63 letters, digits, spaces, underscores and
hyphens.  Nothing checks it. -/
def shareNameRe : List Char → Bool
  | [] => false
  | c :: l =>
      c.isAlphanum && decide (l.length ≤ 63)
        && l.all fun c => c.isAlphanum || c == ' ' || c == '_' || c == '-'

/-- A name that matches the pattern is one that the header of a section can have, unless it ends with a
space. -/
theorem isName_of_shareNameRe {name : List Char} (h : shareNameRe name = true)
    (hlast : name.getLast? ≠ some ' ') :
  SmbConf.IsName name
  := by
  cases name with
  | nil => cases h
  | cons c l =>
      rw [shareNameRe, Bool.and_eq_true, Bool.and_eq_true, List.all_eq_true] at h
      obtain ⟨⟨hc, -⟩, hl⟩ := h
      have hchar : ∀ d ∈ c :: l, (d.isAlphanum || d == '_' || d == '-') = true ∨ d = ' ' := by
        intro d hd
        rcases List.mem_cons.mp hd with rfl | hd
        · left
          simp [hc]
        · have hd := hl d hd
          simp only [Bool.or_eq_true, beq_iff_eq] at hd ⊢
          tauto
      refine ⟨List.cons_ne_nil c l, ?_, fun hmem => ?_, fun hmem => ?_⟩
      · apply SmbConf.trim_eq_self
        · intro d hd
          cases hd
          apply not_isBlank_of_isAlphanum
          simp [hc]
        · intro d hd
          rcases hchar d (List.mem_of_getLast? hd) with hd' | rfl
          · apply not_isBlank_of_isAlphanum hd'
          · contradiction
      · rcases hchar _ hmem with hd | hd
        all_goals cases hd
      · rcases hchar _ hmem with hd | hd
        all_goals cases hd
