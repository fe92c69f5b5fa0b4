import NasOs.Shares.Config

/-!
# Who gets into a share

What the section of a share lets an account do: `valid users` restricts who may connect, and everyone
may when there is no such parameter; who is in `write list` may write.

Taking a permission away never lets anyone write who could not.  It lets nobody in who was not as long
as another permission stays (`SmbAccounts.revocation`).  The last permission takes the parameter away
with it, and a share without permissions is open to everyone who can log in.
-/

/-! ### What a section lets accounts do -/

/-- The accounts that can log in, and the members of the groups. -/
structure SmbAccounts where
  logins : List String
  members : String → List String

/-- An entry in a list of names means an account, or the members of a group. -/
def SmbAccounts.means (accounts : SmbAccounts) (entry login : String) : Bool :=
  match entry.toList with
  | '@' :: group => (accounts.members (String.ofList group)).contains login
  | _ => entry == login

/-- An account is meant by the value of a parameter. -/
def SmbAccounts.listed (accounts : SmbAccounts) (value : List Char) (login : String) : Bool :=
  (readNames value).any fun entry => accounts.means entry login

/-- The accounts that may connect to the share of a section. -/
def SmbAccounts.admitted (accounts : SmbAccounts) (s : SmbConf.Section) : List String :=
  accounts.logins.filter fun login =>
    (s.params.lookup "valid users".toList).all fun value => accounts.listed value login

/-- The accounts that may write to the share of a section. -/
def SmbAccounts.writers (accounts : SmbAccounts) (s : SmbConf.Section) : List String :=
  (accounts.admitted s).filter fun login =>
    (s.params.lookup "write list".toList).any fun value => accounts.listed value login

/-- The section of a share with its permissions. -/
def shareSection (share : Share) (permissions : List SharePermission) : SmbConf.Section :=
  (buildShareView share permissions).toSection

/-- The sections that are read in the file of the shares of the database are theirs, if their names can
be read. -/
theorem read_renderNasosConf_view {shares : List StoredShare}
    (hnames : ∀ s ∈ shares, SmbConf.IsName s.share.name.toList) :
  SmbConf.read (renderNasosConf (shares.map StoredShare.view)).toList
    = some ⟨[], shares.map fun s => shareSection s.share s.permissions⟩
  := by
  rw [read_renderNasosConf, List.map_map]
  · rfl
  · rw [List.forall_mem_map]
    intro s _
    apply s.sound
  · rw [List.forall_mem_map]
    apply hnames

/-! ### The names in a list -/

/-- The blank that the template puts before a name does not change how it is read. -/
theorem readNames_cons_blank (value : List Char) :
  readNames (' ' :: value) = readNames value
  := by
  have htrim : ∀ l : List Char, SmbConf.trim (' ' :: l) = SmbConf.trim l := by
    intro l
    have hblank : ∀ c ∈ [' '], SmbConf.isBlank c = true := by
      intro c hc
      rw [List.mem_singleton.mp hc]
      rfl
    apply SmbConf.trim_append hblank
  have hcomma : ¬ (' ' == ',') = true := by decide
  rw [readNames, readNames, List.splitOn_cons_eq_if_modifyHead, if_neg hcomma]
  cases hsplit : value.splitOn ',' with
  | nil => cases List.splitOn_ne_nil ',' value hsplit
  | cons first rest =>
      rw [List.modifyHead_cons, List.map_cons, List.map_cons, htrim]

/-- The entries in the value of a list are those of its names. -/
theorem readNames_intercalate_eq {names : List String} (hne : names ≠ []) :
  readNames (", ".intercalate names).toList = names.flatMap fun name => readNames name.toList
  := by
  obtain ⟨name, names, rfl⟩ := List.exists_cons_of_ne_nil hne
  rw [toList_intercalate_cons]
  induction names generalizing name with
  | nil => simp [otherNames]
  | cons name' names ih =>
      have htext : name.toList ++ otherNames (name' :: names)
          = name.toList ++ ',' :: (' ' :: (name'.toList ++ otherNames names)) := by
        simp [otherNames]
      rw [htext, List.flatMap_cons, ← ih _ (List.cons_ne_nil _ _),
        ← readNames_cons_blank (name'.toList ++ otherNames names), readNames,
        List.splitOn_append_cons_of_beq _ _ (beq_self_eq_true ','), List.map_append]
      rfl

/-- An account is meant by a permission. -/
def SmbAccounts.granted (accounts : SmbAccounts) (p : SharePermission) (login : String) : Bool :=
  accounts.listed p.ref.toList login

/-- An account is meant by the list of some permissions if it is meant by one of them. -/
theorem SmbAccounts.listed_intercalate (accounts : SmbAccounts) {permissions : List SharePermission}
    (hne : permissions ≠ []) (login : String) :
  accounts.listed (", ".intercalate (permissions.map SharePermission.ref)).toList login
    = permissions.any fun p => accounts.granted p login
  := by
  have hrefs : permissions.map SharePermission.ref ≠ [] := by
    simpa using hne
  rw [listed, readNames_intercalate_eq hrefs, List.any_flatMap, List.any_map]
  rfl

/-! ### What permissions let accounts do -/

/-- The list that the section of a share has under a key, for the permissions it is made of. -/
theorem lookup_listParam_ref (key : String) (permissions : List SharePermission) :
  (listParam key (permissions.map SharePermission.ref)).lookup key
    = if permissions = [] then none
      else some (", ".intercalate (permissions.map SharePermission.ref))
  := by
  rw [lookup_listParam]
  by_cases hnil : permissions = []
  · simp [hnil]
  · simp [hnil]

/-- The parameters of a share that say who may connect and who may write. -/
theorem lookup_shareSection (share : Share) (permissions : List SharePermission) :
  (shareSection share permissions).params.lookup "valid users".toList
      = ((listParam "valid users" (permissions.map SharePermission.ref)).lookup "valid users").map
        String.toList
    ∧ (shareSection share permissions).params.lookup "write list".toList
      = ((listParam "write list"
          ((permissions.filter fun p => p.level = .rw).map SharePermission.ref)).lookup
            "write list").map String.toList
  := by
  simp only [shareSection, ShareSambaView.toSection, lookup_map_paramText, ShareSambaView.params,
    buildShareView, List.lookup_append, lookup_listParam]
  constructor
  · simp [List.lookup_cons]
  · simp [List.lookup_cons]

/-- An account may connect if it can log in, and if one of the permissions means it or there is none. -/
theorem SmbAccounts.mem_admitted (accounts : SmbAccounts) (share : Share)
    (permissions : List SharePermission) (login : String) :
  login ∈ accounts.admitted (shareSection share permissions)
    ↔ login ∈ accounts.logins
      ∧ (permissions = [] ∨ ∃ p ∈ permissions, accounts.granted p login = true)
  := by
  rw [admitted, List.mem_filter, (lookup_shareSection share permissions).1, lookup_listParam_ref]
  by_cases hnil : permissions = []
  · simp [hnil]
  · rw [if_neg hnil, Option.map_some, Option.all_some, accounts.listed_intercalate hnil,
      List.any_eq_true]
    simp only [hnil, false_or]

/-- An account may write if it can log in, and if one of the permissions to write means it. -/
theorem SmbAccounts.mem_writers (accounts : SmbAccounts) (share : Share)
    (permissions : List SharePermission) (login : String) :
  login ∈ accounts.writers (shareSection share permissions)
    ↔ login ∈ accounts.logins
      ∧ ∃ p ∈ permissions, p.level = .rw ∧ accounts.granted p login = true
  := by
  rw [writers, List.mem_filter, accounts.mem_admitted, (lookup_shareSection share permissions).2,
    lookup_listParam_ref]
  split
  · rename_i hnil
    have hnone : ∀ p ∈ permissions, ¬ p.level = .rw := by
      simpa using hnil
    simp only [Option.map_none, Option.any_none, Bool.false_eq_true, and_false, false_iff]
    rintro ⟨-, p, hp, hlevel, -⟩
    apply hnone p hp hlevel
  · rename_i hne
    rw [Option.map_some, Option.any_some, accounts.listed_intercalate hne, List.any_eq_true]
    constructor
    · rintro ⟨⟨hlogin, -⟩, p, hp, hgranted⟩
      obtain ⟨hp, hlevel⟩ := List.mem_filter.mp hp
      exact ⟨hlogin, p, hp, of_decide_eq_true hlevel, hgranted⟩
    · rintro ⟨hlogin, p, hp, hlevel, hgranted⟩
      constructor
      · exact ⟨hlogin, Or.inr ⟨p, hp, hgranted⟩⟩
      · exact ⟨p, List.mem_filter.mpr ⟨hp, decide_eq_true hlevel⟩, hgranted⟩

/-! ### Taking permissions away -/

/-- Fewer permissions let no one write who could not. -/
theorem SmbAccounts.writers_subset (accounts : SmbAccounts) (share : Share)
    {permissions permissions' : List SharePermission} (h : permissions ⊆ permissions') :
  accounts.writers (shareSection share permissions)
    ⊆ accounts.writers (shareSection share permissions')
  := by
  intro login hlogin
  rw [accounts.mem_writers] at hlogin ⊢
  obtain ⟨hlogin, p, hp, hgranted⟩ := hlogin
  exact ⟨hlogin, p, h hp, hgranted⟩

/-- Fewer permissions let no one in who was not, as long as there are some. -/
theorem SmbAccounts.admitted_subset (accounts : SmbAccounts) (share : Share)
    {permissions permissions' : List SharePermission} (h : permissions ⊆ permissions')
    (hne : permissions ≠ []) :
  accounts.admitted (shareSection share permissions)
    ⊆ accounts.admitted (shareSection share permissions')
  := by
  intro login hlogin
  rw [accounts.mem_admitted] at hlogin ⊢
  obtain ⟨hlogin, hnil | ⟨p, hp, hgranted⟩⟩ := hlogin
  · contradiction
  · exact ⟨hlogin, Or.inr ⟨p, h hp, hgranted⟩⟩

/-- Taking a permission away never lets anyone write who could not.  It lets nobody in who was not if
and only if another permission stays, or the permission meant every account. -/
theorem SmbAccounts.revocation (accounts : SmbAccounts) (share : Share)
    (before after : List SharePermission) (p : SharePermission) :
  accounts.writers (shareSection share (before ++ after))
      ⊆ accounts.writers (shareSection share (before ++ p :: after))
    ∧ (accounts.admitted (shareSection share (before ++ after))
        ⊆ accounts.admitted (shareSection share (before ++ p :: after))
      ↔ before ++ after ≠ [] ∨ ∀ login ∈ accounts.logins, accounts.granted p login = true)
  := by
  have hfewer : before ++ after ⊆ before ++ p :: after :=
    ((List.sublist_cons_self p after).append_left before).subset
  constructor
  · apply accounts.writers_subset share hfewer
  constructor
  · intro hsubset
    by_cases hne : before ++ after = []
    · right
      intro login hlogin
      obtain ⟨rfl, rfl⟩ := List.append_eq_nil_iff.mp hne
      have hopen := (accounts.mem_admitted share [] login).mpr ⟨hlogin, Or.inl rfl⟩
      obtain ⟨-, hnil | ⟨p', hp', hgranted⟩⟩ := (accounts.mem_admitted share [p] login).mp (hsubset hopen)
      · cases hnil
      · rw [List.mem_singleton.mp hp'] at hgranted
        apply hgranted
    · left
      apply hne
  · rintro (hne | hall)
    · apply accounts.admitted_subset share hfewer hne
    · intro login hlogin
      obtain ⟨hlogin, -⟩ := (accounts.mem_admitted share _ login).mp hlogin
      apply (accounts.mem_admitted share _ login).mpr
      exact ⟨hlogin, Or.inr ⟨p, by simp, hall login hlogin⟩⟩

/-- Taking away the only permission of a share, alice's, lets bob in. -/
theorem SmbAccounts.not_admitted_subset :
  ¬ ∀ (accounts : SmbAccounts) (share : Share) (before after : List SharePermission)
      (p : SharePermission),
    accounts.admitted (shareSection share (before ++ after))
      ⊆ accounts.admitted (shareSection share (before ++ p :: after))
  := by
  intro h
  have hbob := h ⟨["alice", "bob"], fun _ => []⟩ ⟨1, "media", 1, "/volume1/media", none, true⟩ [] []
    ⟨1, .user, "alice", .rw⟩ (a := "bob") (by decide +kernel)
  revert hbob
  decide +kernel
