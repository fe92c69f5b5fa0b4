import NasOs.Users.Protocol

/-!
# The flag of synchronised passwords

The flag of a row says that both backends hold the same password for the user.  Nothing keeps two requests
apart that set a password of one user, so that each backend may keep the password of another of them.  The
flag is truthful as long as a change of a password loads its row when no other request sets a password of
that user, no password has a newline, and `smbpasswd` ends, with whatever status.
-/

namespace UsersPool

/-- A change of a password loads its row only when no other request sets a password of the user, and its
`smbpasswd` can be run. -/
def keepsApart (requests : List (Session × UserRequest)) (p : UsersPool) :
    Pool.Label UsersChoice Empty → Bool
  | .task i choice =>
      match p.pendingOf i, choice with
      | some (.getUser uid), _ =>
          (p.world.users.find? uid).all fun row =>
            (List.range requests.length).all fun j =>
              j = i || !p.setsPassword requests row.username j
      | some (.run ["smbpasswd", "-s", _] _), .raises _ => false
      | _, _ => true
  | .environment e => nomatch e

end UsersPool

/-! ### What the commands do -/

/-- A password without a newline is what `smbpasswd` reads. -/
theorem smbpasswdEntry_eq {password : String} (h : '\n' ∉ password.toList) :
  smbpasswdEntry (password ++ "\n" ++ password ++ "\n") = some password
  := by
  have hlines : Text.records '\n' (password ++ "\n" ++ password ++ "\n").toList
      = [password.toList, password.toList] := by
    have heq : (password ++ "\n" ++ password ++ "\n").toList
        = (password.toList ++ '\n' :: password.toList) ++ ['\n'] := by
      simp [String.toList_append]
    rw [heq, Text.records_append_sep,
      List.splitOn_append_cons_of_beq _ _ (beq_self_eq_true '\n'), List.splitOn_eq_singleton h]
    rfl
  rw [smbpasswdEntry, hlines]
  simp

namespace AccountsWorld

variable {w w' : AccountsWorld} {uid : ℤ} {stdout : String}

/-- The line of a user sets the password of the account. -/
theorem command_chpasswd {username password : String} (hname : usernameRe username.toList = true)
    (hpassword : '\n' ∉ password.toList)
    (h : w.command uid stdout ["chpasswd"] (some (chpasswdLine username password)) = some w') :
  w' = w.setUnix username password
  := by
  change w.chpasswd _ = some w' at h
  rw [chpasswd, (chpasswdRecords_line_iff hname).mpr hpassword] at h
  simp only [List.foldlM_cons, List.foldlM_nil, Option.bind_some] at h
  cases hu : w.uid? username with
  | none => simp [hu] at h
  | some uid =>
      simp [hu] at h
      exact h.symm

/-- A password that is given twice sets the password of Samba. -/
theorem command_smbpasswd {username password : String} (hpassword : '\n' ∉ password.toList)
    (h : w.command uid stdout ["smbpasswd", "-s", username]
      (some (password ++ "\n" ++ password ++ "\n")) = some w') :
  w' = w.setSamba username password
  := by
  simp only [command] at h
  rw [smbpasswdEntry_eq hpassword] at h
  obtain ⟨_, -, h⟩ := Option.bind_eq_some_iff.mp h
  cases h
  rfl

/-- A password that is given twice creates an entry of Samba. -/
theorem command_smbCreate {username password : String} (hpassword : '\n' ∉ password.toList)
    (h : w.command uid stdout ["smbpasswd", "-s", "-a", username]
      (some (password ++ "\n" ++ password ++ "\n")) = some w') :
  w' = w.setSamba username password
  := by
  change ((w.uid? username).bind fun _ => (smbpasswdEntry _).map (w.setSamba username)) = some w' at h
  rw [smbpasswdEntry_eq hpassword] at h
  obtain ⟨_, -, h⟩ := Option.bind_eq_some_iff.mp h
  cases h
  rfl

/-- An account is created only when there is none of its name. -/
theorem command_useradd {homeDir description username : String}
    (h : w.command uid stdout ["useradd", "-m", "-d", homeDir, "-s", "/sbin/nologin", "-G",
      "nasos-users", "-c", description, username] none = some w') :
  w.uid? username = none ∧ w' = { w with
    accounts := w.accounts ++ [(username, uid)]
    unix := Function.update w.unix username none }
  := by
  simp only [command] at h
  split at h
  · cases h
  · rename_i hnew
    rw [not_or, Option.not_isSome_iff_eq_none] at hnew
    cases h
    exact ⟨hnew.1, rfl⟩

/-- Looking a uid up changes nothing. -/
theorem command_id {username : String}
    (h : w.command uid stdout ["id", "-u", username] none = some w') :
  w' = w
  := by
  change ((w.uid? username).bind fun uid =>
    if Text.int stdout.strip.toList = some uid then some w else none) = some w' at h
  obtain ⟨_, -, h⟩ := Option.bind_eq_some_iff.mp h
  split at h
  · cases h
    rfl
  · cases h

/-- Putting an account into a group changes nothing here. -/
theorem command_usermod {group username : String}
    (h : w.command uid stdout ["usermod", "-aG", group, username] none = some w') :
  w' = w
  := by
  change ((w.uid? username).map fun _ => w) = some w' at h
  obtain ⟨_, -, h⟩ := Option.map_eq_some_iff.mp h
  exact h.symm

end AccountsWorld

/-! ### What is known of a world -/

namespace AccountsWorld

/-- The usernames of the rows are unique, and they are those of accounts. -/
structure Valid (w : AccountsWorld) : Prop where
  usernames : (w.users.rows.map User.username).Nodup
  accounts : ∀ row ∈ w.users.rows, (w.uid? row.username).isSome

/-- Two worlds are the same but for one user. -/
structure Agrees (username : String) (w w' : AccountsWorld) : Prop where
  unix : ∀ other, other ≠ username → w'.unix other = w.unix other
  samba : ∀ other, other ≠ username → w'.samba other = w.samba other
  rows : ∀ row : User, row.username ≠ username → (row ∈ w'.users.rows ↔ row ∈ w.users.rows)
  accounts : ∀ other, (w.uid? other).isSome → (w'.uid? other).isSome

/-- Nothing that was changed. -/
theorem Agrees.refl (username : String) (w : AccountsWorld) :
  w.Agrees username w
  := by
  constructor
  · exact fun _ _ => rfl
  · exact fun _ _ => rfl
  · exact fun _ _ => Iff.rfl
  · exact fun _ => id

/-- The passwords of another user are the same or not in both. -/
theorem Agrees.samePassword {username other : String} {w w' : AccountsWorld}
    (h : w.Agrees username w') (hother : other ≠ username) :
  w'.SamePassword other ↔ w.SamePassword other
  := by
  rw [SamePassword, SamePassword, h.unix other hother, h.samba other hother]

/-- The row of another user is found where it was. -/
theorem Agrees.find? {username : String} {w w' : AccountsWorld} (h : w.Agrees username w')
    {row : User} (hrow : row.username ≠ username) :
  w'.users.find? row.uid = some row ↔ w.users.find? row.uid = some row
  := by
  rw [Table.find?_eq_some_iff, Table.find?_eq_some_iff, h.rows row hrow]

variable {w w' : AccountsWorld} {username : String}

/-- A password that is set is that of its user. -/
theorem agrees_setUnix (w : AccountsWorld) (username password : String) :
  w.Agrees username (w.setUnix username password)
  := by
  constructor
  · intro other hother
    apply Function.update_of_ne hother
  · exact fun _ _ => rfl
  · exact fun _ _ => Iff.rfl
  · exact fun _ => id

/-- A password that is set is that of its user. -/
theorem agrees_setSamba (w : AccountsWorld) (username password : String) :
  w.Agrees username (w.setSamba username password)
  := by
  constructor
  · exact fun _ _ => rfl
  · intro other hother
    apply Function.update_of_ne hother
  · exact fun _ _ => Iff.rfl
  · exact fun _ => id

/-- An account that is added is there, and so are those that were. -/
theorem isSome_uid?_append (uid : ℤ) (other : String)
    (h : other = username ∨ (w.uid? other).isSome) :
  ({ w with accounts := w.accounts ++ [(username, uid)] }.uid? other).isSome
  := by
  rw [uid?, List.lookup_append]
  obtain rfl | h := h
  · simp
  · rw [Option.isSome_or, Bool.or_eq_true]
    left
    apply h

/-- A user that is added is the only one that changes. -/
theorem agrees_useradd (w : AccountsWorld) (username : String) (uid : ℤ) :
  w.Agrees username { w with
    accounts := w.accounts ++ [(username, uid)]
    unix := Function.update w.unix username none }
  := by
  constructor
  · intro other hother
    apply Function.update_of_ne hother
  · exact fun _ _ => rfl
  · exact fun _ _ => Iff.rfl
  · intro other hother
    apply isSome_uid?_append uid other (Or.inr hother)

/-- A row is added when there is none of its uid or username. -/
theorem add_eq_some {row : User} (h : w.add row = some w') :
  row.username ∉ w.users.rows.map User.username ∧ w.users.find? row.uid = none
    ∧ w'.users.rows = w.users.rows ++ [row] ∧ w'.accounts = w.accounts ∧ w'.unix = w.unix
    ∧ w'.samba = w.samba
  := by
  rw [add] at h
  split at h
  · cases h
  · rename_i hnew
    obtain ⟨users, hinsert, rfl⟩ := Option.map_eq_some_iff.mp h
    refine ⟨hnew, ?_, ?_, rfl, rfl, rfl⟩
    · cases hfind : w.users.find? row.uid with
      | none => rfl
      | some row' =>
          rw [Table.insert_eq_none_iff.mpr ⟨row', hfind⟩] at hinsert
          cases hinsert
    · rw [Table.insert] at hinsert
      split at hinsert
      · cases hinsert
      · cases hinsert
        rfl

/-- A row is added for its user. -/
theorem agrees_add {row : User} (h : w.add row = some w') :
  w.Agrees row.username w'
  := by
  obtain ⟨-, -, hrows, haccounts, hunix, hsamba⟩ := add_eq_some h
  constructor
  · intro other _
    rw [hunix]
  · intro other _
    rw [hsamba]
  · intro row' hrow'
    rw [hrows, List.mem_append, List.mem_singleton]
    constructor
    · rintro (hmem | rfl)
      · apply hmem
      · exact absurd rfl hrow'
    · exact Or.inl
  · intro other hother
    rw [uid?, haccounts]
    apply hother

/-- A row of an account that is there keeps the rows valid. -/
theorem Valid.add {row : User} (hw : w.Valid) (h : w.add row = some w')
    (haccount : (w.uid? row.username).isSome) :
  w'.Valid
  := by
  obtain ⟨hnew, -, hrows, haccounts, -, -⟩ := add_eq_some h
  constructor
  · rw [hrows, List.map_append, List.map_singleton]
    apply hw.usernames.append (List.nodup_singleton _)
    simpa using hnew
  · intro row' hrow'
    rw [uid?, haccounts]
    rw [hrows, List.mem_append, List.mem_singleton] at hrow'
    obtain hrow' | rfl := hrow'
    · apply hw.accounts row' hrow'
    · apply haccount

/-- A row that is committed with another flag, when it is still as it was loaded. -/
theorem rows_update {row : User} (hrow : w.users.find? row.uid = some row) (synced : Bool)
    (notification : Option Notification) :
  (w.update row { row with smbPasswordSynced := synced } notification).users
    = w.users.replace { row with smbPasswordSynced := synced }
  := by
  simp only [update]
  rw [hrow]
  have hflush : flush row { row with smbPasswordSynced := synced } row
      = { row with smbPasswordSynced := synced } := by
    simp only [flush]
    congr
    all_goals simp
    exact Eq.symm
  rw [Option.map_some, Option.getD_some, hflush]

/-- What is in the table after a flag was committed. -/
theorem mem_update {row : User} (hrow : w.users.find? row.uid = some row) (synced : Bool)
    (notification : Option Notification) (row' : User) :
  row' ∈ (w.update row { row with smbPasswordSynced := synced } notification).users.rows
    ↔ row' = { row with smbPasswordSynced := synced } ∨ row' ∈ w.users.rows ∧ row'.uid ≠ row.uid
  := by
  rw [rows_update hrow, Table.replace, List.mem_map]
  obtain ⟨hmem, -⟩ := Table.find?_eq_some_iff.mp hrow
  constructor
  · rintro ⟨r, hr, rfl⟩
    by_cases hkey : r.uid = row.uid
    · left
      rw [if_pos hkey]
    · right
      rw [if_neg hkey]
      exact ⟨hr, hkey⟩
  · rintro (rfl | ⟨hr, hkey⟩)
    · exact ⟨row, hmem, if_pos rfl⟩
    · exact ⟨row', hr, if_neg hkey⟩

/-- A flag is committed for the user of its row. -/
theorem agrees_update {row : User} (hrow : w.users.find? row.uid = some row) (synced : Bool)
    (notification : Option Notification) :
  w.Agrees row.username (w.update row { row with smbPasswordSynced := synced } notification)
  := by
  constructor
  · exact fun _ _ => rfl
  · exact fun _ _ => rfl
  · intro row' hrow'
    rw [mem_update hrow]
    constructor
    · rintro (rfl | ⟨hmem, -⟩)
      · exact absurd rfl hrow'
      · apply hmem
    · intro hmem
      right
      refine ⟨hmem, ?_⟩
      intro hkey
      have hfind := Table.find?_eq_some_iff.mpr ⟨hmem, hkey⟩
      rw [hrow] at hfind
      cases hfind
      exact hrow' rfl
  · exact fun _ => id

/-- Committing a flag keeps the rows valid. -/
theorem Valid.update (hw : w.Valid) {row : User} (hrow : w.users.find? row.uid = some row)
    (synced : Bool) (notification : Option Notification) :
  (w.update row { row with smbPasswordSynced := synced } notification).Valid
  := by
  obtain ⟨hmem, -⟩ := Table.find?_eq_some_iff.mp hrow
  constructor
  · rw [rows_update hrow, Table.replace, List.map_map]
    have hsame : w.users.rows.map (User.username ∘ fun r =>
        if r.uid = row.uid then { row with smbPasswordSynced := synced } else r)
        = w.users.rows.map User.username := by
      apply List.map_congr_left
      intro r hr
      rw [Function.comp_apply]
      split
      · rename_i hkey
        have hfind := Table.find?_eq_some_iff.mpr ⟨hr, hkey⟩
        rw [hrow] at hfind
        cases hfind
        rfl
      · rfl
    rw [hsame]
    apply hw.usernames
  · intro row' hrow'
    rw [mem_update hrow] at hrow'
    obtain rfl | ⟨hmem', -⟩ := hrow'
    · apply hw.accounts row hmem
    · apply hw.accounts row' hmem'

/-- The row of a user is one. -/
theorem Valid.row_eq (hw : w.Valid) {row row' : User} (hrow : row ∈ w.users.rows)
    (hrow' : row' ∈ w.users.rows) (h : row.username = row'.username) :
  row = row'
  := List.inj_on_of_nodup_map hw.usernames hrow hrow' h

end AccountsWorld

/-! ### The invariant -/

/-- The password that a request takes. -/
def UserRequest.newPassword : UserRequest → String
  | .password request => request.password
  | .importUser _ _ => ""

namespace PasswordStage

/-- The user whose password is under way. -/
def user (request : UserRequest) : PasswordStage → Option String
  | .idle => none
  | .found => none
  | .loaded row => some row.username
  | .unixSet row => some row.username
  | .bothSet row => some row.username
  | .unixOnly row => some row.username
  | .created => request.account []
  | .identified => request.account []
  | .createdUnix => request.account []
  | .createdBoth => request.account []

/-- The user whose backends may differ, though the flag says otherwise. -/
def dirty : PasswordStage → Option String
  | .unixSet row => some row.username
  | .unixOnly row => some row.username
  | _ => none

/-- A request to set a password has loaded a row, which is still as it was. -/
structure Loading (request : UserRequest) (h : List (Event UsersOp UsersOp.Answer))
    (w : AccountsWorld) (row : User) : Prop where
  kind : ∃ uid newPassword, request = .password (.setPassword uid newPassword)
  name : usernameRe row.username.toList = true
  history : loadedRow h = some row
  current : w.users.find? row.uid = some row

/-- A request has created an account, which has no row whose flag is set. -/
structure Creating (request : UserRequest) (h : List (Event UsersOp UsersOp.Answer))
    (w : AccountsWorld) (username : String) : Prop where
  kind : ∃ ip body, request = .password (.create ip body) ∧ body.username = username
  history : h ≠ []
  account : (w.uid? username).isSome
  unsynced : ∀ row ∈ w.users.rows, row.username = username → row.smbPasswordSynced = false

/-- What is known at a stage. -/
def Facts (request : UserRequest) (h : List (Event UsersOp UsersOp.Answer)) (w : AccountsWorld) :
    PasswordStage → Prop
  | .idle => True
  | .found => ∃ username description, request = .importUser username description
      ∧ (w.uid? username).isSome
  | .loaded row => Loading request h w row
  | .unixSet row => Loading request h w row ∧ w.unix row.username = some request.newPassword
  | .bothSet row => Loading request h w row ∧ w.SamePassword row.username
  | .unixOnly row => Loading request h w row
  | .created => ∃ username, Creating request h w username
  | .identified => ∃ username, Creating request h w username
  | .createdUnix => ∃ username, Creating request h w username
      ∧ w.unix username = some request.newPassword
  | .createdBoth => ∃ username, Creating request h w username ∧ w.SamePassword username

variable {request : UserRequest} {h : List (Event UsersOp UsersOp.Answer)} {w w' : AccountsWorld}
  {username : String}

/-- What a change of another user leaves of a row that was loaded. -/
theorem Loading.congr {row : User} (hrow : Loading request h w row) (hagrees : w.Agrees username w')
    (hother : row.username ≠ username) :
  Loading request h w' row
  := ⟨hrow.kind, hrow.name, hrow.history, (hagrees.find? hother).mpr hrow.current⟩

/-- What a change of another user leaves of an account that was created. -/
theorem Creating.congr {other : String} (hnew : Creating request h w other)
    (hagrees : w.Agrees username w') (hother : other ≠ username) :
  Creating request h w' other
  := by
  refine ⟨hnew.kind, hnew.history, hagrees.accounts other hnew.account, ?_⟩
  rintro row hrow rfl
  apply hnew.unsynced row ((hagrees.rows row hother).mp hrow) rfl

/-- A request that has created an account is for it. -/
theorem Creating.account_eq {other : String} (hnew : Creating request h w other)
    (h' : List (Event UsersOp UsersOp.Answer)) :
  request.account h' = some other
  := by
  obtain ⟨ip, body, rfl, rfl⟩ := hnew.kind
  rfl

/-- The account that was created is the one that the request is for. -/
theorem Creating.username_eq {other : String} {ip : Option String} {body : UserCreateRequest}
    (hnew : Creating request h w other) (hrequest : request = .password (.create ip body)) :
  body.username = other
  := by
  obtain ⟨ip', body', hkind, rfl⟩ := hnew.kind
  rw [hrequest] at hkind
  cases hkind
  rfl

/-- What is known at a stage is not about other users. -/
theorem Facts.congr {stage : PasswordStage} (hfacts : Facts request h w stage)
    (hagrees : w.Agrees username w') (hother : stage.user request ≠ some username) :
  Facts request h w' stage
  := by
  cases stage with
  | idle => trivial
  | found =>
      obtain ⟨other, description, rfl, haccount⟩ := hfacts
      exact ⟨other, description, rfl, hagrees.accounts other haccount⟩
  | loaded row =>
      have hrow : row.username ≠ username := fun heq => hother (congrArg some heq)
      apply Loading.congr hfacts hagrees hrow
  | unixOnly row =>
      have hrow : row.username ≠ username := fun heq => hother (congrArg some heq)
      apply Loading.congr hfacts hagrees hrow
  | unixSet row =>
      have hrow : row.username ≠ username := fun heq => hother (congrArg some heq)
      refine ⟨hfacts.1.congr hagrees hrow, ?_⟩
      rw [hagrees.unix _ hrow]
      apply hfacts.2
  | bothSet row =>
      have hrow : row.username ≠ username := fun heq => hother (congrArg some heq)
      exact ⟨hfacts.1.congr hagrees hrow, (hagrees.samePassword hrow).mpr hfacts.2⟩
  | created =>
      obtain ⟨other, hnew⟩ := hfacts
      rw [user, hnew.account_eq] at hother
      exact ⟨other, hnew.congr hagrees (mt (congrArg some) hother)⟩
  | identified =>
      obtain ⟨other, hnew⟩ := hfacts
      rw [user, hnew.account_eq] at hother
      exact ⟨other, hnew.congr hagrees (mt (congrArg some) hother)⟩
  | createdUnix =>
      obtain ⟨other, hnew, hunix⟩ := hfacts
      rw [user, hnew.account_eq] at hother
      refine ⟨other, hnew.congr hagrees (mt (congrArg some) hother), ?_⟩
      rw [hagrees.unix _ (mt (congrArg some) hother)]
      apply hunix
  | createdBoth =>
      obtain ⟨other, hnew, hsame⟩ := hfacts
      rw [user, hnew.account_eq] at hother
      exact ⟨other, hnew.congr hagrees (mt (congrArg some) hother),
        (hagrees.samePassword (mt (congrArg some) hother)).mpr hsame⟩

/-- A request loads its row first. -/
theorem exists_of_loadedRow {row : User} (hloaded : loadedRow h = some row) :
  ∃ uid rest, h = ⟨.getUser uid, .ok (some row)⟩ :: rest
  := by
  rw [loadedRow.eq_def] at hloaded
  split at hloaded
  · subst hloaded
    exact ⟨_, _, rfl⟩
  · cases hloaded

/-- The row that a request has loaded is known from its first step. -/
theorem loadedRow_append {row : User} (hloaded : loadedRow h = some row)
    (h' : List (Event UsersOp UsersOp.Answer)) :
  loadedRow (h ++ h') = some row
  := by
  obtain ⟨uid, rest, rfl⟩ := exists_of_loadedRow hloaded
  rfl

/-- A request that goes on has still loaded its row. -/
theorem Loading.append {row : User} (hrow : Loading request h w row) (hrows : w'.users = w.users)
    (h' : List (Event UsersOp UsersOp.Answer)) :
  Loading request (h ++ h') w' row
  := by
  refine ⟨hrow.kind, hrow.name, loadedRow_append hrow.history h', ?_⟩
  rw [hrows]
  apply hrow.current

/-- A request that goes on has still created its account. -/
theorem Creating.append (hnew : Creating request h w username) (hrows : w'.users = w.users)
    (haccounts : w'.accounts = w.accounts) (h' : List (Event UsersOp UsersOp.Answer)) :
  Creating request (h ++ h') w' username
  := by
  refine ⟨hnew.kind, List.append_ne_nil_of_left_ne_nil hnew.history h', ?_, ?_⟩
  · rw [AccountsWorld.uid?, haccounts]
    apply hnew.account
  · rw [hrows]
    apply hnew.unsynced

/-- A request has a password under way for a user whose row it has loaded or whose account it has
created. -/
theorem Facts.of_user {stage : PasswordStage} (hfacts : Facts request h w stage)
    (huser : stage.user request = some username) :
  (∃ row, Loading request h w row ∧ row.username = username) ∨ Creating request h w username
  := by
  have hcreating : ∀ other, Creating request h w other → request.account [] = some username →
      Creating request h w username := by
    intro other hnew heq
    rw [hnew.account_eq] at heq
    cases heq
    apply hnew
  cases stage with
  | idle => cases huser
  | found => cases huser
  | loaded row => exact Or.inl ⟨row, hfacts, Option.some_inj.mp huser⟩
  | unixSet row => exact Or.inl ⟨row, hfacts.1, Option.some_inj.mp huser⟩
  | bothSet row => exact Or.inl ⟨row, hfacts.1, Option.some_inj.mp huser⟩
  | unixOnly row => exact Or.inl ⟨row, hfacts, Option.some_inj.mp huser⟩
  | created =>
      obtain ⟨other, hnew⟩ := hfacts
      exact Or.inr (hcreating other hnew huser)
  | identified =>
      obtain ⟨other, hnew⟩ := hfacts
      exact Or.inr (hcreating other hnew huser)
  | createdUnix =>
      obtain ⟨other, hnew, -⟩ := hfacts
      exact Or.inr (hcreating other hnew huser)
  | createdBoth =>
      obtain ⟨other, hnew, -⟩ := hfacts
      exact Or.inr (hcreating other hnew huser)

/-- A user whose password is under way has an account. -/
theorem Facts.isSome_uid? {stage : PasswordStage} (hfacts : Facts request h w stage)
    (hvalid : w.Valid) (huser : stage.user request = some username) :
  (w.uid? username).isSome
  := by
  obtain ⟨row, hrow, rfl⟩ | hnew := hfacts.of_user huser
  · apply hvalid.accounts row (Table.find?_eq_some_iff.mp hrow.current).1
  · apply hnew.account

/-- A request with a password under way has begun, takes a password, and is for the user. -/
theorem Facts.begun {stage : PasswordStage} (hfacts : Facts request h w stage)
    (huser : stage.user request = some username) :
  h ≠ [] ∧ request.takesPassword = true ∧ request.account h = some username
  := by
  obtain ⟨row, hrow, rfl⟩ | hnew := hfacts.of_user huser
  · obtain ⟨uid, newPassword, rfl⟩ := hrow.kind
    obtain ⟨uid', rest, rfl⟩ := exists_of_loadedRow hrow.history
    exact ⟨List.cons_ne_nil _ _, rfl, rfl⟩
  · refine ⟨hnew.history, ?_, hnew.account_eq h⟩
    obtain ⟨ip, body, rfl, -⟩ := hnew.kind
    rfl

/-- Backends may differ only for a user whose password is under way. -/
theorem user_of_dirty {stage : PasswordStage} (hdirty : stage.dirty = some username) :
  stage.user request = some username
  := by
  cases stage with
  | unixSet row => apply hdirty
  | unixOnly row => apply hdirty
  | _ => cases hdirty

/-- A row that is added leaves a row that was loaded. -/
theorem Loading.add {row new : User} (hrow : Loading request h w row) (hadd : w.add new = some w') :
  Loading request h w' row
  := by
  refine ⟨hrow.kind, hrow.name, hrow.history, ?_⟩
  obtain ⟨hmem, hkey⟩ := Table.find?_eq_some_iff.mp hrow.current
  obtain ⟨-, -, hrows, -, -, -⟩ := AccountsWorld.add_eq_some hadd
  rw [Table.find?_eq_some_iff, hrows]
  exact ⟨List.mem_append_left _ hmem, hkey⟩

/-- A row that is added with the flag unset leaves what is known of a new account. -/
theorem Creating.add {new : User} (hnew : Creating request h w username) (hadd : w.add new = some w')
    (hunsynced : new.smbPasswordSynced = false) :
  Creating request h w' username
  := by
  obtain ⟨-, -, hrows, haccounts, -, -⟩ := AccountsWorld.add_eq_some hadd
  refine ⟨hnew.kind, hnew.history, ?_, ?_⟩
  · rw [AccountsWorld.uid?, haccounts]
    apply hnew.account
  · intro row hrow hname
    rw [hrows, List.mem_append, List.mem_singleton] at hrow
    obtain hrow | rfl := hrow
    · apply hnew.unsynced row hrow hname
    · apply hunsynced

/-- A row that is added with the flag unset leaves what is known at a stage. -/
theorem Facts.add {stage : PasswordStage} {new : User} (hfacts : Facts request h w stage)
    (hadd : w.add new = some w') (hunsynced : new.smbPasswordSynced = false) :
  Facts request h w' stage
  := by
  obtain ⟨-, -, -, haccounts, hunix, hsamba⟩ := AccountsWorld.add_eq_some hadd
  have hsame : ∀ username, w.SamePassword username → w'.SamePassword username := by
    intro username hsame
    rw [AccountsWorld.SamePassword, hunix, hsamba]
    apply hsame
  cases stage with
  | idle => trivial
  | found =>
      obtain ⟨username, description, rfl, haccount⟩ := hfacts
      refine ⟨username, description, rfl, ?_⟩
      rw [AccountsWorld.uid?, haccounts]
      apply haccount
  | loaded row => apply Loading.add hfacts hadd
  | unixOnly row => apply Loading.add hfacts hadd
  | unixSet row =>
      refine ⟨hfacts.1.add hadd, ?_⟩
      rw [hunix]
      apply hfacts.2
  | bothSet row => exact ⟨hfacts.1.add hadd, hsame _ hfacts.2⟩
  | created =>
      obtain ⟨username, hnew⟩ := hfacts
      exact ⟨username, hnew.add hadd hunsynced⟩
  | identified =>
      obtain ⟨username, hnew⟩ := hfacts
      exact ⟨username, hnew.add hadd hunsynced⟩
  | createdUnix =>
      obtain ⟨username, hnew, hset⟩ := hfacts
      refine ⟨username, hnew.add hadd hunsynced, ?_⟩
      rw [hunix]
      apply hset
  | createdBoth =>
      obtain ⟨username, hnew, hboth⟩ := hfacts
      exact ⟨username, hnew.add hadd hunsynced, hsame _ hboth⟩

end PasswordStage

open UserRequest (requestAt)

/-- What is known of concurrent requests that are kept apart. -/
structure PasswordsInv (requests : List (Session × UserRequest)) (stages : ℕ → PasswordStage)
    (p : UsersPool) : Prop where
  valid : p.world.Valid
  facts : ∀ i, (stages i).Facts (requestAt requests i) (p.historyOf i) p.world
  apart : ∀ i j username, (stages i).user (requestAt requests i) = some username →
    (stages j).user (requestAt requests j) = some username → i = j
  synced : ∀ row ∈ p.world.users.rows, row.smbPasswordSynced = true →
    (∃ i, (stages i).dirty = some row.username) ∨ p.world.SamePassword row.username

namespace PasswordsInv

variable {requests : List (Session × UserRequest)} {stages : ℕ → PasswordStage} {p : UsersPool}
  {i : ℕ} {op : UsersOp} {resume : op.Answer → Coroutine UsersOp UsersOp.Answer (Except Exc UserOut)}
  {r : op.Answer}

/-- A step of a request that has nothing of a password under way. -/
theorem quiet (h : PasswordsInv requests stages p) {stage : PasswordStage} {w' : AccountsWorld}
    (hvalid : w'.Valid)
    (hkeeps : ∀ request h stage, PasswordStage.Facts request h p.world stage → stage.Facts request h w')
    (hrows : ∀ row ∈ w'.users.rows, row.smbPasswordSynced = true → row ∈ p.world.users.rows)
    (hsame : ∀ username, p.world.SamePassword username → w'.SamePassword username)
    (hdirty : (stages i).dirty = none) (huser : stage.user (requestAt requests i) = none)
    (hfacts : stage.Facts (requestAt requests i) (p.historyOf i ++ [⟨op, r⟩]) w') :
  PasswordsInv requests (Function.update stages i stage) (p.resumed i op resume r w')
  := by
  constructor
  · apply hvalid
  · intro j
    by_cases hj : j = i
    · subst hj
      rw [Function.update_self, Pool.historyOf_resumed_self]
      apply hfacts
    · rw [Function.update_of_ne hj, Pool.historyOf_resumed_of_ne (Ne.symm hj)]
      apply hkeeps _ _ _ (h.facts j)
  · intro j k username hj hk
    by_cases hji : j = i
    · subst hji
      rw [Function.update_self, huser] at hj
      cases hj
    · by_cases hki : k = i
      · subst hki
        rw [Function.update_self, huser] at hk
        cases hk
      · rw [Function.update_of_ne hji] at hj
        rw [Function.update_of_ne hki] at hk
        apply h.apart j k username hj hk
  · intro row hrow hflag
    obtain ⟨j, hj⟩ | hrowSame := h.synced row (hrows row hrow hflag) hflag
    · left
      use j
      rw [Function.update_of_ne]
      · apply hj
      · rintro rfl
        rw [hdirty] at hj
        cases hj
    · right
      apply hsame _ hrowSame

/-- A step that changes nothing, of a request that has nothing of a password under way. -/
theorem unchanged (h : PasswordsInv requests stages p) {stage : PasswordStage}
    (hdirty : (stages i).dirty = none) (huser : stage.user (requestAt requests i) = none)
    (hfacts : stage.Facts (requestAt requests i) (p.historyOf i ++ [⟨op, r⟩]) p.world) :
  PasswordsInv requests (Function.update stages i stage) (p.resumed i op resume r p.world)
  := by
  apply h.quiet h.valid _ _ _ hdirty huser hfacts
  · exact fun _ _ _ => id
  · exact fun _ hrow _ => hrow
  · exact fun _ => id

/-- A step of a request for a user, which is the only one under way for the user. -/
theorem resumed (h : PasswordsInv requests stages p) {stage : PasswordStage} {w' : AccountsWorld}
    {username : String} (hagrees : p.world.Agrees username w') (hvalid : w'.Valid)
    (hothers : ∀ j, j ≠ i → (stages j).user (requestAt requests j) ≠ some username)
    (hown : ∀ other, (stages i).dirty = some other → other = username)
    (huser : ∀ other, stage.user (requestAt requests i) = some other → other = username)
    (hfacts : stage.Facts (requestAt requests i) (p.historyOf i ++ [⟨op, r⟩]) w')
    (hsynced : ∀ row ∈ w'.users.rows, row.username = username → row.smbPasswordSynced = true →
      stage.dirty = some username ∨ w'.SamePassword username) :
  PasswordsInv requests (Function.update stages i stage) (p.resumed i op resume r w')
  := by
  constructor
  · apply hvalid
  · intro j
    by_cases hj : j = i
    · subst hj
      rw [Function.update_self, Pool.historyOf_resumed_self]
      apply hfacts
    · rw [Function.update_of_ne hj, Pool.historyOf_resumed_of_ne (Ne.symm hj)]
      apply (h.facts j).congr hagrees (hothers j hj)
  · intro j k other hj hk
    by_cases hji : j = i
    · by_cases hki : k = i
      · rw [hji, hki]
      · subst hji
        rw [Function.update_self] at hj
        rw [Function.update_of_ne hki, huser other hj] at hk
        exact absurd hk (hothers k hki)
    · rw [Function.update_of_ne hji] at hj
      by_cases hki : k = i
      · subst hki
        rw [Function.update_self] at hk
        rw [huser other hk] at hj
        exact absurd hj (hothers j hji)
      · rw [Function.update_of_ne hki] at hk
        apply h.apart j k other hj hk
  · intro row hrow hflag
    by_cases hname : row.username = username
    · obtain hdirty | hsame := hsynced row hrow hname hflag
      · left
        use i
        rw [Function.update_self, hdirty, hname]
      · right
        rw [hname]
        apply hsame
    · obtain ⟨j, hj⟩ | hsame := h.synced row ((hagrees.rows row hname).mp hrow) hflag
      · left
        use j
        rw [Function.update_of_ne]
        · apply hj
        · rintro rfl
          exact hname (hown _ hj)
      · right
        exact (hagrees.samePassword hname).mpr hsame

/-- A request under way for a user is the only one. -/
theorem others (h : PasswordsInv requests stages p) {username : String}
    (huser : (stages i).user (requestAt requests i) = some username) {j : ℕ} (hj : j ≠ i) :
  (stages j).user (requestAt requests j) ≠ some username
  := fun hother => hj (h.apart j i username hother huser)

/-- A step after which nothing of a password is under way, and which changes nothing. -/
theorem stops (h : PasswordsInv requests stages p) {stage : PasswordStage}
    (hdirty : (stages i).dirty = none) (hstage : stage = .idle) :
  PasswordsInv requests (Function.update stages i stage) (p.resumed i op resume r p.world)
  := by
  subst hstage
  apply h.unchanged hdirty
  · rfl
  · trivial

/-- A row that is added with the flag unset. -/
theorem importUser (h : PasswordsInv requests stages p) {row : User} {w' : AccountsWorld}
    (hadd : p.world.add row = some w') (haccount : (p.world.uid? row.username).isSome)
    (hunsynced : row.smbPasswordSynced = false) (hdirty : (stages i).dirty = none) :
  PasswordsInv requests (Function.update stages i .idle) (p.resumed i op resume r w')
  := by
  obtain ⟨-, -, hrows, -, hunix, hsamba⟩ := AccountsWorld.add_eq_some hadd
  apply h.quiet
  · apply h.valid.add hadd haccount
  · intro request history stage hfacts
    apply hfacts.add hadd hunsynced
  · intro row' hrow' hflag
    rw [hrows, List.mem_append, List.mem_singleton] at hrow'
    obtain hrow' | rfl := hrow'
    · apply hrow'
    · rw [hunsynced] at hflag
      cases hflag
  · intro username hsame
    rw [AccountsWorld.SamePassword, hunix, hsamba]
    apply hsame
  · apply hdirty
  · rfl
  · trivial

/-! ### Steps -/

/-- A command succeeds, it fails, or it cannot be run. -/
theorem perform_run {w w' : AccountsWorld} {argv : List String} {input : Option String}
    {choice : UsersChoice} {r : Except Exc CommandResult}
    (h : usersEffects.perform w (.run argv input) choice = some (r, w')) :
  (∃ uid stdout, w.command uid stdout argv input = some w' ∧ r = .ok ⟨0, stdout, ""⟩)
    ∨ (∃ result : CommandResult, result.ok = false ∧ r = .ok result ∧ w' = w)
    ∨ ∃ e, choice = .raises e ∧ r = .error e ∧ w' = w
  := by
  cases choice with
  | succeeds uid stdout =>
      obtain ⟨w₁, hcommand, heq⟩ := Option.map_eq_some_iff.mp h
      cases heq
      exact Or.inl ⟨uid, stdout, hcommand, rfl⟩
  | fails returncode stderr =>
      simp only [usersEffects] at h
      split at h
      · cases h
      · rename_i hcode
        cases h
        refine Or.inr (Or.inl ⟨_, ?_, rfl, rfl⟩)
        simpa [CommandResult.ok] using hcode
  | raises e =>
      cases h
      exact Or.inr (Or.inr ⟨e, rfl, rfl, rfl⟩)
  | answers => cases h
  | flushes loaded => cases h

section

variable {uid : ℤ} {newPassword : String} {row : User} {w' : AccountsWorld} {choice : UsersChoice}

/-- A request loads a row when no other one sets a password of its user. -/
theorem load {resume : Except Exc (Option User) → Coroutine UsersOp UsersOp.Answer (Except Exc UserOut)}
    (h : PasswordsInv requests stages p)
    (hrequest : requestAt requests i = .password (.setPassword uid newPassword))
    (hstage : stages i = .idle) (hfirst : p.historyOf i = [])
    (hfind : p.world.users.find? uid = some row)
    (hothers : ∀ j, j ≠ i → (stages j).user (requestAt requests j) ≠ some row.username)
    (hname : usernameRe row.username.toList = true) :
  PasswordsInv requests (Function.update stages i (.loaded row))
    (p.resumed i (.getUser uid) resume (.ok (some row)) p.world)
  := by
  apply h.resumed (AccountsWorld.Agrees.refl row.username p.world) h.valid hothers
  · intro other hother
    rw [hstage] at hother
    cases hother
  · rintro other ⟨⟩
    rfl
  · rw [hrequest, hfirst]
    obtain ⟨hmem, hkey⟩ := Table.find?_eq_some_iff.mp hfind
    exact ⟨⟨uid, newPassword, rfl⟩, hname, rfl, Table.find?_eq_some_iff.mpr ⟨hmem, rfl⟩⟩
  · intro row' hrow' hname' hflag
    obtain ⟨j, hj⟩ | hsame := h.synced row' hrow' hflag
    · rw [hname'] at hj
      by_cases hji : j = i
      · rw [hji, hstage] at hj
        cases hj
      · exact absurd (PasswordStage.user_of_dirty hj) (hothers j hji)
    · right
      rw [← hname']
      apply hsame

/-- A step for a user, at a stage that has the user under way. -/
theorem goesOn (h : PasswordsInv requests stages p) {stage : PasswordStage} {w' : AccountsWorld}
    {username : String} (huser : (stages i).user (requestAt requests i) = some username)
    (hagrees : p.world.Agrees username w') (hvalid : w'.Valid)
    (huser' : ∀ other, stage.user (requestAt requests i) = some other → other = username)
    (hfacts : stage.Facts (requestAt requests i) (p.historyOf i ++ [⟨op, r⟩]) w')
    (hsynced : ∀ row ∈ w'.users.rows, row.username = username → row.smbPasswordSynced = true →
      stage.dirty = some username ∨ w'.SamePassword username) :
  PasswordsInv requests (Function.update stages i stage) (p.resumed i op resume r w')
  := by
  apply h.resumed hagrees hvalid _ _ huser' hfacts hsynced
  · intro j hj
    apply h.others huser hj
  · intro other hother
    rw [← Option.some_inj, ← huser, PasswordStage.user_of_dirty hother]

/-- The Unix password of a user is set, or it is not. -/
theorem chpasswd
    {resume : Except Exc CommandResult → Coroutine UsersOp UsersOp.Answer (Except Exc UserOut)}
    {r : Except Exc CommandResult} (h : PasswordsInv requests stages p)
    (hrequest : requestAt requests i = .password (.setPassword uid newPassword))
    (hstage : stages i = .loaded row) (hplain : '\n' ∉ newPassword.toList)
    (hperform : usersEffects.perform p.world
      (.run ["chpasswd"] (some (chpasswdLine row.username newPassword))) choice = some (r, w')) :
  PasswordsInv requests
    (Function.update stages i ((PasswordStage.loaded row).next
      (.run ["chpasswd"] (some (chpasswdLine row.username newPassword))) r))
    (p.resumed i (.run ["chpasswd"] (some (chpasswdLine row.username newPassword))) resume r w')
  := by
  have hload : PasswordStage.Loading (requestAt requests i) (p.historyOf i) p.world row := by
    have hfacts := h.facts i
    rw [hstage] at hfacts
    apply hfacts
  have huser : (stages i).user (requestAt requests i) = some row.username := by
    rw [hstage]
    rfl
  obtain ⟨uid', stdout, hcommand, rfl⟩ | ⟨result, hfailed, rfl, rfl⟩ | ⟨e, -, rfl, rfl⟩ :=
    perform_run hperform
  · cases AccountsWorld.command_chpasswd hload.name hplain hcommand
    apply h.goesOn huser (AccountsWorld.agrees_setUnix _ _ _) ⟨h.valid.usernames, h.valid.accounts⟩
    · rintro other ⟨⟩
      rfl
    · constructor
      · apply hload.append
        rfl
      · rw [hrequest]
        apply Function.update_self
    · intro _ _ _ _
      left
      rfl
  · have hnext : (PasswordStage.loaded row).next
        (.run ["chpasswd"] (some (chpasswdLine row.username newPassword))) (.ok result) = .idle := by
      simp [PasswordStage.next, hfailed]
    apply h.stops _ hnext
    rw [hstage]
    rfl
  · rw [PasswordStage.next]
    split
    · apply h.goesOn huser (AccountsWorld.Agrees.refl _ _) h.valid
      · rintro other ⟨⟩
        rfl
      · apply hload.append rfl
      · intro _ _ _ _
        left
        rfl
    · apply h.stops _ rfl
      rw [hstage]
      rfl

/-- The Samba password of a user is set, or it is not. -/
theorem smbpasswd
    {resume : Except Exc CommandResult → Coroutine UsersOp UsersOp.Answer (Except Exc UserOut)}
    {r : Except Exc CommandResult} (h : PasswordsInv requests stages p)
    (hrequest : requestAt requests i = .password (.setPassword uid newPassword))
    (hstage : stages i = .unixSet row) (hplain : '\n' ∉ newPassword.toList)
    (hends : ∀ e, choice ≠ .raises e)
    (hperform : usersEffects.perform p.world (.run ["smbpasswd", "-s", row.username]
      (some (newPassword ++ "\n" ++ newPassword ++ "\n"))) choice = some (r, w')) :
  PasswordsInv requests
    (Function.update stages i ((PasswordStage.unixSet row).next
      (.run ["smbpasswd", "-s", row.username]
        (some (newPassword ++ "\n" ++ newPassword ++ "\n"))) r))
    (p.resumed i (.run ["smbpasswd", "-s", row.username]
      (some (newPassword ++ "\n" ++ newPassword ++ "\n"))) resume r w')
  := by
  obtain ⟨hload, hunix⟩ : PasswordStage.Loading (requestAt requests i) (p.historyOf i) p.world row
      ∧ p.world.unix row.username = some (requestAt requests i).newPassword := by
    have hfacts := h.facts i
    rw [hstage] at hfacts
    apply hfacts
  have huser : (stages i).user (requestAt requests i) = some row.username := by
    rw [hstage]
    rfl
  rw [hrequest] at hunix
  obtain ⟨uid', stdout, hcommand, rfl⟩ | ⟨result, hfailed, rfl, rfl⟩ | ⟨e, hraises, -, -⟩ :=
    perform_run hperform
  · cases AccountsWorld.command_smbpasswd hplain hcommand
    have hsame : (p.world.setSamba row.username newPassword).SamePassword row.username :=
      ⟨newPassword, hunix, Function.update_self ..⟩
    apply h.goesOn huser (AccountsWorld.agrees_setSamba _ _ _) ⟨h.valid.usernames, h.valid.accounts⟩
    · rintro other ⟨⟩
      rfl
    · constructor
      · apply hload.append
        rfl
      · apply hsame
    · intro _ _ _ _
      right
      apply hsame
  · have hnext : (PasswordStage.unixSet row).next (.run ["smbpasswd", "-s", row.username]
        (some (newPassword ++ "\n" ++ newPassword ++ "\n"))) (.ok result) = .unixOnly row := by
      simp [PasswordStage.next, hfailed]
    rw [hnext]
    apply h.goesOn huser (AccountsWorld.Agrees.refl _ _) h.valid
    · rintro other ⟨⟩
      rfl
    · apply hload.append rfl
    · intro _ _ _ _
      left
      rfl
  · exact absurd hraises (hends e)

/-- A flag is committed that is as the backends are. -/
theorem commit {synced : Bool} {notification : Option Notification} {r : Except Exc Unit}
    {resume : Except Exc Unit → Coroutine UsersOp UsersOp.Answer (Except Exc UserOut)}
    (h : PasswordsInv requests stages p)
    (hload : PasswordStage.Loading (requestAt requests i) (p.historyOf i) p.world row)
    (huser : (stages i).user (requestAt requests i) = some row.username)
    (hsame : synced = true → p.world.SamePassword row.username)
    (hflush : p.flushesLoaded (.task i choice) = true)
    (hperform : usersEffects.perform p.world
      (.updateUser { row with smbPasswordSynced := synced } notification) choice = some (r, w')) :
  PasswordsInv requests (Function.update stages i .idle)
    (p.resumed i (.updateUser { row with smbPasswordSynced := synced } notification) resume r w')
  := by
  cases choice with
  | flushes loaded =>
      have hloaded := of_decide_eq_true hflush
      rw [hload.history] at hloaded
      cases hloaded
      cases hperform
      apply h.goesOn huser (AccountsWorld.agrees_update hload.current synced notification)
        (h.valid.update hload.current synced notification)
      · rintro other ⟨⟩
      · trivial
      · intro row' hrow' hname hflag
        right
        apply hsame
        rw [AccountsWorld.mem_update hload.current] at hrow'
        obtain rfl | ⟨hmem, hkey⟩ := hrow'
        · apply hflag
        · have heq := h.valid.row_eq hmem (Table.find?_eq_some_iff.mp hload.current).1 hname
          rw [heq] at hkey
          exact absurd rfl hkey
  | succeeds uid stdout => cases hperform
  | fails returncode stderr => cases hperform
  | raises e => cases hperform
  | answers => cases hperform

end

section

variable {ip : Option String} {body : UserCreateRequest} {choice : UsersChoice} {w' : AccountsWorld}

/-- What a request for an account that it has created leaves of the flags. -/
theorem goesOnCreating (h : PasswordsInv requests stages p) {stage : PasswordStage}
    (hrequest : requestAt requests i = .password (.create ip body))
    (huser : (stages i).user (requestAt requests i) = some body.username)
    (hnew : PasswordStage.Creating (requestAt requests i) (p.historyOf i) p.world body.username)
    (hagrees : p.world.Agrees body.username w') (haccounts : w'.accounts = p.world.accounts)
    (hrows : w'.users = p.world.users)
    (hstage : stage.user (.password (.create ip body)) = some body.username)
    (hfacts : PasswordStage.Creating (requestAt requests i) (p.historyOf i ++ [⟨op, r⟩]) w'
      body.username → stage.Facts (requestAt requests i) (p.historyOf i ++ [⟨op, r⟩]) w') :
  PasswordsInv requests (Function.update stages i stage) (p.resumed i op resume r w')
  := by
  apply h.goesOn huser hagrees
  · constructor
    · rw [hrows]
      apply h.valid.usernames
    · rw [hrows]
      intro row hrow
      rw [AccountsWorld.uid?, haccounts]
      apply h.valid.accounts row hrow
  · intro other hother
    rw [hrequest, hstage] at hother
    exact (Option.some_inj.mp hother).symm
  · apply hfacts
    apply hnew.append hrows haccounts
  · rw [hrows]
    intro row hrow hname hflag
    rw [hnew.unsynced row hrow hname] at hflag
    cases hflag

/-- An account is created for which there was none, and so no row. -/
theorem useradd {argv : List String}
    {resume : Except Exc CommandResult → Coroutine UsersOp UsersOp.Answer (Except Exc UserOut)}
    {r : Except Exc CommandResult} (h : PasswordsInv requests stages p)
    (hrequest : requestAt requests i = .password (.create ip body)) (hstage : stages i = .idle)
    {homeDir : String}
    (hargv : argv = ["useradd", "-m", "-d", homeDir, "-s", "/sbin/nologin", "-G", "nasos-users", "-c",
      body.description, body.username])
    (hperform : usersEffects.perform p.world (.run argv none) choice = some (r, w')) :
  PasswordsInv requests (Function.update stages i (PasswordStage.idle.next (.run argv none) r))
    (p.resumed i (.run argv none) resume r w')
  := by
  subst hargv
  obtain ⟨uid, stdout, hcommand, rfl⟩ | ⟨result, hfailed, rfl, rfl⟩ | ⟨e, -, rfl, rfl⟩ :=
    perform_run hperform
  · obtain ⟨hnone, rfl⟩ := AccountsWorld.command_useradd hcommand
    have hrows : ∀ row ∈ p.world.users.rows, row.username ≠ body.username := by
      intro row hrow hname
      have haccount := h.valid.accounts row hrow
      rw [hname, hnone] at haccount
      cases haccount
    apply h.resumed (AccountsWorld.agrees_useradd p.world body.username uid)
    · refine ⟨h.valid.usernames, ?_⟩
      intro row hrow
      apply AccountsWorld.isSome_uid?_append
      right
      apply h.valid.accounts row hrow
    · intro j _ hj
      have haccount := (h.facts j).isSome_uid? h.valid hj
      rw [hnone] at haccount
      cases haccount
    · intro other hother
      rw [hstage] at hother
      cases hother
    · intro other hother
      rw [hrequest] at hother
      exact (Option.some_inj.mp hother).symm
    · refine ⟨body.username, ⟨ip, body, hrequest, rfl⟩, List.append_ne_nil_of_right_ne_nil _
        (List.cons_ne_nil _ _), ?_, ?_⟩
      · apply AccountsWorld.isSome_uid?_append
        left
        rfl
      · intro row hrow hname
        exact absurd hname (hrows row hrow)
    · intro row hrow hname _
      exact absurd hname (hrows row hrow)
  · apply h.stops
    · rw [hstage]
      rfl
    · simp [PasswordStage.next, hfailed]
  · apply h.stops
    · rw [hstage]
      rfl
    · rfl

/-- The uid of the new account is looked up. -/
theorem id
    {resume : Except Exc CommandResult → Coroutine UsersOp UsersOp.Answer (Except Exc UserOut)}
    {r : Except Exc CommandResult} (h : PasswordsInv requests stages p)
    (hrequest : requestAt requests i = .password (.create ip body)) (hstage : stages i = .created)
    (hperform : usersEffects.perform p.world (.run ["id", "-u", body.username] none) choice
      = some (r, w')) :
  PasswordsInv requests
    (Function.update stages i (PasswordStage.created.next (.run ["id", "-u", body.username] none) r))
    (p.resumed i (.run ["id", "-u", body.username] none) resume r w')
  := by
  have hdirty : (stages i).dirty = none := by
    rw [hstage]
    rfl
  obtain ⟨other, hnew⟩ : ∃ other, PasswordStage.Creating (requestAt requests i) (p.historyOf i)
      p.world other := by
    have hfacts := h.facts i
    rw [hstage] at hfacts
    apply hfacts
  obtain rfl := hnew.username_eq hrequest
  obtain ⟨uid, stdout, hcommand, rfl⟩ | ⟨result, hfailed, rfl, rfl⟩ | ⟨e, -, rfl, rfl⟩ :=
    perform_run hperform
  · cases AccountsWorld.command_id hcommand
    rw [PasswordStage.next]
    split
    · apply h.goesOnCreating hrequest _ hnew (AccountsWorld.Agrees.refl _ _) rfl rfl rfl
      · intro hnew'
        exact ⟨body.username, hnew'⟩
      · rw [hstage, hrequest]
        rfl
    · apply h.stops hdirty rfl
  · apply h.stops hdirty
    simp [PasswordStage.next, hfailed]
  · apply h.stops hdirty rfl

/-- The Unix password of a new account is set. -/
theorem chpasswdNew
    {resume : Except Exc CommandResult → Coroutine UsersOp UsersOp.Answer (Except Exc UserOut)}
    {r : Except Exc CommandResult} (h : PasswordsInv requests stages p)
    (hrequest : requestAt requests i = .password (.create ip body)) (hstage : stages i = .identified)
    (hplain : '\n' ∉ body.password.toList) (hname : usernameRe body.username.toList = true)
    (hperform : usersEffects.perform p.world
      (.run ["chpasswd"] (some (chpasswdLine body.username body.password))) choice = some (r, w')) :
  PasswordsInv requests
    (Function.update stages i (PasswordStage.identified.next
      (.run ["chpasswd"] (some (chpasswdLine body.username body.password))) r))
    (p.resumed i (.run ["chpasswd"] (some (chpasswdLine body.username body.password))) resume r w')
  := by
  have hdirty : (stages i).dirty = none := by
    rw [hstage]
    rfl
  obtain ⟨other, hnew⟩ : ∃ other, PasswordStage.Creating (requestAt requests i) (p.historyOf i)
      p.world other := by
    have hfacts := h.facts i
    rw [hstage] at hfacts
    apply hfacts
  obtain rfl := hnew.username_eq hrequest
  obtain ⟨uid, stdout, hcommand, rfl⟩ | ⟨result, hfailed, rfl, rfl⟩ | ⟨e, -, rfl, rfl⟩ :=
    perform_run hperform
  · cases AccountsWorld.command_chpasswd hname hplain hcommand
    apply h.goesOnCreating hrequest _ hnew (AccountsWorld.agrees_setUnix _ _ _) rfl rfl rfl
    · intro hnew'
      refine ⟨body.username, hnew', ?_⟩
      rw [hrequest]
      apply Function.update_self
    · rw [hstage, hrequest]
      rfl
  · apply h.stops hdirty
    simp [PasswordStage.next, hfailed]
  · apply h.stops hdirty rfl

/-- The Samba password of a new account is set. -/
theorem smbCreate
    {resume : Except Exc CommandResult → Coroutine UsersOp UsersOp.Answer (Except Exc UserOut)}
    {r : Except Exc CommandResult} (h : PasswordsInv requests stages p)
    (hrequest : requestAt requests i = .password (.create ip body)) (hstage : stages i = .createdUnix)
    (hplain : '\n' ∉ body.password.toList)
    (hperform : usersEffects.perform p.world (.run ["smbpasswd", "-s", "-a", body.username]
      (some (body.password ++ "\n" ++ body.password ++ "\n"))) choice = some (r, w')) :
  PasswordsInv requests
    (Function.update stages i (PasswordStage.createdUnix.next
      (.run ["smbpasswd", "-s", "-a", body.username]
        (some (body.password ++ "\n" ++ body.password ++ "\n"))) r))
    (p.resumed i (.run ["smbpasswd", "-s", "-a", body.username]
      (some (body.password ++ "\n" ++ body.password ++ "\n"))) resume r w')
  := by
  have hdirty : (stages i).dirty = none := by
    rw [hstage]
    rfl
  obtain ⟨other, hnew, hunix⟩ : ∃ other, PasswordStage.Creating (requestAt requests i)
      (p.historyOf i) p.world other
      ∧ p.world.unix other = some (requestAt requests i).newPassword := by
    have hfacts := h.facts i
    rw [hstage] at hfacts
    apply hfacts
  obtain rfl := hnew.username_eq hrequest
  rw [hrequest] at hunix
  obtain ⟨uid, stdout, hcommand, rfl⟩ | ⟨result, hfailed, rfl, rfl⟩ | ⟨e, -, rfl, rfl⟩ :=
    perform_run hperform
  · cases AccountsWorld.command_smbCreate hplain hcommand
    apply h.goesOnCreating hrequest _ hnew (AccountsWorld.agrees_setSamba _ _ _) rfl rfl rfl
    · intro hnew'
      exact ⟨body.username, hnew', body.password, hunix, Function.update_self ..⟩
    · rw [hstage, hrequest]
      rfl
  · apply h.stops hdirty
    simp [PasswordStage.next, hfailed]
  · apply h.stops hdirty rfl

/-- The row of a new account is added with the flag set, or there is one already. -/
theorem addUser {row : User} {r : Except Exc Unit}
    {resume : Except Exc Unit → Coroutine UsersOp UsersOp.Answer (Except Exc UserOut)}
    (h : PasswordsInv requests stages p)
    (hrequest : requestAt requests i = .password (.create ip body)) (hstage : stages i = .createdBoth)
    (hrow : row.username = body.username)
    (hperform : usersEffects.perform p.world (.addUser row) choice = some (r, w')) :
  PasswordsInv requests (Function.update stages i .idle) (p.resumed i (.addUser row) resume r w')
  := by
  have hdirty : (stages i).dirty = none := by
    rw [hstage]
    rfl
  obtain ⟨other, hnew, hsame⟩ : ∃ other, PasswordStage.Creating (requestAt requests i)
      (p.historyOf i) p.world other ∧ p.world.SamePassword other := by
    have hfacts := h.facts i
    rw [hstage] at hfacts
    apply hfacts
  obtain rfl : row.username = other := hrow.trans (hnew.username_eq hrequest)
  cases choice with
  | answers =>
      simp only [usersEffects] at hperform
      cases hadd : p.world.add row with
      | none =>
          rw [hadd] at hperform
          cases hperform
          apply h.stops hdirty rfl
      | some w₁ =>
          rw [hadd] at hperform
          cases hperform
          apply h.goesOn _ (AccountsWorld.agrees_add hadd) (h.valid.add hadd hnew.account)
          · rintro other ⟨⟩
          · trivial
          · intro _ _ _ _
            right
            obtain ⟨-, -, -, -, hunix, hsamba⟩ := AccountsWorld.add_eq_some hadd
            rw [AccountsWorld.SamePassword, hunix, hsamba]
            apply hsame
          · rw [hstage, hrequest, hrow]
            rfl
  | succeeds uid stdout => cases hperform
  | fails returncode stderr => cases hperform
  | raises e => cases hperform
  | flushes loaded => cases hperform

end

/-- Every step that keeps the requests apart keeps what is known of them. -/
theorem step {choice : UsersChoice} {w' : AccountsWorld} (h : PasswordsInv requests stages p)
    (hplain : (requestAt requests i).plain = true)
    (hsets : ∀ j username, (stages j).user (requestAt requests j) = some username →
      j < requests.length ∧ p.setsPassword requests username j = true)
    (hfirst : ∀ uid, op = .getUser uid → p.historyOf i = [])
    (hpending : p.pendingOf i = some op)
    (hkeeps : p.keepsApart requests (.task i choice) = true)
    (hflush : p.flushesLoaded (.task i choice) = true)
    (hallowed : PasswordStage.Allowed (requestAt requests i) (stages i) op)
    (hperform : usersEffects.perform p.world op choice = some (r, w')) :
  PasswordsInv requests (Function.update stages i ((stages i).next op r))
    (p.resumed i op resume r w')
  := by
  generalize hrequest : requestAt requests i = request at hallowed
  generalize hstage : stages i = stage at hallowed ⊢
  rw [hrequest] at hplain
  cases hallowed with
  | getUser uid newPassword =>
      have hdirty : (stages i).dirty = none := by
        rw [hstage]
        rfl
      cases choice with
      | answers =>
          cases hperform
          cases hfind : p.world.users.find? uid with
          | none => apply h.stops hdirty rfl
          | some row =>
              rw [PasswordStage.next]
              split
              · rename_i hname
                apply h.load hrequest hstage (hfirst uid rfl) hfind _ hname
                intro j hj huser
                obtain ⟨hlt, hset⟩ := hsets j row.username huser
                simp only [UsersPool.keepsApart, hpending, hfind, Option.all_some, List.all_eq_true,
                  List.mem_range] at hkeeps
                simpa [hj, hset] using hkeeps j hlt
              · apply h.stops hdirty rfl
      | succeeds uid stdout => cases hperform
      | fails returncode stderr => cases hperform
      | raises e => cases hperform
      | flushes loaded => cases hperform
  | chpasswd uid newPassword row =>
      apply h.chpasswd hrequest hstage (of_decide_eq_true hplain) hperform
  | smbpasswd uid newPassword row =>
      apply h.smbpasswd hrequest hstage (of_decide_eq_true hplain) _ hperform
      rintro e rfl
      simp [UsersPool.keepsApart, hpending] at hkeeps
  | synced uid newPassword row =>
      have hfacts := h.facts i
      rw [hstage] at hfacts
      apply h.commit hfacts.1 _ (fun _ => hfacts.2) hflush hperform
      rw [hstage]
      rfl
  | drifted uid newPassword row notification =>
      have hfacts := h.facts i
      rw [hstage] at hfacts
      apply h.commit hfacts _ _ hflush hperform
      · rw [hstage]
        rfl
      · rintro ⟨⟩
  | useradd ip body homeDir => apply h.useradd hrequest hstage rfl hperform
  | id ip body => apply h.id hrequest hstage hperform
  | chpasswdNew ip body hname =>
      apply h.chpasswdNew hrequest hstage (of_decide_eq_true hplain) hname hperform
  | smbCreate ip body => apply h.smbCreate hrequest hstage (of_decide_eq_true hplain) hperform
  | addUser ip body row hrow => apply h.addUser hrequest hstage hrow hperform
  | audit ip body entry =>
      have hdirty : (stages i).dirty = none := by
        rw [hstage]
        rfl
      cases choice with
      | answers =>
          cases hperform
          apply h.stops hdirty rfl
      | succeeds uid stdout => cases hperform
      | fails returncode stderr => cases hperform
      | raises e => cases hperform
      | flushes loaded => cases hperform
  | getpwnam username description =>
      have hdirty : (stages i).dirty = none := by
        rw [hstage]
        rfl
      cases choice with
      | answers =>
          cases hperform
          cases hfind : p.world.uid? username with
          | none => apply h.stops hdirty rfl
          | some uid =>
              apply h.unchanged hdirty rfl
              refine ⟨username, description, hrequest, ?_⟩
              rw [hfind]
              rfl
      | succeeds uid stdout => cases hperform
      | fails returncode stderr => cases hperform
      | raises e => cases hperform
      | flushes loaded => cases hperform
  | usermod username description =>
      have hdirty : (stages i).dirty = none := by
        rw [hstage]
        rfl
      have hfacts := h.facts i
      rw [hstage] at hfacts
      obtain ⟨uid, stdout, hcommand, rfl⟩ | ⟨result, hfailed, rfl, rfl⟩ | ⟨e, -, rfl, rfl⟩ :=
        perform_run hperform
      · cases AccountsWorld.command_usermod hcommand
        apply h.unchanged hdirty rfl
        apply hfacts
      · apply h.stops hdirty
        simp [PasswordStage.next, hfailed]
      · apply h.stops hdirty rfl
  | importUser username description row husername hunsynced =>
      have hdirty : (stages i).dirty = none := by
        rw [hstage]
        rfl
      obtain ⟨username', description', hrequest', haccount⟩ : ∃ username' description',
          requestAt requests i = .importUser username' description'
            ∧ (p.world.uid? username').isSome := by
        have hfacts := h.facts i
        rw [hstage] at hfacts
        apply hfacts
      rw [hrequest] at hrequest'
      cases hrequest'
      cases choice with
      | answers =>
          simp only [usersEffects] at hperform
          cases hadd : p.world.add row with
          | none =>
              rw [hadd] at hperform
              cases hperform
              apply h.stops hdirty rfl
          | some w₁ =>
              rw [hadd] at hperform
              cases hperform
              apply h.importUser hadd _ hunsynced hdirty
              rw [husername]
              apply haccount
      | succeeds uid stdout => cases hperform
      | fails returncode stderr => cases hperform
      | raises e => cases hperform
      | flushes loaded => cases hperform

end PasswordsInv

/-! ### The flag is truthful -/

/-- A request to set a password looks the user up first. -/
theorem historyOf_getUser {session : Session} {request : UserRequest} {uid : ℤ} {stage : PasswordStage}
    {h : List (Event UsersOp UsersOp.Answer)}
    {resume : Except Exc (Option User) → Coroutine UsersOp UsersOp.Answer (Except Exc UserOut)}
    (hallowed : PasswordStage.Allowed request stage (.getUser uid))
    (hf : (request.api session).run.Follows h (.await (.getUser uid) resume)) :
  h = []
  := by
  cases hallowed with
  | getUser uid newPassword =>
      obtain hrun | hrun := setPassword_run session uid newPassword
      · rw [UserRequest.api, PasswordRequest.api, hrun] at hf
        obtain ⟨-, ⟨⟩⟩ := Coroutine.follows_done.mp hf
      · rw [UserRequest.api, PasswordRequest.api, hrun] at hf
        obtain ⟨rfl, -⟩ | ⟨r, rest, rfl, hrest⟩ := Coroutine.follows_await.mp hf
        · rfl
        · obtain e | _ | row := r
          · obtain ⟨-, ⟨⟩⟩ := Coroutine.follows_done.mp hrest
          · obtain ⟨-, ⟨⟩⟩ := Coroutine.follows_done.mp hrest
          · obtain ⟨-, hawaits, -⟩ := hrest.awaits (P := Concerns row.username newPassword) (by
              apply Coroutine.awaits_exceptT_bind
              · apply Coroutine.awaits_tryCatch (awaits_setPassword row)
                intro e
                cases e
                all_goals trivial
              · intro updated
                trivial)
            cases hawaits

/-- A request with a password under way is in flight for the user, and takes a password. -/
theorem setsPassword_of_user {requests : List (Session × UserRequest)} {stages : ℕ → PasswordStage}
    {p : UsersPool} (h : PasswordsInv requests stages p)
    (hobeying : p.Obeying (fun i => (requestAt requests i).protocol) (fun _ => UserRequest.ends) stages)
    (hlength : p.tasks.length = requests.length) {i : ℕ} {username : String}
    (huser : (stages i).user (requestAt requests i) = some username) :
  i < requests.length ∧ p.setsPassword requests username i = true
  := by
  obtain ⟨hhistory, htakes, haccount⟩ := (h.facts i).begun huser
  have hi : i < requests.length := by
    by_contra hi
    rw [requestAt, List.getD_eq_getElem?_getD,
      List.getElem?_eq_none (Nat.le_of_not_lt hi)] at htakes
    cases htakes
  have hrequest := List.getElem?_eq_getElem hi
  rw [UserRequest.requestAt_eq hrequest] at htakes haccount
  have hpending : (p.pendingOf i).isSome = true := by
    have htask := List.getElem?_eq_getElem (hlength ▸ hi)
    have hends := hobeying i _ htask
    rw [Pool.pendingOf_eq htask]
    cases hc : p.tasks[i] with
    | await op resume => rfl
    | done a =>
        rw [hc, Coroutine.obeys_done, UserRequest.ends] at hends
        rw [hends] at huser
        cases huser
  refine ⟨hi, ?_⟩
  simp [UsersPool.setsPassword, UsersPool.inFlight, hrequest, hpending, hhistory, haccount, htakes]

/-- The flags of a valid world are truthful. -/
structure AccountsWorld.Synced (w : AccountsWorld) : Prop extends w.Valid where
  synced : ∀ row ∈ w.users.rows, row.smbPasswordSynced = true → w.SamePassword row.username

/-- Nothing is under way before the requests begin. -/
theorem passwordsInv_start (requests : List (Session × UserRequest)) {world : AccountsWorld}
    (hworld : world.Synced) :
  PasswordsInv requests (fun _ => .idle) (usersPool requests world)
  := by
  constructor
  · apply hworld.toValid
  · intro i
    trivial
  · rintro i j username ⟨⟩
  · intro row hrow hflag
    right
    apply hworld.synced row hrow hflag

/-- Every request takes no password with a newline. -/
theorem plain_requestAt {requests : List (Session × UserRequest)}
    (hplain : ∀ request ∈ requests, request.2.plain = true) (i : ℕ) :
  (requestAt requests i).plain = true
  := by
  rw [requestAt, List.getD_eq_getElem?_getD]
  cases hrequest : requests[i]? with
  | none => rfl
  | some request => apply hplain request (List.mem_of_getElem? hrequest)

/-- In every run of concurrent requests in which each change of a password loads its row when no other
request sets a password of that user, and can run `smbpasswd`, the flag of a user for whom no request is in
flight is truthful, if no password has a newline. -/
theorem truthful_of_run {requests : List (Session × UserRequest)} {world : AccountsWorld}
    {labels : List (Pool.Label UsersChoice Empty)} {p : UsersPool} (hworld : world.Synced)
    (hplain : ∀ request ∈ requests, request.2.plain = true)
    (hkeeps : UsersPool.machine.Along (fun p label => p.keepsApart requests label = true)
      (usersPool requests world) labels)
    (hrun : UsersPool.machine.run (usersPool requests world) labels = some p) :
  p.Truthful requests
  := by
  obtain ⟨hrun', -⟩ := (Machine.run_guard _).mp hrun
  obtain ⟨hlength, stages, hobeying, -, hinv⟩ := Pool.run_obeys
    (P := fun i => (requestAt requests i).protocol)
    (I := fun stages p => Pool.Traces (usersPool requests world).tasks p
      ∧ PasswordsInv requests stages p)
    (UserRequest.obeying_usersPool requests world)
    ⟨Pool.traces_start _ _, passwordsInv_start requests hworld⟩
    (by
      rintro p stages i choice op resume r world' hlength hobeying ⟨htraces, hI⟩ ⟨hflush, hD⟩ htask
        hallowed hperform
      rw [List.length_map] at hlength
      refine ⟨htraces.resumed htask r world', ?_⟩
      apply hI.step (plain_requestAt hplain i) _ _ _ hD hflush hallowed hperform
      · intro j username huser
        apply setsPassword_of_user hI hobeying hlength huser
      · rintro uid rfl
        have hi : i < requests.length := hlength ▸ (List.getElem?_eq_some_iff.mp htask).1
        have hrequest := List.getElem?_eq_getElem hi
        obtain ⟨c, hc, hf⟩ := htraces.2 i ((requests[i].2.api requests[i].1).run) (by
          rw [usersPool, Pool.start, List.getElem?_map, hrequest]
          rfl)
        rw [htask] at hc
        cases hc
        rw [UserRequest.requestAt_eq hrequest] at hallowed
        apply historyOf_getUser hallowed hf
      · rw [Pool.pendingOf_eq htask]
        rfl)
    (by
      rintro p stages ⟨⟩) (Machine.along_of_guard _ hkeeps hrun) hrun'
  rw [List.length_map] at hlength
  intro row hrow hflag hquiet
  obtain ⟨i, hdirty⟩ | hsame := hinv.synced row hrow hflag
  · obtain ⟨-, hsets⟩ := setsPassword_of_user hinv hobeying hlength
      (PasswordStage.user_of_dirty hdirty)
    rw [UsersPool.setsPassword, Bool.and_eq_true, hquiet i] at hsets
    cases hsets.1
  · apply hsame

/-- The row of alice. -/
def aliceRow : User :=
  ⟨1001, "alice", none, true, false, true, true⟩

/-- Both backends hold the same password for alice. -/
def aliceWorld : AccountsWorld where
  accounts := [("alice", 1001)]
  unix username := if username = "alice" then some "old" else none
  samba username := if username = "alice" then some "old" else none
  users := ⟨[aliceRow], List.nodup_singleton _⟩
  notifications := []

theorem synced_aliceWorld :
  aliceWorld.Synced
  := by
  refine ⟨⟨List.nodup_singleton _, ?_⟩, ?_⟩
  · intro row hrow
    obtain rfl := List.mem_singleton.mp hrow
    decide
  · intro row hrow _
    obtain rfl := List.mem_singleton.mp hrow
    exact ⟨"old", rfl, rfl⟩

/-- An admin. -/
def admin : Session :=
  ⟨1000, "admin", "admin"⟩

/-- The password of alice is changed while an account is created for bob. -/
def aliceAndBob : List (Session × UserRequest) :=
  [(admin, .password (.setPassword 1001 "one")),
    (admin, .password (.create none ⟨"bob", "two", ""⟩))]

/-- The Samba password of alice cannot be changed, and bob gets an account. -/
def driftNoted : List (Pool.Label UsersChoice Empty) :=
  [.task 0 .answers, .task 1 (.succeeds 1002 ""), .task 0 (.succeeds 0 ""),
    .task 0 (.fails 1 "Failed to modify password entry for user alice"), .task 1 (.succeeds 0 "1002"),
    .task 0 (.flushes aliceRow), .task 1 (.succeeds 0 ""), .task 1 (.succeeds 0 ""),
    .task 1 .answers, .task 1 .answers]

theorem truthful_driftNoted :
  ∃ p, UsersPool.machine.run (usersPool aliceAndBob aliceWorld) driftNoted = some p
    ∧ p.Truthful aliceAndBob
  := by
  obtain ⟨p, hrun⟩ := Option.isSome_iff_exists.mp
    (by decide +kernel :
      (UsersPool.machine.run (usersPool aliceAndBob aliceWorld) driftNoted).isSome = true)
  refine ⟨p, hrun, ?_⟩
  apply truthful_of_run synced_aliceWorld _ _ hrun
  · decide
  · decide +kernel

/-- A user for whom no request is in flight has the flag, and different passwords. -/
def UsersPool.drifts (requests : List (Session × UserRequest)) (p : UsersPool) : Bool :=
  p.world.users.rows.any fun row =>
    row.smbPasswordSynced && p.world.unix row.username ≠ p.world.samba row.username
      && (List.range requests.length).all fun i => !p.inFlight requests row.username i

/-- Such a user contradicts the flag. -/
theorem not_truthful_of_drifts {requests : List (Session × UserRequest)} {p : UsersPool}
    (h : p.drifts requests = true) :
  ¬ p.Truthful requests
  := by
  intro htruthful
  obtain ⟨row, hrow, hdrifts⟩ := List.any_eq_true.mp h
  rw [Bool.and_eq_true, Bool.and_eq_true, decide_eq_true_eq, List.all_eq_true] at hdrifts
  obtain ⟨⟨hflag, hne⟩, hquiet⟩ := hdrifts
  obtain ⟨newPassword, hunix, hsamba⟩ := htruthful row hrow hflag (by
    intro i
    by_cases hi : i < requests.length
    · simpa using hquiet i (List.mem_range.mpr hi)
    · rw [UsersPool.inFlight, List.getElem?_eq_none (Nat.le_of_not_lt hi)])
  exact hne (hunix.trans hsamba.symm)

/-- Two changes of the password of alice, whose steps at the backends cross. -/
def crossed : List (Session × UserRequest) × List (Pool.Label UsersChoice Empty) :=
  ([(admin, .password (.setPassword 1001 "one")), (admin, .password (.setPassword 1001 "two"))],
    [.task 0 .answers, .task 1 .answers, .task 0 (.succeeds 0 ""), .task 1 (.succeeds 0 ""),
      .task 1 (.succeeds 0 ""), .task 0 (.succeeds 0 ""), .task 0 (.flushes aliceRow),
      .task 1 (.flushes aliceRow)])

/-- The Unix password of alice is changed, and there is no `smbpasswd`. -/
def notInstalled : List (Session × UserRequest) × List (Pool.Label UsersChoice Empty) :=
  ([(admin, .password (.setPassword 1001 "one"))],
    [.task 0 .answers, .task 0 (.succeeds 0 ""),
      .task 0 (.raises (.other "[Errno 2] No such file or directory: 'smbpasswd'"))])

/-- A password of two lines is two records for `chpasswd`, and the first one for `smbpasswd`. -/
def twoLines : List (Session × UserRequest) × List (Pool.Label UsersChoice Empty) :=
  ([(admin, .password (.setPassword 1001 "alice:y\nalice:y"))],
    [.task 0 .answers, .task 0 (.succeeds 0 ""), .task 0 (.succeeds 0 ""),
      .task 0 (.flushes aliceRow)])

/-- In each of these runs the flag of alice stays set, and the backends hold different passwords. -/
theorem not_truthful :
  aliceWorld.Synced ∧ ∀ scenario ∈ [crossed, notInstalled, twoLines],
    ∃ p, UsersPool.machine.run (usersPool scenario.1 aliceWorld) scenario.2 = some p
      ∧ ¬ p.Truthful scenario.1
  := by
  refine ⟨synced_aliceWorld, ?_⟩
  have hdrifts : ∀ scenario ∈ [crossed, notInstalled, twoLines],
      (UsersPool.machine.run (usersPool scenario.1 aliceWorld) scenario.2).any
        (fun p => p.drifts scenario.1) = true := by
    decide +kernel
  intro scenario hscenario
  obtain ⟨p, hrun, hp⟩ := (Option.any_eq_true _ _).mp (hdrifts scenario hscenario)
  exact ⟨p, hrun, not_truthful_of_drifts hp⟩
