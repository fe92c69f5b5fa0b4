import NasOs.Shares.Raised
import NasOs.System.Mounts

/-!
# What requests write in the tables

A volume is registered at a mountpoint that the mount table has as a word; a share is written at a path made
of its name and of the mountpoint of its volume; and a permission is written for a user or a group of the
tables, whose name was checked when its row was added.  So in every run all that the configuration says of a
share can be read back from it, but for the name of the share, which nothing checks.
-/

namespace SharesWorld

/-- A mountpoint without whitespace. -/
def IsWord (mountpoint : String) : Prop :=
  ∀ c ∈ mountpoint.toList, Text.isSpace c = false

/-- The rows are as requests write them. -/
structure Stored (w : SharesWorld) : Prop where
  users : ∀ user ∈ w.users, usernameRe user.username.toList = true
  groups : ∀ group ∈ w.groups, usernameRe group.name.toList = true
  volumes : ∀ v ∈ w.volumes, IsWord v.2.mountpoint
  paths : ∀ share ∈ w.shares, ∃ mountpoint, IsWord mountpoint ∧ share.path = mountpoint ++ "/" ++ share.name
  principals : ∀ p ∈ w.permissions, usernameRe p.principal.toList = true

/-- The rows that an operation adds are such rows. -/
def WritesStored : SharesOp → Prop
  | .users (.addUser user) => usernameRe user.username.toList = true
  | .users (.updateUser user _) => usernameRe user.username.toList = true
  | .addGroup group => usernameRe group.name.toList = true
  | .addShare name _ path _ => ∃ mountpoint, IsWord mountpoint ∧ path = mountpoint ++ "/" ++ name
  | .replacePermissions _ rows => ∀ p ∈ rows, usernameRe p.principal.toList = true
  | _ => True

/-- A mountpoint that is registered is a word of the mount table. -/
theorem isWord_of_register {isMountpoint : List Char → Bool} {text : List Char}
    {params : VolumeRegisterParams} {info : VolumeInfo}
    (h : Volumes.register isMountpoint text params = .ok info) :
  IsWord info.mountpoint
  := by
  rw [Volumes.register] at h
  split at h
  · cases h
  · split at h
    · cases h
    · split at h
      · cases h
      · rename_i type htype
        cases h
        rw [IsWord, String.toList_ofList]
        apply MountTable.isSpace_of_filesystemType htype

section

variable {w w' : SharesWorld}

/-- Every share of the tables, with its permissions, is one whose configuration can be read back but for its
name. -/
theorem Stored.exists_storedShare (h : w.Stored) {share : Share} (hshare : share ∈ w.shares) :
  ∃ s : StoredShare, s.share = share ∧ s.permissions = w.permissionsOf share.id
  := by
  obtain ⟨mountpoint, hword, hpath⟩ := h.paths share hshare
  have hprincipals : ∀ p ∈ w.permissionsOf share.id,
      p.shareId = share.id ∧ usernameRe p.principal.toList = true := by
    intro p hp
    obtain ⟨hmem, hshare⟩ := List.mem_filter.mp hp
    exact ⟨of_decide_eq_true hshare, h.principals p hmem⟩
  exact ⟨⟨share, w.permissionsOf share.id, mountpoint, hpath, hword, hprincipals⟩, rfl, rfl⟩

/-- The step lemma of the rows for an operation that adds such rows only. -/
theorem Stored.changed {op : SharesOp} (h : w.Stored) (hop : WritesStored op) (hchanged : w.Changed op w') :
  w'.Stored
  := by
  cases hchanged with
  | same => apply h
  | addUser user hnew =>
      refine ⟨?_, h.groups, h.volumes, h.paths, h.principals⟩
      intro user' hmem
      rcases List.mem_append.mp hmem with hold | hadded
      · apply h.users user' hold
      · rw [List.mem_singleton.mp hadded]
        apply hop
  | updateUser user notification =>
      refine ⟨?_, h.groups, h.volumes, h.paths, h.principals⟩
      intro user' hmem
      obtain ⟨user'', hold, rfl⟩ := List.mem_map.mp hmem
      split
      · apply hop
      · apply h.users user'' hold
  | deleteUser user =>
      exact ⟨fun user' hmem => h.users user' (List.mem_of_mem_filter hmem), h.groups, h.volumes, h.paths,
        h.principals⟩
  | addGroup group hnew =>
      refine ⟨h.users, ?_, h.volumes, h.paths, h.principals⟩
      intro group' hmem
      rcases List.mem_append.mp hmem with hold | hadded
      · apply h.groups group' hold
      · rw [List.mem_singleton.mp hadded]
        apply hop
  | deleteGroup group =>
      exact ⟨h.users, fun group' hmem => h.groups group' (List.mem_of_mem_filter hmem), h.volumes, h.paths,
        h.principals⟩
  | addShare name volumeId path description hnew =>
      refine ⟨h.users, h.groups, h.volumes, ?_, h.principals⟩
      intro share hmem
      rcases List.mem_append.mp hmem with hold | hadded
      · apply h.paths share hold
      · rw [List.mem_singleton.mp hadded]
        apply hop
  | deleteShare share =>
      exact ⟨h.users, h.groups, h.volumes, fun share' hmem => h.paths share' (List.mem_of_mem_filter hmem),
        fun p hp => h.principals p (List.mem_of_mem_filter hp)⟩
  | replacePermissions shareId rows =>
      refine ⟨h.users, h.groups, h.volumes, h.paths, ?_⟩
      intro p hp
      rcases List.mem_append.mp hp with hold | hadded
      · apply h.principals p (List.mem_of_mem_filter hold)
      · apply hop p hadded
  | _ => exact ⟨h.users, h.groups, h.volumes, h.paths, h.principals⟩

/-- What awaits such operations only keeps the rows. -/
theorem Stored.ensures {α : Type} {c : SharesM α} (hc : c.run.Awaits WritesStored)
    {s : SharesWorld × List SharesChoice} (h : s.1.Stored) :
  c.run.Ensures serve (fun _ _ => True) (fun _ t => t.1.Stored) s
  := hc.ensures (I := fun t : SharesWorld × List SharesChoice => t.1.Stored)
    (fun s op hop hs => hs.changed hop (changed_serve s op)) h

end

/-! ### Requests about accounts -/

section

variable {Op : Type} {Res : Op → Type} {α β : Type}
  {f : SharesWorld × List SharesChoice → (op : Op) → Res op × (SharesWorld × List SharesChoice)}

/-- A computation that keeps the rows when it runs alone. -/
def KeepsStored (f : SharesWorld × List SharesChoice → (op : Op) → Res op × (SharesWorld × List SharesChoice))
    (c : ExceptT Exc (Coroutine Op Res) α) : Prop :=
  ∀ s, s.1.Stored → c.run.Ensures f (fun _ _ => True) (fun _ t => t.1.Stored) s

/-- What follows a part that keeps the rows. -/
theorem KeepsStored.bind {c : ExceptT Exc (Coroutine Op Res) α} {g : α → ExceptT Exc (Coroutine Op Res) β}
    (hc : KeepsStored f c) (hg : ∀ a, KeepsStored f (g a)) :
  KeepsStored f (c >>= g)
  := by
  intro s hs
  apply (hc s hs).exceptT_bind
  · intro a t ht
    apply hg a t ht
  · intro _ _ ht
    exact ht

/-- A part that keeps the rows, with a handler of its exceptions that does. -/
theorem KeepsStored.tryCatch {c : ExceptT Exc (Coroutine Op Res) α}
    {g : Exc → ExceptT Exc (Coroutine Op Res) α} (hc : KeepsStored f c) (hg : ∀ e, KeepsStored f (g e)) :
  KeepsStored f (MonadExcept.tryCatch c g)
  := by
  intro s hs
  apply (hc s hs).tryCatch
  · intro _ _ ht
    exact ht
  · intro e t ht
    apply hg e t ht

end

section

variable {α β : Type}

/-- How operations about accounts are served. -/
def serveUsers (s : SharesWorld × List SharesChoice) (op : UsersOp) :
    op.Answer × (SharesWorld × List SharesChoice) :=
  serve s (.users op)

/-- What awaits operations that add such rows only keeps the rows. -/
theorem keepsStored_of_awaits {c : SharesM α} (hc : c.run.Awaits WritesStored) :
  KeepsStored serve c
  := fun _ hs => hc.ensures (I := fun t : SharesWorld × List SharesChoice => t.1.Stored)
    (fun t op hop ht => ht.changed hop (changed_serve t op)) hs

/-- What awaits operations on accounts that add such rows only keeps the rows. -/
theorem keepsStored_of_awaitsUsers {c : UsersM α} (hc : c.run.Awaits fun op => WritesStored (.users op)) :
  KeepsStored serveUsers c
  := fun _ hs => hc.ensures (I := fun t : SharesWorld × List SharesChoice => t.1.Stored)
    (fun t op hop ht => ht.changed hop (changed_serve t (.users op))) hs

/-- Reading adds no rows. -/
theorem writesStored_of_reads {op : UsersOp} (h : op.Reads) :
  WritesStored (.users op)
  := by
  cases op with
  | addUser user => cases h
  | updateUser user notification => cases h
  | _ => trivial

/-- What is ensured of a part about accounts. -/
theorem ensures_ofUsers {c : UsersM α} {Q : Except Exc α → SharesWorld × List SharesChoice → Prop}
    {s : SharesWorld × List SharesChoice} (hc : c.run.Ensures serveUsers (fun _ _ => True) Q s) :
  (SharesM.ofUsers c).run.Ensures serve (fun _ _ => True) Q s
  := Coroutine.Ensures.interpret (fun _ _ _ => ⟨trivial, rfl, rfl⟩) hc

/-- What a part returns, once something is made of its result. -/
theorem ensures_bind_pure {α β : Type} {Q : β → Prop} (c : UsersM α) {g : α → β} (hg : ∀ a, Q (g a))
    (s : SharesWorld × List SharesChoice) :
  (c >>= fun a => pure (g a)).run.Ensures serveUsers (fun _ _ => True)
    (fun r _ => ∀ b, r = .ok b → Q b) s
  := by
  have hany : c.run.Awaits fun _ => True := Coroutine.awaits_of_forall (fun _ => trivial) _
  apply (hany.ensures (I := fun _ => True) (fun _ _ _ _ => trivial) trivial).exceptT_bind
  · rintro a _ - b ⟨⟩
    apply hg
  · rintro e _ - b ⟨⟩

/-- A call of a handler that returns a name of the params, which was checked. -/
theorem ensures_named {P : Type} {validationError : P → Option String} {fn : P → UsersM α} {params : P}
    (name : α → String) (hreads : (fn params).run.Awaits fun op => WritesStored (.users op))
    (hname : validationError params = none → ∀ s, (fn params).run.Ensures serveUsers (fun _ _ => True)
      (fun r _ => ∀ a, r = .ok a → usernameRe (name a).toList = true) s)
    {s : SharesWorld × List SharesChoice} (hs : s.1.Stored) :
  (AgentClient.call validationError fn params).run.Ensures serveUsers (fun _ _ => True)
    (fun r t => t.1.Stored ∧ ∀ a, r = .ok a → usernameRe (name a).toList = true) s
  := by
  apply AgentClient.ensures_call
  · intro herror
    apply (keepsStored_of_awaitsUsers hreads s hs).and (hname herror s)
  · rintro message -
    exact ⟨hs, by rintro a ⟨⟩⟩
  · rintro (e | a) t ⟨ht, hname⟩
    · exact ⟨ht, by rintro a ⟨⟩⟩
    · exact ⟨ht, hname⟩

/-- What follows a call that returns such a name, when its errors are raised as others. -/
theorem ensures_named_bind {Op : Type} {Res : Op → Type}
    {f : SharesWorld × List SharesChoice → (op : Op) → Res op × (SharesWorld × List SharesChoice)}
    {name : α → String} {c : ExceptT Exc (Coroutine Op Res) α}
    {raise : Exc → ExceptT Exc (Coroutine Op Res) α} {g : α → ExceptT Exc (Coroutine Op Res) β}
    {s : SharesWorld × List SharesChoice}
    (hc : c.run.Ensures f (fun _ _ => True)
      (fun r t => t.1.Stored ∧ ∀ a, r = .ok a → usernameRe (name a).toList = true) s)
    (hraise : ∀ e, ∃ e', raise e = throw e')
    (hg : ∀ a, usernameRe (name a).toList = true → KeepsStored f (g a)) :
  (tryCatch c raise >>= g).run.Ensures f (fun _ _ => True) (fun _ t => t.1.Stored) s
  := by
  apply Coroutine.Ensures.exceptT_bind
    (Q := fun r t => t.1.Stored ∧ ∀ a, r = .ok a → usernameRe (name a).toList = true)
  · apply hc.tryCatch
    · intro a t ht
      exact ht
    · rintro e t ⟨ht, -⟩
      obtain ⟨e', he'⟩ := hraise e
      rw [he']
      exact ⟨ht, by rintro a ⟨⟩⟩
  · rintro a t ⟨ht, hname⟩
    apply hg a (hname a rfl) t ht
  · rintro e t ⟨ht, -⟩
    exact ht

/-- A row that is added under a name that was checked. -/
theorem keepsStored_addUser {user : User} (h : usernameRe user.username.toList = true) :
  KeepsStored serveUsers (UsersService.addUser user >>= fun _ => pure user)
  := by
  apply keepsStored_of_awaitsUsers
  apply Coroutine.awaits_exceptT_bind
  · exact ⟨h, fun _ => trivial⟩
  · intro _
    trivial

/-- A request for a new account keeps the rows. -/
theorem keepsStored_createUser (session : Session) (ip : Option String) (body : UserCreateRequest) :
  KeepsStored serveUsers (UsersApi.createUser session ip body)
  := by
  apply KeepsStored.bind (keepsStored_of_awaitsUsers (Async.awaits_raiseIf _ _))
  intro _
  apply KeepsStored.bind
  · apply KeepsStored.tryCatch
    · intro s hs
      have hcreate := awaits_usersCreate (fun _ => writesStored_of_reads)
        ⟨body.username, body.password, body.description⟩
      apply ensures_named_bind (ensures_named UserInfo.username hcreate _ hs)
      · intro e
        cases e
        all_goals exact ⟨_, rfl⟩
      · intro info hname
        apply keepsStored_addUser hname
      · intro herror s
        apply ensures_bind_pure
        intro uid
        apply usernameRe_of_usernameError herror
    · intro e
      apply keepsStored_of_awaitsUsers
      cases e with
      | serviceError code message =>
          apply Coroutine.awaits_exceptT_bind
          · exact ⟨trivial, fun _ => trivial⟩
          · intro _
            trivial
      | _ => trivial
  · intro user
    apply keepsStored_of_awaitsUsers
    apply Coroutine.awaits_exceptT_bind
    · exact ⟨trivial, fun _ => trivial⟩
    · intro _
      trivial

/-- A request to import an account keeps the rows. -/
theorem keepsStored_importUser (session : Session) (username description : String) :
  KeepsStored serveUsers (UsersApi.importUser session username description)
  := by
  apply KeepsStored.bind (keepsStored_of_awaitsUsers (Async.awaits_raiseIf _ _))
  intro _
  apply KeepsStored.bind
  · apply KeepsStored.tryCatch
    · intro s hs
      have himport := awaits_usersImport (fun _ => writesStored_of_reads) ⟨username⟩
      apply ensures_named_bind (ensures_named UserInfo.username himport _ hs)
      · intro e
        cases e
        all_goals exact ⟨_, rfl⟩
      · intro info hname
        apply keepsStored_addUser hname
      · intro herror t _
        generalize (serveUsers t (UsersOp.getpwnam username)).1 = found
        rcases found with e | _ | uid
        · rintro info ⟨⟩
        · rintro info ⟨⟩
        · apply ensures_bind_pure
          intro _
          apply usernameRe_of_usernameError herror
    · intro e
      apply keepsStored_of_awaitsUsers (awaits_badRequest e)
  · intro user
    apply keepsStored_of_awaitsUsers
    trivial

/-- A request for a new group keeps the rows. -/
theorem keepsStored_createGroup (session : Session) (name description : String) :
  KeepsStored serve (GroupsApi.createGroup session name description)
  := by
  apply KeepsStored.bind (keepsStored_of_awaits (awaits_requireAdmin session))
  intro _
  apply KeepsStored.tryCatch
  · intro s hs
    have hcreate := awaits_groupsCreate (fun _ => writesStored_of_reads) ⟨name⟩
    apply ensures_named_bind (ensures_ofUsers (ensures_named GroupInfo.name hcreate _ hs))
    · intro e
      cases e
      all_goals exact ⟨_, rfl⟩
    · intro info hname
      apply keepsStored_of_awaits
      apply Coroutine.awaits_exceptT_bind
      · exact ⟨hname, fun _ => trivial⟩
      · intro _
        trivial
    · intro herror t
      apply ensures_bind_pure
      intro gid
      rw [groupNameError] at herror
      split at herror
      · assumption
      · cases herror
  · intro e
    apply keepsStored_of_awaits (awaits_answer400 e)

end

/-! ### Requests about shares -/

section

variable {w w' : SharesWorld}

/-- An account that is looked up is in the tables, under a name that was checked. -/
theorem Stored.usernameRe_of_entryOf (h : w.Stored) {p : SharesService.Permission} {entry : AclEntry}
    (hentry : w.entryOf p = some entry) :
  usernameRe p.principal.toList = true
  := by
  obtain ⟨number, hnumber, -⟩ := Option.map_eq_some_iff.mp hentry
  obtain ⟨_ | _, principal, level⟩ := p
  · obtain ⟨user, huser, -⟩ := Option.map_eq_some_iff.mp hnumber
    have hname : user.username = principal := by simpa using List.find?_some huser
    rw [← hname]
    apply h.users user (List.mem_of_find?_eq_some huser)
  · obtain ⟨group, hgroup, -⟩ := Option.map_eq_some_iff.mp hnumber
    have hname : group.name = principal := by simpa using List.find?_some hgroup
    rw [← hname]
    apply h.groups group (List.mem_of_find?_eq_some hgroup)

/-- Other directories, another configuration and other jobs leave the rows alone. -/
theorem Stored.of_tables (h : w.Stored) (directories : Directories) (conf : Option (List UInt8))
    (jobs : List (String × List AclEntry)) :
  Stored { w with directories, conf, jobs }
  := ⟨h.users, h.groups, h.volumes, h.paths, h.principals⟩

/-- The commit of an operation on a share keeps the rows. -/
theorem Stored.does (h : w.Stored) {op : ShareOperation} {w₁ w₂ : SharesWorld} (hdoes : w.Does op w₁ w₂) :
  w₁.Stored ∧ w₂.Stored
  := by
  have hrows : ∀ {w' : SharesWorld} {share : Share} {permissions : List SharesService.Permission}
      {entries : List AclEntry}, w'.Stored → permissions.mapM w.entryOf = some entries →
      (w'.withPermissions share.id (permissions.map (SharesService.Permission.row share.id))).Stored := by
    intro w' share permissions entries hw' hentries
    apply hw'.changed _ (.replacePermissions share.id _)
    intro row hrow
    obtain ⟨p, hp, rfl⟩ := List.mem_map.mp hrow
    have hall := List.mapM_option_eq_some_iff.mp hentries
    obtain ⟨entry, -, hentry⟩ := List.exists_of_mem_forall₂ hall.flip hp
    apply h.usernameRe_of_entryOf hentry
  have hdeletes : ∀ share, WritesStored (.deleteShare share) := fun _ => trivial
  cases hdoes with
  | creates name volumeId description path hpath =>
      have hstored := h.of_tables (w.withDirectory path).directories w.conf w.jobs
      refine ⟨hstored, ⟨hstored.users, hstored.groups, hstored.volumes, ?_, hstored.principals⟩⟩
      intro share hmem
      rcases List.mem_append.mp hmem with hold | hadded
      · apply h.paths share hold
      · obtain ⟨volume, hvolume, rfl⟩ := Option.map_eq_some_iff.mp hpath
        obtain ⟨before, after, hvolumes, -⟩ := List.lookup_eq_some_iff.mp hvolume
        have hmem : (volumeId, volume) ∈ w.volumes := by
          rw [hvolumes]
          apply List.mem_append_right _ List.mem_cons_self
        rw [List.mem_singleton.mp hadded]
        exact ⟨volume.mountpoint, h.volumes _ hmem, rfl⟩
  | deletes share => exact ⟨h, h.changed (hdeletes share) (.deleteShare share)⟩
  | removes share =>
      have hstored := h.of_tables (w.directories.remove share.path fun _ => true) w.conf w.jobs
      exact ⟨hstored, hstored.changed (hdeletes share) (.deleteShare share)⟩
  | replaces share permissions entries acl hentries hacl =>
      have hstored := h.of_tables (w.withList share.path (replacedFile acl.isDir entries)).directories
        w.conf w.jobs
      exact ⟨hstored, hrows hstored hentries⟩
  | submits share permissions entries hentries =>
      have hstored := h.of_tables w.directories w.conf (w.withJob share.path entries).jobs
      exact ⟨hstored, hrows hstored hentries⟩

/-- An operation on a share that raises keeps the rows. -/
theorem Stored.leaves (h : w.Stored) {op : ShareOperation} {e : Exc} (hleaves : w.Leaves op e w') :
  w'.Stored
  := by
  cases hleaves with
  | agent code message hcode hbegins =>
      cases hbegins with
      | nothing => apply h
      | _ => exact h.of_tables _ _ _
  | params message => apply h
  | commit message hdoes => apply (h.does hdoes).1
  | config code message hcode hdoes => apply (h.does hdoes).2
  | unexpected hdoes hconf =>
      rcases hconf with rfl | rfl
      · apply (h.does hdoes).2
      · apply (h.does hdoes).2.of_tables

/-- Whatever an operation on a share ends in keeps the rows. -/
theorem Stored.ends {α : Type} (h : w.Stored) {op : ShareOperation} {r : Except Exc α}
    {s : SharesWorld × List SharesChoice} (hends : w.Ends op r s) :
  s.1.Stored
  := by
  cases r with
  | error e => apply h.leaves hends
  | ok a =>
      obtain ⟨w₁, w₂, hdoes, hs⟩ := hends
      rw [hs]
      apply (h.does hdoes).2.of_tables

end

section

variable (settings : SharesSettings) (session : Session)

/-- A request for a new share keeps the rows. -/
theorem keepsStored_createShare (body : ShareCreateRequest) :
  KeepsStored serve (SharesApi.createShare settings session body)
  := by
  apply KeepsStored.bind (keepsStored_of_awaits (awaits_requireAdmin session))
  intro _
  apply KeepsStored.tryCatch
  · apply KeepsStored.bind
    · rintro ⟨w, choices⟩ hw
      apply (ensures_createShare settings body.name body.volumeId body.description choices).mono
      intro r t hends
      apply hw.ends hends
    · intro share
      apply keepsStored_of_awaits
      apply Coroutine.awaits_exceptT_bind
      · exact ⟨trivial, fun _ => trivial⟩
      · intro _
        trivial
  · intro e
    apply keepsStored_of_awaits (awaits_answer400 e)

/-- A request on a share of the tables keeps the rows, if what it does with the share does. -/
theorem keepsStored_onShare {α : Type} (shareId : ℤ) {f : Share → SharesM α}
    (hf : ∀ share (s : SharesWorld × List SharesChoice), s.1.Stored → '/' ∈ share.path.toList →
      (f share).run.Ensures serve (fun _ _ => True) (fun _ t => t.1.Stored) s) :
  KeepsStored serve (do
    SharesM.ofUsers (requireAdmin session)
    let share ← getShareOr404 shareId
    tryCatch (f share) answer400)
  := by
  apply KeepsStored.bind (keepsStored_of_awaits (awaits_requireAdmin session))
  intro _ s hs _
  generalize hfound : (serve s (SharesOp.getShare shareId)).1 = found
  cases found with
  | none => exact hs
  | some share =>
      have hslash : '/' ∈ share.path.toList := by
        obtain ⟨mountpoint, -, hpath⟩ := hs.paths share (List.mem_of_find?_eq_some hfound)
        rw [hpath]
        simp
      have hcatch : (tryCatch (f share) answer400).run.Ensures serve (fun _ _ => True)
          (fun _ t => t.1.Stored) (serve s (SharesOp.getShare shareId)).2 := by
        apply (hf share (serve s (SharesOp.getShare shareId)).2 hs hslash).tryCatch
        · intro a t ht
          exact ht
        · intro e t ht
          apply keepsStored_of_awaits (awaits_answer400 e) t ht
      exact hcatch

/-- A request to delete a share keeps the rows. -/
theorem keepsStored_deleteShare (shareId : ℤ) (deleteFiles : Bool) :
  KeepsStored serve (SharesApi.deleteShare settings session shareId deleteFiles)
  := by
  apply keepsStored_onShare
  rintro share ⟨w, choices⟩ hw -
  apply (ensures_deleteShare settings share deleteFiles choices).mono
  intro r t hends
  apply hw.ends hends

/-- A request to replace the permissions of a share keeps the rows. -/
theorem keepsStored_setPermissions (shareId : ℤ) (body : SetPermissionsRequest) :
  KeepsStored serve (SharesApi.setPermissions settings session shareId body)
  := by
  apply keepsStored_onShare
  rintro share ⟨w, choices⟩ hw hslash
  apply (ensures_setSharePermissions settings hslash body.permissions body.recursive choices).mono
  intro r t hends
  apply hw.ends hends

end

/-! ### Every run -/

section

variable {settings : SharesSettings} {w w' : SharesWorld}

/-- Every request keeps the rows. -/
theorem keepsStored_program (settings : SharesSettings) (r : SharesRequest) :
  KeepsStored serve (r.program settings)
  := by
  have hforget : ∀ {α : Type} {c : SharesM α}, KeepsStored serve c →
      KeepsStored serve (do let _ ← c : SharesM Unit) :=
    fun hc => hc.bind fun _ => keepsStored_of_awaits trivial
  have husers : ∀ {α : Type} {c : UsersM α}, KeepsStored serveUsers c →
      KeepsStored serve (SharesM.ofUsers c) :=
    fun hc s hs => ensures_ofUsers (hc s hs)
  cases r with
  | createUser session ip body => apply hforget (husers (keepsStored_createUser session ip body))
  | importUser session username description =>
      apply hforget (husers (keepsStored_importUser session username description))
  | deleteUser session uid deleteHome =>
      apply husers
      apply keepsStored_of_awaitsUsers
      apply awaits_apiDeleteUser (fun _ => writesStored_of_reads) fun _ => trivial
  | createGroup session name description => apply hforget (keepsStored_createGroup session name description)
  | deleteGroup session gid =>
      apply keepsStored_of_awaits
      apply awaits_deleteGroup (fun _ => writesStored_of_reads) (fun _ => trivial) fun _ => trivial
  | createShare session body => apply hforget (keepsStored_createShare settings session body)
  | deleteShare session shareId deleteFiles => apply keepsStored_deleteShare
  | setPermissions session shareId body =>
      apply hforget (keepsStored_setPermissions settings session shareId body)

/-- The step lemma of the rows. -/
theorem Stored.step (h : w.Stored) {label : SharesLabel}
    (hstep : (machine settings).step w label = some w') :
  w'.Stored
  := by
  cases label with
  | request r choices =>
      cases hstep
      apply (keepsStored_program settings r (w, choices) h).execute (Coroutine.executesAlong_true _ _)
  | event e =>
      cases e with
      | job i choices =>
          obtain ⟨job, hjob, rfl⟩ := Option.map_eq_some_iff.mp hstep
          have hawaits : (permissionsJob job).run.Awaits WritesStored :=
            awaits_ofAcl (P := fun _ => True) (Coroutine.awaits_of_forall (fun _ => trivial) _)
              fun _ _ => trivial
          have hleft := h.of_tables w.directories w.conf (w.jobs.eraseIdx i)
          apply (keepsStored_of_awaits hawaits (_, choices) hleft).execute (Coroutine.executesAlong_true _ _)
      | register id volume =>
          change (if _ then _ else _) = _ at hstep
          split at hstep
          · rename_i hnew
            cases hstep
            refine ⟨h.users, h.groups, ?_, h.paths, h.principals⟩
            intro v hmem
            rcases List.mem_append.mp hmem with hold | hadded
            · apply h.volumes v hold
            · rw [List.mem_singleton.mp hadded, IsWord]
              simpa using hnew.2
          · cases hstep

/-- In every run of requests, jobs and registrations, the configuration of the tables is read back as exactly
the shares if and only if every name of a share is one that the header of a section can have. -/
theorem readNasosConf_of_run {labels : List SharesLabel} (hw : w.Stored)
    (hrun : (machine settings).run w labels = some w') :
  readNasosConf
        (renderNasosConf (w'.shares.map fun share => buildShareView share (w'.permissionsOf share.id)))
      = some (w'.shares.map fun share => buildShareView share (w'.permissionsOf share.id))
    ↔ ∀ share ∈ w'.shares, SmbConf.IsName share.name.toList
  := by
  have hstored : w'.Stored :=
    Machine.run_invariant_of_step (I := Stored) (fun _ _ _ h hstep => h.step hstep) hw hrun
  rw [readNasosConf_iff_isName, List.forall_mem_map]
  · rfl
  · rw [List.forall_mem_map]
    intro share hshare
    obtain ⟨s, rfl, hpermissions⟩ := hstored.exists_storedShare hshare
    rw [← hpermissions]
    apply s.sound

end

end SharesWorld
