import NasOs.Acl.Interleaving
import NasOs.Shares.Paths

/-!
# Permissions and the accounts that they name

A permission of a share names a user or a group of the tables, and the access control lists of directories
name them by their numbers.  Nothing but the lookup of the names in a request ties the two together: deleting
a user or a group touches neither the permissions nor the lists.

When every user and group that is deleted is named by no permission, by no list and by no job that waits,
in every run of requests the permissions and the lists name users and groups of the tables only.  A job runs
in one step here, so that none is running when a request begins.
-/

namespace Directories

/-- The lists of some place name the principal. -/
def Names (directories : Directories) (principal : Principal) : Prop :=
  ∃ location acl, directories location = some acl ∧ acl.Names principal

variable {directories : Directories} {principal : Principal}

/-- A directory that is made names nobody but whom its parent names. -/
theorem names_mkdir {parent location : Location} (h : (directories.mkdir parent location).Names principal) :
  directories.Names principal
  := by
  rw [mkdir] at h
  split at h
  · apply h
  · obtain ⟨location', acl, hacl, hnames⟩ := h
    by_cases hlocation : location' = location
    · subst hlocation
      rw [Function.update_self] at hacl
      cases hacl
      cases hparent : directories parent with
      | none =>
          rw [hparent] at hnames
          rcases hnames with hmem | ⟨list, ⟨⟩, -⟩
          cases hmem
      | some acl =>
          rw [hparent] at hnames
          exact ⟨parent, acl, hparent, FileAcl.names_createDir hnames⟩
    · rw [Function.update_of_ne hlocation] at hacl
      exact ⟨location', acl, hacl, hnames⟩

/-- Directories that are made name nobody but whom those before name. -/
theorem names_make {location : Location} {steps : List (List Char)}
    (h : (directories.make location steps).Names principal) :
  directories.Names principal
  := by
  induction steps generalizing directories location with
  | nil => apply h
  | cons step steps ih => apply names_mkdir (ih h)

/-- A change of the mode names the same. -/
theorem names_chmod {path : String} {mode : ℕ} (h : (directories.chmod path mode).Names principal) :
  directories.Names principal
  := by
  obtain ⟨location, acl, hacl, hnames⟩ := h
  rw [chmod] at hacl
  by_cases hlocation : location = Path.resolve path
  · subst hlocation
    rw [Function.update_self] at hacl
    obtain ⟨acl', hacl', rfl⟩ := Option.map_eq_some_iff.mp hacl
    exact ⟨_, acl', hacl', FileAcl.names_chmod.mp hnames⟩
  · rw [Function.update_of_ne hlocation] at hacl
    exact ⟨location, acl, hacl, hnames⟩

/-- What is left once a tree is removed was there before. -/
theorem names_remove {path : String} {removed : Location → Bool}
    (h : (directories.remove path removed).Names principal) :
  directories.Names principal
  := by
  obtain ⟨location, acl, hacl, hnames⟩ := h
  rw [remove] at hacl
  split at hacl
  · cases hacl
  · exact ⟨location, acl, hacl, hnames⟩

end Directories

/-- The commands of `replace_all` with entries. -/
def Replaces (entries : List AclEntry) (argv : List String) : Prop :=
  ∃ path recursive, argv = "setfacl" :: SetfaclAcl.resetArgs path recursive
    ∨ argv = "setfacl" :: SetfaclAcl.applyArgs path entries recursive

/-- A command of `replace_all` names nobody but whom the lists named before and whom the entries name. -/
theorem FileAcl.names_command {path : String} {acl acl' : FileAcl} {entries : List AclEntry}
    {argv : List String} {out : String} (hargv : Replaces entries argv)
    (h : acl.command path argv = some (out, acl')) {principal : Principal} (hnames : acl'.Names principal) :
  acl.Names principal ∨ ∃ e ∈ entries, 0 ≤ e.numericId ∧ e.principal = principal
  := by
  have hmodify : ∀ recursive, (AclSpec.parseList (",".intercalate (SetfaclAcl.specs entries)).toList).bind
      (fun specs => (acl.modify recursive specs).map fun acl => ("", acl)) = some (out, acl') →
      acl.Names principal ∨ ∃ e ∈ entries, 0 ≤ e.numericId ∧ e.principal = principal := by
    intro recursive h
    rw [SetfaclAcl.parse_specs] at h
    split at h
    · rename_i hids
      obtain ⟨acl'', hacl, heq⟩ := Option.map_eq_some_iff.mp h
      cases heq
      rcases FileAcl.names_modify hacl hnames with hold | ⟨spec, hspec, htag⟩
      · left
        apply hold
      · right
        rcases List.mem_append.mp hspec with halways | hnew
        · simp only [alwaysSpecs, List.mem_cons, List.not_mem_nil, or_false] at halways
          rcases halways with rfl | rfl | rfl | rfl | rfl | rfl | rfl | rfl
          all_goals cases htag
        · obtain ⟨e, he, hspec⟩ := List.mem_flatMap.mp hnew
          simp only [List.mem_cons, List.not_mem_nil, or_false] at hspec
          refine ⟨e, he, hids e he, ?_⟩
          rcases hspec with rfl | rfl
          all_goals exact AclTag.named.inj htag
    · cases h
  obtain ⟨path', recursive, rfl | rfl⟩ := hargv
  · cases recursive
    all_goals
      rw [SetfaclAcl.resetArgs] at h
      simp only [Bool.false_eq_true, if_false, if_true, command] at h
      split at h
      · cases h
        apply absurd hnames (FileAcl.not_names_removeAll acl principal)
      · cases h
  · cases recursive
    all_goals
      rw [SetfaclAcl.applyArgs] at h
      simp only [Bool.false_eq_true, if_false, if_true, command] at h
      split at h
      · apply hmodify _ h
      · cases h

/-- The commands of `replace_all` name nobody but whom the lists named before and whom the entries name. -/
theorem Directories.names_command {directories : Directories} {path : String} {argv : List String}
    {entries : List AclEntry} {principal : Principal} (hargv : Replaces entries argv)
    (h : (directories.command path argv).Names principal) :
  directories.Names principal ∨ ∃ e ∈ entries, 0 ≤ e.numericId ∧ e.principal = principal
  := by
  obtain ⟨location, acl, hacl, hnames⟩ := h
  rw [command] at hacl
  split at hacl
  · obtain ⟨acl', hacl', rfl⟩ := Option.map_eq_some_iff.mp hacl
    cases hcommand : acl'.command path argv with
    | none =>
        rw [hcommand] at hnames
        left
        exact ⟨location, acl', hacl', hnames⟩
    | some result =>
        rw [hcommand] at hnames
        rcases FileAcl.names_command hargv hcommand hnames with hold | hnew
        · left
          exact ⟨location, acl', hacl', hold⟩
        · right
          apply hnew
  · left
    exact ⟨location, acl, hacl, hnames⟩

/-! ### Names and numbers in the tables -/

namespace SharesWorld

/-- The users or the groups of the tables, by name and number. -/
def accounts (w : SharesWorld) : PrincipalKind → List (String × ℤ)
  | .user => w.users.map fun user => (user.username, user.uid)
  | .group => w.groups.map fun group => (group.name, group.gid)

/-- Every permission names a user or a group of the tables, and every entry of a list has the number of
one. -/
structure Linked (w : SharesWorld) : Prop where
  rows : ∀ p ∈ w.permissions, ∃ number, (p.principal, number) ∈ w.accounts p.principalType
  entries : ∀ kind (id : ℕ), w.directories.Names (kind.toPrincipal id) →
    ∃ name, (name, (id : ℤ)) ∈ w.accounts kind

/-- Every entry that a job waits to set has such a number, too. -/
structure LinkedInv (w : SharesWorld) : Prop extends Linked w where
  jobs : ∀ job ∈ w.jobs, ∀ e ∈ job.2, ∃ name, (name, e.numericId) ∈ w.accounts e.kind

/-- No permission names the user or group, no list has an entry for it, and no waiting job sets one. -/
structure Unused (w : SharesWorld) (kind : PrincipalKind) (account : String × ℤ) : Prop where
  rows : ∀ p ∈ w.permissions, p.principalType = kind → p.principal ≠ account.1
  entries : ∀ id : ℕ, w.directories.Names (kind.toPrincipal id) → (id : ℤ) ≠ account.2
  jobs : ∀ job ∈ w.jobs, ∀ e ∈ job.2, e.kind = kind → e.numericId ≠ account.2

/-- Every user and group that a step takes out of the tables is unused before the step. -/
def Spares (settings : SharesSettings) (w : SharesWorld) (label : SharesLabel) : Prop :=
  ∀ w', step settings w label = some w' →
    ∀ kind, ∀ account ∈ w.accounts kind, account ∉ w'.accounts kind → w.Unused kind account

/-- What adds no permission, names nobody new and adds no job keeps the links, when every account that it
takes out of the tables is unused. -/
theorem LinkedInv.of_subset {w w' : SharesWorld} (h : w.LinkedInv)
    (hrows : ∀ p ∈ w'.permissions, p ∈ w.permissions)
    (hnames : ∀ principal, w'.directories.Names principal → w.directories.Names principal)
    (hjobs : ∀ job ∈ w'.jobs, job ∈ w.jobs)
    (haccounts : ∀ kind, ∀ account ∈ w.accounts kind,
      account ∈ w'.accounts kind ∨ w.Unused kind account) :
  w'.LinkedInv
  := by
  constructor
  · constructor
    · intro p hp
      obtain ⟨number, hnumber⟩ := h.rows p (hrows p hp)
      use number
      rcases haccounts _ _ hnumber with hstays | hunused
      · apply hstays
      · apply absurd rfl (hunused.rows p (hrows p hp) rfl)
    · intro kind id hid
      obtain ⟨name, hname⟩ := h.entries kind id (hnames _ hid)
      use name
      rcases haccounts _ _ hname with hstays | hunused
      · apply hstays
      · apply absurd rfl (hunused.entries id (hnames _ hid))
  · intro job hjob e he
    obtain ⟨name, hname⟩ := h.jobs job (hjobs job hjob) e he
    use name
    rcases haccounts _ _ hname with hstays | hunused
    · apply hstays
    · apply absurd rfl (hunused.jobs job (hjobs job hjob) e he rfl)

/-! ### Operations that keep the links -/

/-- An operation takes no account out of the tables, and links to accounts among some only. -/
def Sound (accounts : PrincipalKind → List (String × ℤ)) : SharesOp → Prop
  | .users (.updateUser _ _) => False
  | .users (.deleteUser _) => False
  | .deleteGroup _ => False
  | .acl (.run argv) =>
      ∃ entries, Replaces entries argv ∧ ∀ e ∈ entries, ∃ name, (name, e.numericId) ∈ accounts e.kind
  | .submit _ entries => ∀ e ∈ entries, ∃ name, (name, e.numericId) ∈ accounts e.kind
  | .replacePermissions _ rows => ∀ p ∈ rows, ∃ number, (p.principal, number) ∈ accounts p.principalType
  | _ => True

/-- The links hold, and some accounts are in the tables. -/
structure LinkedWith (accounts : PrincipalKind → List (String × ℤ)) (w : SharesWorld) : Prop
    extends LinkedInv w where
  among : ∀ kind, ∀ account ∈ accounts kind, account ∈ w.accounts kind

/-- The step lemma of the links for a sound operation. -/
theorem LinkedWith.changed {accounts : PrincipalKind → List (String × ℤ)} {w w' : SharesWorld}
    {op : SharesOp} (h : LinkedWith accounts w) (hop : Sound accounts op) (hchanged : w.Changed op w') :
  LinkedWith accounts w'
  := by
  have hgrows : ∀ {w' : SharesWorld}, (∀ p ∈ w'.permissions, p ∈ w.permissions) →
      (∀ principal, w'.directories.Names principal → w.directories.Names principal) →
      (∀ job ∈ w'.jobs, job ∈ w.jobs) →
      (∀ kind, ∀ account ∈ w.accounts kind, account ∈ w'.accounts kind) → LinkedWith accounts w' := by
    intro w' hrows hnames hjobs haccounts
    constructor
    · apply h.of_subset hrows hnames hjobs
      intro kind account haccount
      left
      apply haccounts kind account haccount
    · intro kind account haccount
      apply haccounts kind account (h.among kind account haccount)
  cases hchanged with
  | same => apply h
  | addUser user hnew =>
      refine hgrows (fun _ h => h) (fun _ h => h) (fun _ h => h) ?_
      rintro (_ | _) account haccount
      · rw [SharesWorld.accounts, List.map_append]
        apply List.mem_append_left _ haccount
      · apply haccount
  | updateUser user notification => cases hop
  | deleteUser user => cases hop
  | addGroup group hnew =>
      refine hgrows (fun _ h => h) (fun _ h => h) (fun _ h => h) ?_
      rintro (_ | _) account haccount
      · apply haccount
      · rw [SharesWorld.accounts, List.map_append]
        apply List.mem_append_left _ haccount
  | deleteGroup group => cases hop
  | addShare name volumeId path description hnew =>
      exact hgrows (fun _ h => h) (fun _ h => h) (fun _ h => h) (fun _ _ h => h)
  | deleteShare share =>
      exact hgrows (fun _ h => List.mem_of_mem_filter h) (fun _ h => h) (fun _ h => h) (fun _ _ h => h)
  | replacePermissions shareId rows =>
      refine ⟨⟨⟨?_, h.entries⟩, h.jobs⟩, h.among⟩
      intro p hp
      rcases List.mem_append.mp hp with hold | hnew
      · apply h.rows p (List.mem_of_mem_filter hold)
      · obtain ⟨number, hnumber⟩ := hop p hnew
        exact ⟨number, h.among _ _ hnumber⟩
  | makedirs path steps =>
      exact hgrows (fun _ h => h) (fun _ h => Directories.names_make h) (fun _ h => h) (fun _ _ h => h)
  | chmod path mode =>
      exact hgrows (fun _ h => h) (fun _ h => Directories.names_chmod h) (fun _ h => h) (fun _ _ h => h)
  | rmtree path removed =>
      exact hgrows (fun _ h => h) (fun _ h => Directories.names_remove h) (fun _ h => h) (fun _ _ h => h)
  | command argv =>
      obtain ⟨entries, hargv, hentries⟩ := hop
      refine ⟨⟨⟨h.rows, ?_⟩, h.jobs⟩, h.among⟩
      intro kind id hid
      rcases Directories.names_command hargv hid with hold | ⟨e, he, hnonneg, hprincipal⟩
      · apply h.entries kind id hold
      · obtain ⟨name, hname⟩ := hentries e he
        obtain ⟨hkind, hnumber⟩ := Prod.mk.inj ((AclEntry.principal_eq_iff hnonneg kind id).mp hprincipal)
        use name
        rw [← hkind, ← hnumber]
        apply h.among _ _ hname
  | submit path entries =>
      refine ⟨⟨⟨h.rows, h.entries⟩, ?_⟩, h.among⟩
      intro job hjob e he
      rcases List.mem_append.mp hjob with hold | hnew
      · apply h.jobs job hold e he
      · cases List.mem_singleton.mp hnew
        obtain ⟨name, hname⟩ := hop e he
        exact ⟨name, h.among _ _ hname⟩
  | config op conf =>
      exact hgrows (fun _ h => h) (fun _ h => h) (fun _ h => h) (fun _ _ h => h)

/-- What awaits sound operations keeps the links. -/
theorem LinkedWith.execute {α : Type} {accounts : PrincipalKind → List (String × ℤ)}
    {c : Coroutine SharesOp SharesOp.Answer α} (hc : c.Awaits (Sound accounts)) {w : SharesWorld}
    (h : LinkedWith accounts w) (choices : List SharesChoice) :
  LinkedWith accounts (c.execute serve (w, choices)).2.1
  := hc.execute (I := fun s : SharesWorld × List SharesChoice => LinkedWith accounts s.1)
    (fun s op hop hs => hs.changed hop (changed_serve s op)) h

end SharesWorld

namespace SharesWorld

section

variable {α : Type} {accounts : PrincipalKind → List (String × ℤ)} (settings : SharesSettings)

/-- A sound operation about accounts. -/
theorem sound_users {op : UsersOp} (h : op.Reads ∨ ∃ user, op = .addUser user) :
  Sound accounts (.users op)
  := by
  cases op with
  | updateUser user notification =>
      rcases h with h | ⟨user', h⟩
      all_goals cases h
  | deleteUser user =>
      rcases h with h | ⟨user', h⟩
      all_goals cases h
  | _ => trivial

/-- A part of a request that adds accounts, or none, is sound. -/
theorem sound_ofUsers {c : UsersM α}
    (hc : c.run.Awaits fun op => op.Reads ∨ ∃ user, op = .addUser user) :
  (SharesM.ofUsers c).run.Awaits (Sound accounts)
  := awaits_usersPart hc fun _ hop => sound_users hop

/-- Commands of `replace_all` whose entries are for accounts among some are sound. -/
theorem sound_setPermissions {path : String} {entries : List AclEntry} {recursive : Bool}
    (hentries : ∀ e ∈ entries, ∃ name, (name, e.numericId) ∈ accounts e.kind) :
  (SharesM.ofAcl (SharesHandlers.setPermissions path entries recursive)).run.Awaits (Sound accounts)
  := by
  have hreplace : ∀ recursive, (SetfaclAcl.replaceAll path entries recursive).run.Awaits
      fun op => Sound accounts (.acl op) := by
    have hrun : ∀ args, Replaces entries ("setfacl" :: args) → (SetfaclAcl.run args).run.Awaits
        fun op => Sound accounts (.acl op) := by
      intro args hargs
      apply Coroutine.awaits_exceptT_bind
      · exact ⟨⟨entries, hargs, hentries⟩, fun _ => trivial⟩
      · intro result
        apply Async.awaits_raiseIf
    intro recursive
    apply Coroutine.awaits_exceptT_bind
    · apply hrun _ ⟨path, recursive, Or.inl rfl⟩
    · intro _
      apply hrun _ ⟨path, recursive, Or.inr rfl⟩
  apply awaits_ofAcl (P := fun op => Sound accounts (.acl op)) _ fun _ hop => hop
  rw [SharesHandlers.setPermissions]
  split
  · rw [AclSave.job_run]
    constructor
    · trivial
    · intro _
      apply Coroutine.Awaits.bind
      · apply Coroutine.awaits_tryCatch (hreplace true)
        intro e
        cases e
        all_goals trivial
      · intro result
        exact ⟨trivial, fun _ => trivial⟩
  · apply Coroutine.awaits_tryCatch (hreplace false)
    intro e
    cases e
    all_goals trivial

end

/-! ### The links in every run -/

/-- An operation that is about no account, no list and no permission. -/
def Plain : SharesOp → Prop
  | .users _ => False
  | .addGroup _ => False
  | .deleteGroup _ => False
  | .acl _ => False
  | .submit _ _ => False
  | .replacePermissions _ _ => False
  | _ => True

section

variable {P : SharesOp → Prop} (hP : ∀ op, Plain op → P op) (settings : SharesSettings)
include hP

omit hP in
/-- Plain operations are sound. -/
theorem sound_of_plain {accounts : PrincipalKind → List (String × ℤ)} {op : SharesOp} (h : Plain op) :
  Sound accounts op
  := by
  cases op with
  | users op => cases h
  | deleteGroup group => cases h
  | acl op => cases h
  | submit path entries => cases h
  | replacePermissions shareId rows => cases h
  | _ => trivial

/-- Making the directory of a new share awaits plain operations. -/
theorem plain_create (sandboxed : Bool) (path : String) :
  (SharesHandlers.create sandboxed path).run.Awaits P
  := by
  have hgroup : (SharesHandlers.directoryGroup sandboxed).run.Awaits P := by
    cases sandboxed with
    | true => trivial
    | false =>
        constructor
        · exact hP _ trivial
        · rintro (_ | gid)
          all_goals trivial
  constructor
  · exact hP _ trivial
  · intro found
    apply Coroutine.awaits_exceptT_bind (Async.awaits_raiseIf _ _)
    intro _
    apply Coroutine.awaits_exceptT_bind hgroup
    intro gid
    apply Coroutine.awaits_exceptT_bind
    · exact ⟨hP _ trivial, fun _ => trivial⟩
    · intro made
      apply Coroutine.awaits_exceptT_bind (awaits_orSystemError made)
      intro _
      apply Coroutine.awaits_exceptT_bind
      · cases gid with
        | none => trivial
        | some gid =>
            apply Coroutine.awaits_exceptT_bind _ awaits_orSystemError
            exact ⟨hP _ trivial, fun _ => trivial⟩
      · intro _
        apply Coroutine.awaits_exceptT_bind _ awaits_orSystemError
        exact ⟨hP _ trivial, fun _ => trivial⟩

/-- A request for a new share awaits plain operations. -/
theorem plain_createShare (session : Session) (body : ShareCreateRequest) :
  (SharesApi.createShare settings session body).run.Awaits P
  := by
  apply Coroutine.awaits_exceptT_bind (awaits_requireAdmin session)
  intro _
  apply Coroutine.awaits_tryCatch
  · apply Coroutine.awaits_exceptT_bind
    · constructor
      · exact hP _ trivial
      · rintro (_ | volume)
        · trivial
        · apply Coroutine.awaits_exceptT_bind
          · apply Coroutine.awaits_tryCatch
            · apply AgentClient.awaits_call
              intro _
              apply plain_create hP
            · intro e
              cases e
              all_goals trivial
          · intro _
            apply Coroutine.awaits_exceptT_bind
            · exact ⟨hP _ trivial, fun _ => trivial⟩
            · intro share
              apply Coroutine.awaits_exceptT_bind
              · apply awaits_applySambaConfig settings (hP _ trivial)
                exact fun _ => hP _ trivial
              · intro _
                trivial
    · intro share
      apply Coroutine.awaits_exceptT_bind
      · exact ⟨hP _ trivial, fun _ => trivial⟩
      · intro _
        trivial
  · intro e
    cases e
    all_goals trivial

/-- A request to delete a share awaits plain operations. -/
theorem plain_deleteShare (session : Session) (shareId : ℤ) (deleteFiles : Bool) :
  (SharesApi.deleteShare settings session shareId deleteFiles).run.Awaits P
  := by
  apply Coroutine.awaits_exceptT_bind (awaits_requireAdmin session)
  intro _
  constructor
  · exact hP _ trivial
  · rintro (_ | share)
    · trivial
    · apply Coroutine.awaits_tryCatch
      · apply awaits_deleteShare settings share deleteFiles (hP _ trivial) (hP _ trivial) (hP _ trivial)
        exact fun _ => hP _ trivial
      · apply awaits_answer400

end

/-- Permissions that are looked up name accounts of the tables, whose numbers their entries have. -/
theorem ensures_resolveEntries (permissions : List SharesService.Permission)
    (s : SharesWorld × List SharesChoice) :
  (SharesService.resolveEntries permissions).run.Ensures serve (fun _ _ => True)
    (fun result t => t.1 = s.1 ∧ ∀ entries, result = .ok entries →
      (∀ e ∈ entries, ∃ name, (name, e.numericId) ∈ s.1.accounts e.kind)
        ∧ ∀ p ∈ permissions, ∃ number, (p.principal, number) ∈ s.1.accounts p.principalType) s
  := by
  induction permissions generalizing s with
  | nil =>
      use rfl
      rintro entries ⟨⟩
      simp
  | cons p permissions ih =>
      have hresolve : (SharesService.resolveNumericId p.principalType p.principal).run.Ensures serve
          (fun _ _ => True) (fun result t => t.1 = s.1 ∧ ∀ number, result = .ok number →
            (p.principal, number) ∈ s.1.accounts p.principalType) s := by
        obtain ⟨_ | _, principal, level⟩ := p
        · have hfind : ∀ r, s.1.users.find? (fun u => u.username = principal) = r →
              ∀ user, r = some user → (principal, user.uid) ∈ s.1.accounts .user := by
            rintro r hr user rfl
            have hname : user.username = principal := by simpa using List.find?_some hr
            rw [← hname]
            apply List.mem_map_of_mem (List.mem_of_find?_eq_some hr)
          intro _
          generalize hr : (serve s (SharesOp.findUser principal)).1 = r
          cases r with
          | none => exact ⟨rfl, by rintro number ⟨⟩⟩
          | some user =>
              use rfl
              rintro number ⟨⟩
              apply hfind _ hr user rfl
        · have hfind : ∀ r, s.1.groups.find? (fun g => g.name = principal) = r →
              ∀ group, r = some group → (principal, group.gid) ∈ s.1.accounts .group := by
            rintro r hr group rfl
            have hname : group.name = principal := by simpa using List.find?_some hr
            rw [← hname]
            apply List.mem_map_of_mem (List.mem_of_find?_eq_some hr)
          intro _
          generalize hr : (serve s (SharesOp.findGroup principal)).1 = r
          cases r with
          | none => exact ⟨rfl, by rintro number ⟨⟩⟩
          | some group =>
              use rfl
              rintro number ⟨⟩
              apply hfind _ hr group rfl
      apply hresolve.exceptT_bind
      · rintro number t ⟨ht, hnumber⟩
        apply (ih t).exceptT_bind
        · rintro entries t' ⟨ht', hentries⟩
          use ht'.trans ht
          rintro _ ⟨⟩
          obtain ⟨hnumbers, hnames⟩ := hentries entries rfl
          rw [ht] at hnumbers hnames
          exact ⟨List.forall_mem_cons.mpr ⟨⟨_, hnumber number rfl⟩, hnumbers⟩,
            List.forall_mem_cons.mpr ⟨⟨_, hnumber number rfl⟩, hnames⟩⟩
        · rintro e t' ⟨ht', -⟩
          use ht'.trans ht
          rintro entries ⟨⟩
      · rintro e t ⟨ht, -⟩
        use ht
        rintro entries ⟨⟩

/-- Replacing the permissions of a share, once the accounts are looked up, is sound. -/
theorem sound_save {accounts : PrincipalKind → List (String × ℤ)} (settings : SharesSettings)
    (share : Share) {permissions : List SharesService.Permission} {entries : List AclEntry}
    (hnumbers : ∀ e ∈ entries, ∃ name, (name, e.numericId) ∈ accounts e.kind)
    (hnames : ∀ p ∈ permissions, ∃ number, (p.principal, number) ∈ accounts p.principalType)
    (recursive : Bool) :
  (do
    let jobId ← tryCatch
      (AgentClient.call (fun params => pathError params.path) SharesHandlers.submitPermissions
        ⟨share.path, entries, recursive⟩)
      serviceError
    ExceptT.mk (Coroutine.perform
      (SharesOp.replacePermissions share.id (permissions.map (SharesService.Permission.row share.id))))
    let _ ← SharesService.applySambaConfig settings
    pure jobId : SharesM (Option String)).run.Awaits (Sound accounts)
  := by
  apply Coroutine.awaits_exceptT_bind
  · apply Coroutine.awaits_tryCatch
    · apply AgentClient.awaits_call
      intro _
      rw [SharesHandlers.submitPermissions]
      split
      · apply Coroutine.awaits_exceptT_bind
        · exact ⟨hnumbers, fun _ => trivial⟩
        · intro jobId
          trivial
      · apply Coroutine.awaits_exceptT_bind (sound_setPermissions hnumbers)
        intro _
        trivial
    · intro e
      cases e
      all_goals trivial
  · intro jobId
    apply Coroutine.awaits_exceptT_bind
    · refine ⟨?_, fun _ => trivial⟩
      intro row hrow
      obtain ⟨p, hp, rfl⟩ := List.mem_map.mp hrow
      apply hnames p hp
    · intro _
      apply Coroutine.awaits_exceptT_bind (awaits_applySambaConfig settings trivial fun _ => trivial)
      intro _
      trivial

/-- A request that replaces the permissions of a share keeps the links. -/
theorem ensures_setPermissions (settings : SharesSettings) (session : Session) (shareId : ℤ)
    (body : SetPermissionsRequest) {w : SharesWorld} (h : w.LinkedInv) (choices : List SharesChoice) :
  (SharesApi.setPermissions settings session shareId body).run.Ensures serve (fun _ _ => True)
    (fun _ t => t.1.LinkedInv) (w, choices)
  := by
  have hadmin : (SharesM.ofUsers (requireAdmin session)).run.Awaits fun _ => False :=
    awaits_requireAdmin session
  have hkept : (SharesM.ofUsers (requireAdmin session)).run.Ensures serve (fun _ _ => True)
      (fun _ t => t.1.LinkedInv) (w, choices) :=
    hadmin.ensures (I := fun t : SharesWorld × List SharesChoice => t.1.LinkedInv)
      (fun _ _ hop => hop.elim) h
  apply hkept.exceptT_bind
  · intro _ t ht _
    generalize (serve t (SharesOp.getShare shareId)).1 = found
    cases found with
    | none => exact ht
    | some share =>
        have hsave : (SharesService.setSharePermissions settings share body.permissions
            body.recursive).run.Ensures serve (fun _ _ => True) (fun _ t => t.1.LinkedInv)
            (serve t (SharesOp.getShare shareId)).2 := by
          apply (ensures_resolveEntries body.permissions _).exceptT_bind
          · rintro entries u ⟨hu, hentries⟩
            obtain ⟨hnumbers, hnames⟩ := hentries entries rfl
            have hwith : LinkedWith t.1.accounts u.1 := by
              rw [hu]
              exact ⟨ht, fun _ _ h => h⟩
            have hsound := (sound_save settings share hnumbers hnames body.recursive).ensures
              (f := serve) (D := fun _ _ => True)
              (I := fun u : SharesWorld × List SharesChoice => LinkedWith t.1.accounts u.1)
              (fun s op hop hs => hs.changed hop (changed_serve s op)) hwith
            apply hsound.mono
            intro _ u hu
            apply hu.toLinkedInv
          · rintro e u ⟨hu, -⟩
            rw [hu]
            apply ht
        apply hsave.tryCatch
        · intro _ _ h
          exact h
        · intro e u hu
          cases e
          all_goals exact hu
  · intro e t ht
    exact ht

/-- A request to delete an account takes rows out of the users, and changes nothing else. -/
theorem execute_deleteUser (w : SharesWorld) (session : Session) (uid : ℤ) (deleteHome : Bool)
    (choices : List SharesChoice) :
  ∃ users, ((SharesM.ofUsers (UsersApi.deleteUser session uid deleteHome)).run.execute serve
    (w, choices)).2.1 = { w with users }
  := by
  have hawaits := awaits_apiDeleteUser (P := fun op => op.Reads ∨ ∃ user, op = .deleteUser user)
    (fun _ h => Or.inl h) (fun user => Or.inr ⟨user, rfl⟩) session uid deleteHome
  apply (awaits_usersPart (Q := fun op => ∃ op', op = .users op'
    ∧ (op'.Reads ∨ ∃ user, op' = .deleteUser user)) hawaits fun op hop => ⟨op, rfl, hop⟩).execute
    (I := fun s : SharesWorld × List SharesChoice => ∃ users, s.1 = { w with users })
  · rintro s op ⟨op', rfl, -⟩ ⟨users, hs⟩
    have hchanged := changed_serve s (.users op')
    generalize (serve s (SharesOp.users op')).2.1 = w' at hchanged
    cases hchanged with
    | same => use users, hs
    | addUser user hnew => exact ⟨s.1.users ++ [user], by rw [hs]⟩
    | updateUser user notification => exact ⟨_, by rw [hs]⟩
    | deleteUser user => exact ⟨_, by rw [hs]⟩
  · exact ⟨w.users, rfl⟩

/-- A request to delete a group takes rows out of the groups, and changes nothing else. -/
theorem execute_deleteGroup (w : SharesWorld) (session : Session) (gid : ℤ)
    (choices : List SharesChoice) :
  ∃ groups, ((GroupsApi.deleteGroup session gid).run.execute serve (w, choices)).2.1
    = { w with groups }
  := by
  have hawaits : (GroupsApi.deleteGroup session gid).run.Awaits fun op =>
      (∃ op', op = .users op' ∧ op'.Reads) ∨ (∃ gid, op = .getGroup gid)
        ∨ ∃ group, op = .deleteGroup group := by
    apply awaits_deleteGroup
    · intro op hop
      exact Or.inl ⟨op, rfl, hop⟩
    · intro gid
      exact Or.inr (Or.inl ⟨gid, rfl⟩)
    · intro group
      exact Or.inr (Or.inr ⟨group, rfl⟩)
  apply hawaits.execute
    (I := fun s : SharesWorld × List SharesChoice => ∃ groups, s.1 = { w with groups })
  · rintro s op hop ⟨groups, hs⟩
    have hchanged := changed_serve s op
    generalize (serve s op).2.1 = w' at hchanged
    rcases hop with ⟨op', rfl, hreads⟩ | ⟨gid, rfl⟩ | ⟨group, rfl⟩
    · cases hchanged with
      | same => use groups, hs
      | addUser user hnew => cases hreads
      | updateUser user notification => cases hreads
      | deleteUser user => cases hreads
    · cases hchanged with
      | same => use groups, hs
    · cases hchanged with
      | same => use groups, hs
      | deleteGroup group => exact ⟨_, by rw [hs]⟩
  · exact ⟨w.groups, rfl⟩

variable {settings : SharesSettings} {w w' : SharesWorld}

/-- The step lemma of the links. -/
theorem LinkedInv.step (h : w.LinkedInv) {label : SharesLabel} (hspares : Spares settings w label)
    (hstep : (machine settings).step w label = some w') :
  w'.LinkedInv
  := by
  have hwith : LinkedWith w.accounts w := ⟨h, fun _ _ h => h⟩
  have hdeletes : w'.permissions = w.permissions → w'.directories = w.directories → w'.jobs = w.jobs →
      w'.LinkedInv := by
    intro hrows hdirectories hjobs
    apply h.of_subset
    · rw [hrows]
      exact fun _ h => h
    · rw [hdirectories]
      exact fun _ h => h
    · rw [hjobs]
      exact fun _ h => h
    · intro kind account haccount
      by_cases hstays : account ∈ w'.accounts kind
      · left
        exact hstays
      · right
        exact hspares w' hstep kind account haccount hstays
  cases label with
  | event e =>
      cases e with
      | job i choices =>
          obtain ⟨job, hjob, rfl⟩ := Option.map_eq_some_iff.mp hstep
          have hleft : LinkedWith w.accounts { w with jobs := w.jobs.eraseIdx i } :=
            ⟨⟨⟨h.rows, h.entries⟩, fun job hjob => h.jobs job (List.mem_of_mem_eraseIdx hjob)⟩,
              fun _ _ h => h⟩
          apply (hleft.execute (sound_setPermissions (h.jobs job (List.mem_of_getElem? hjob)))
            choices).toLinkedInv
      | register id volume =>
          change (if _ then _ else _) = _ at hstep
          split at hstep
          · cases hstep
            exact ⟨⟨h.rows, h.entries⟩, h.jobs⟩
          · cases hstep
  | request r choices =>
      have hsound : (r.program settings).run.Awaits (Sound w.accounts) → w'.LinkedInv := by
        intro hsound
        cases hstep
        apply (hwith.execute hsound choices).toLinkedInv
      have hforget : ∀ {α : Type} {c : SharesM α}, c.run.Awaits (Sound w.accounts) →
          (c >>= fun _ => pure () : SharesM Unit).run.Awaits (Sound w.accounts) :=
        fun hc => Coroutine.awaits_exceptT_bind hc fun _ => trivial
      cases r with
      | createUser session ip body =>
          apply hsound (hforget (sound_ofUsers _))
          apply awaits_apiCreateUser (fun _ h => Or.inl h) fun user => Or.inr ⟨user, rfl⟩
      | importUser session username description =>
          apply hsound (hforget (sound_ofUsers _))
          apply awaits_apiImportUser (fun _ h => Or.inl h) fun user => Or.inr ⟨user, rfl⟩
      | deleteUser session uid deleteHome =>
          obtain ⟨users, hw⟩ := execute_deleteUser w session uid deleteHome choices
          have hw' : w' = { w with users } := (Option.some.inj hstep).symm.trans hw
          apply hdeletes
          all_goals rw [hw']
      | createGroup session name description =>
          apply hsound (hforget _)
          apply awaits_createGroup (fun op hop => sound_users (Or.inl hop)) fun _ => trivial
      | deleteGroup session gid =>
          obtain ⟨groups, hw⟩ := execute_deleteGroup w session gid choices
          have hw' : w' = { w with groups } := (Option.some.inj hstep).symm.trans hw
          apply hdeletes
          all_goals rw [hw']
      | createShare session body =>
          apply hsound (hforget (plain_createShare (fun _ => sound_of_plain) settings session body))
      | deleteShare session shareId deleteFiles =>
          apply hsound (plain_deleteShare (fun _ => sound_of_plain) settings session shareId deleteFiles)
      | setPermissions session shareId body =>
          cases hstep
          have hensures : ((SharesRequest.setPermissions session shareId body).program settings).run.Ensures
              serve (fun _ _ => True) (fun _ t => t.1.LinkedInv) (w, choices) := by
            apply (ensures_setPermissions settings session shareId body h choices).exceptT_bind
            · intro _ _ ht
              exact ht
            · intro _ _ ht
              exact ht
          exact hensures.execute (Coroutine.executesAlong_true _ _)

/-- No permission is given, no list has a named entry, and no job waits. -/
structure Unshared (w : SharesWorld) : Prop where
  rows : w.permissions = []
  entries : ∀ principal, ¬ w.directories.Names principal
  jobs : w.jobs = []

/-- Nobody but the accounts in the tables has access: no permission names an account that is in no table,
and no list has an entry with its number. -/
def NobodyElse (w : SharesWorld) : Prop :=
  ∀ kind (name : String) (id : ℕ), (∀ account ∈ w.accounts kind, account.1 ≠ name ∧ account.2 ≠ id) →
    (∀ p ∈ w.permissions, p.principalType = kind → p.principal ≠ name)
      ∧ ¬ w.directories.Names (kind.toPrincipal id)

/-- When the links hold, an account that is in no table yet has no access. -/
theorem Linked.nobodyElse (h : w.Linked) :
  w.NobodyElse
  := by
  intro kind name id hnew
  constructor
  · rintro p hp rfl rfl
    obtain ⟨number, hnumber⟩ := h.rows p hp
    apply (hnew _ hnumber).1 rfl
  · intro hnames
    obtain ⟨name', hname⟩ := h.entries kind id hnames
    apply (hnew _ hname).2 rfl

/-- In every run of requests, jobs and registrations that takes an account out of the tables only where it
is unused, every permission and every entry of a list is linked to an account of the tables, and a new
account has no access. -/
theorem principalsLinked_of_run {labels : List SharesLabel} (hw : w.Unshared)
    (hspares : (machine settings).Along (Spares settings) w labels)
    (hrun : (machine settings).run w labels = some w') :
  w'.Linked ∧ w'.NobodyElse
  := by
  have hstart : w.LinkedInv := by
    constructor
    · constructor
      · rw [hw.rows]
        simp
      · intro kind id hid
        exact absurd hid (hw.entries _)
    · rw [hw.jobs]
      simp
  have hinv : w'.LinkedInv := Machine.run_invariant (I := LinkedInv)
    (fun _ _ _ h hspares hstep => h.step hspares hstep) hstart hspares hrun
  exact ⟨hinv.toLinked, hinv.toLinked.nobodyElse⟩

/-! ### A user is deleted who has access -/

/-- A share on a volume, and a user who has no access to it yet. -/
def photosWorld : SharesWorld :=
  { SharesPool.oneVolume with
    users := [⟨1001, "alice", none, true, false, true, true⟩]
    shares := [⟨1, "photos", 1, "/volume1/photos", some "", true⟩]
    directories := fun location =>
      if location ∈ [[], ["volume1".toList], ["volume1".toList, "photos".toList]] then
        some (Directories.newDir none)
      else none }

/-- Nobody has access yet. -/
theorem unshared_photosWorld :
  photosWorld.Unshared
  := by
  refine ⟨rfl, ?_, rfl⟩
  rintro principal ⟨location, acl, hacl, hnames⟩
  simp only [photosWorld] at hacl
  split at hacl
  · cases hacl
    rcases hnames with hmem | ⟨list, ⟨⟩, -⟩
    cases hmem
  · cases hacl

/-- An administrator lets the user read the share. -/
def letAliceRead : SharesLabel :=
  .request (.setPermissions ⟨0, "admin", "admin"⟩ 1 ⟨[⟨.user, "alice", .ro⟩], false⟩) []

/-- An administrator deletes the user. -/
def deleteAlice : SharesLabel :=
  .request (.deleteUser ⟨0, "admin", "admin"⟩ 1001 false) []

/-- A run in which the user is given access. -/
theorem principalsLinked_alice :
  ∃ w, (machine ⟨true, fun _ => ""⟩).run photosWorld [letAliceRead] = some w
    ∧ w.permissions = [⟨1, .user, "alice", .ro⟩] ∧ w.Linked ∧ w.NobodyElse
  := by
  have hrun : ∃ w, (machine ⟨true, fun _ => ""⟩).step photosWorld letAliceRead = some w
      ∧ w.permissions = [⟨1, .user, "alice", .ro⟩] ∧ w.users = photosWorld.users
      ∧ w.groups = photosWorld.groups :=
    ⟨_, rfl, by decide +kernel, by decide +kernel, by decide +kernel⟩
  obtain ⟨w, hstep, hrows, husers, hgroups⟩ := hrun
  have hspares : Spares ⟨true, fun _ => ""⟩ photosWorld letAliceRead := by
    intro w' hstep' kind account haccount hno
    cases hstep.symm.trans hstep'
    apply absurd _ hno
    cases kind with
    | user =>
        rw [accounts, husers]
        exact haccount
    | group =>
        rw [accounts, hgroups]
        exact haccount
  have hrun : (machine ⟨true, fun _ => ""⟩).run photosWorld [letAliceRead] = some w := by
    rw [Machine.run_cons, hstep]
    rfl
  have halong : (machine ⟨true, fun _ => ""⟩).Along (Spares ⟨true, fun _ => ""⟩) photosWorld
      [letAliceRead] := ⟨hspares, fun _ _ => trivial⟩
  exact ⟨w, hrun, hrows, principalsLinked_of_run unshared_photosWorld halong hrun⟩

/-- The user is deleted, and the permission stays. -/
theorem not_linked_deleteAlice :
  ¬ ∀ (settings : SharesSettings) (w w' : SharesWorld) (labels : List SharesLabel), w.Unshared →
      (machine settings).run w labels = some w' → w'.Linked
  := by
  intro h
  have hrun : ∃ w, (machine ⟨true, fun _ => ""⟩).run photosWorld [letAliceRead, deleteAlice] = some w
      ∧ w.permissions = [⟨1, .user, "alice", .ro⟩] ∧ w.users = [] :=
    ⟨_, rfl, by decide +kernel, by decide +kernel⟩
  obtain ⟨w, hrun, hrows, husers⟩ := hrun
  have hlinked := (h _ _ w _ unshared_photosWorld hrun).rows
  rw [hrows] at hlinked
  obtain ⟨number, hnumber⟩ := hlinked _ (List.mem_singleton_self _)
  rw [accounts, husers] at hnumber
  cases hnumber

end SharesWorld
