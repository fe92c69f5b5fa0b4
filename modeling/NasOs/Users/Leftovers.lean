import NasOs.Users.Backends

/-!
# What a failed creation leaves

`users.create` and `groups.create` run one command after the other, and the first of them makes the
account or the group.  When a later one fails, the request fails, and nothing takes the account or the
group away again; the same request then fails at its first command.  An entry of Samba is made by the
last command, so that a request that fails leaves none.
-/

/-- The accounts and the groups of the system. -/
structure SystemWorld extends AccountsWorld where
  groups : List (String × ℤ)

/-- What becomes of a command. -/
inductive CommandOutcome where
  /-- It does what it is for, if it can; what it makes gets an id. -/
  | succeeds (id gid : ℤ) (stdout stderr : String)
  /-- It fails. -/
  | fails (result : CommandResult) (h : result.ok = false)
  /-- It cannot be run. -/
  | raises (e : Exc)

namespace SystemWorld

/-- The gid of a group. -/
def gid? (w : SystemWorld) (name : String) : Option ℤ :=
  w.groups.lookup name

/-- What a command that succeeds makes of the system.  With `userGroups`, `useradd` also makes a group
of the name of the account. -/
def command (userGroups : Bool) (w : SystemWorld) (id gid : ℤ) (stdout : String) :
    List String → Option String → Option SystemWorld
  | ["useradd", "-m", "-d", homeDir, "-s", shell, "-G", groups, "-c", comment, username], none =>
      if userGroups ∧ (w.gid? username).isSome then none
      else
        (w.toAccountsWorld.command id stdout
          ["useradd", "-m", "-d", homeDir, "-s", shell, "-G", groups, "-c", comment, username]
          none).map fun accounts =>
            { toAccountsWorld := accounts
              groups := w.groups ++ if userGroups then [(username, gid)] else [] }
  | ["groupadd", name], none =>
      if (w.gid? name).isSome ∨ gid ∈ w.groups.map Prod.snd then none
      else some { w with groups := w.groups ++ [(name, gid)] }
  | ["getent", "group", name], none => (w.gid? name).map fun _ => w
  | argv, input =>
      (w.toAccountsWorld.command id stdout argv input).map fun accounts =>
        { w with toAccountsWorld := accounts }

/-- An account, an entry of Samba or a group of the name is there in `w'`, and was not there in `w`. -/
def Remains (name : String) (w w' : SystemWorld) : Prop :=
  (w.uid? name = none ∧ w'.uid? name ≠ none) ∨ (w.samba name = none ∧ w'.samba name ≠ none)
    ∨ (w.gid? name = none ∧ w'.gid? name ≠ none)

end SystemWorld

section

variable (userGroups : Bool) (outcome : List String → CommandOutcome)

/-- How the system answers a request.  A command that cannot do what it is for fails, and one that fails
changes nothing.  The agent's requests await nothing but commands and lookups. -/
def respond (w : SystemWorld) : (op : UsersOp) → op.Answer × SystemWorld
  | .run argv input =>
      match outcome argv with
      | .succeeds id gid stdout stderr =>
          match w.command userGroups id gid stdout argv input with
          | some w' => (.ok ⟨0, stdout, stderr⟩, w')
          | none => (.ok ⟨1, "", stderr⟩, w)
      | .fails result _ => (.ok result, w)
      | .raises e => (.error e, w)
  | .getpwnam username => (.ok (w.uid? username), w)
  | .getUser uid => (.ok (w.users.find? uid), w)
  | .addUser _ => (.ok (), w)
  | .updateUser _ _ => (.ok (), w)
  | .deleteUser _ => (.ok (), w)
  | .audit _ => (.ok (), w)

/-- The command succeeds, and makes `w'` of the system. -/
def Succeeds (w : SystemWorld) (argv : List String) (input : Option String) (w' : SystemWorld) : Prop :=
  ∃ id gid stdout stderr, outcome argv = .succeeds id gid stdout stderr
    ∧ w.command userGroups id gid stdout argv input = some w'

/-- A request that makes an account or a group. -/
inductive CreateRequest where
  /-- `users.create`. -/
  | user (params : UserCreateParams)
  /-- `groups.create`. -/
  | group (params : GroupCreateParams)

namespace CreateRequest

/-- The name of what is to be made. -/
def name : CreateRequest → String
  | .user params => params.username
  | .group params => params.name

/-- What the dispatcher does with the request. -/
def handle : CreateRequest → Coroutine UsersOp UsersOp.Answer (Except RpcError (UserInfo ⊕ GroupInfo))
  | .user params =>
      Except.map Sum.inl
        <$> Dispatcher.handle (fun p => usernameError p.username) UsersHandlers.create params
  | .group params =>
      Except.map Sum.inr
        <$> Dispatcher.handle (fun p => groupNameError p.name) GroupsHandlers.create params

/-- The result of the request, and the system after it. -/
def serve (request : CreateRequest) (w : SystemWorld) :
    Except RpcError (UserInfo ⊕ GroupInfo) × SystemWorld :=
  request.handle.execute (respond userGroups outcome) w

/-- The command that makes the account or the group. -/
def firstCommand : CreateRequest → List String
  | .user params =>
      ["useradd", "-m", "-d", "/home/" ++ params.username, "-s", "/sbin/nologin", "-G", "nasos-users",
        "-c", params.description, params.username]
  | .group params => ["groupadd", params.name]

/-- The request is valid, and its first command succeeds. -/
def Begins (request : CreateRequest) (w : SystemWorld) : Prop :=
  usernameRe request.name.toList = true
    ∧ ∃ w', Succeeds userGroups outcome w request.firstCommand none w'

/-- What the request is to make is there, and no entry of Samba was made. -/
def Made (w w' : SystemWorld) : CreateRequest → Prop
  | .user params => (w'.uid? params.username).isSome = true ∧ w'.samba = w.samba
  | .group params => (w'.gid? params.name).isSome = true ∧ w'.samba = w.samba

end CreateRequest

end

/-! ### The commands -/

section

variable {userGroups : Bool} {outcome : List String → CommandOutcome} {w w' : SystemWorld} {id gid : ℤ}
  {stdout : String}

/-- A name that is looked up in a table is found after a row of the name was added. -/
theorem isSome_lookup_append {κ α : Type} [BEq κ] [LawfulBEq κ] (l : List (κ × α)) (k : κ) (a : α) :
  ((l ++ [(k, a)]).lookup k).isSome = true
  := by
  rw [List.lookup_append, Option.isSome_or, Bool.or_eq_true]
  right
  simp

/-- `useradd` makes an account that there was not. -/
theorem SystemWorld.of_command_useradd {homeDir comment username : String}
    (h : w.command userGroups id gid stdout ["useradd", "-m", "-d", homeDir, "-s", "/sbin/nologin",
      "-G", "nasos-users", "-c", comment, username] none = some w') :
  w.uid? username = none ∧ (w'.uid? username).isSome = true ∧ w'.samba = w.samba
  := by
  simp only [SystemWorld.command] at h
  split at h
  · cases h
  · obtain ⟨accounts, haccounts, rfl⟩ := Option.map_eq_some_iff.mp h
    simp only [AccountsWorld.command] at haccounts
    split at haccounts
    · cases haccounts
    · rename_i hnew
      cases haccounts
      refine ⟨?_, ?_, rfl⟩
      · rw [not_or, Bool.not_eq_true, Option.isSome_eq_false_iff, Option.isNone_iff_eq_none] at hnew
        apply hnew.1
      · apply isSome_lookup_append

/-- `groupadd` makes a group that there was not. -/
theorem SystemWorld.of_command_groupadd {name : String}
    (h : w.command userGroups id gid stdout ["groupadd", name] none = some w') :
  w.gid? name = none ∧ (w'.gid? name).isSome = true ∧ w'.samba = w.samba
  := by
  simp only [SystemWorld.command] at h
  split at h
  · cases h
  · rename_i hnew
    cases h
    refine ⟨?_, ?_, rfl⟩
    · rw [not_or, Bool.not_eq_true, Option.isSome_eq_false_iff, Option.isNone_iff_eq_none] at hnew
      apply hnew.1
    · apply isSome_lookup_append

/-- `chpasswd` makes no account and no entry of Samba. -/
theorem AccountsWorld.of_chpasswd {a a' : AccountsWorld} {stdin : String}
    (h : a.chpasswd stdin = some a') :
  a'.accounts = a.accounts ∧ a'.samba = a.samba
  := by
  rw [chpasswd] at h
  generalize chpasswdRecords stdin = records at h
  induction records generalizing a with
  | nil =>
      cases h
      exact ⟨rfl, rfl⟩
  | cons record records ih =>
      rw [List.foldlM_cons] at h
      obtain ⟨a₁, hrecord, hrest⟩ := Option.bind_eq_some_iff.mp h
      obtain ⟨entry, -, hentry⟩ := Option.bind_eq_some_iff.mp hrecord
      obtain ⟨uid, -, rfl⟩ := Option.map_eq_some_iff.mp hentry
      apply ih hrest

/-- `chpasswd` leaves the names as they are. -/
theorem SystemWorld.of_command_chpasswd {stdin : String}
    (h : w.command userGroups id gid stdout ["chpasswd"] (some stdin) = some w') :
  w'.accounts = w.accounts ∧ w'.samba = w.samba
  := by
  obtain ⟨accounts, haccounts, rfl⟩ := Option.map_eq_some_iff.mp h
  apply AccountsWorld.of_chpasswd haccounts

/-- `id` changes nothing. -/
theorem SystemWorld.of_command_id {username : String}
    (h : w.command userGroups id gid stdout ["id", "-u", username] none = some w') :
  w' = w
  := by
  obtain ⟨accounts, haccounts, rfl⟩ := Option.map_eq_some_iff.mp h
  change ((w.uid? username).bind fun uid =>
    if Text.int stdout.strip.toList = some uid then some w.toAccountsWorld else none) = some accounts
    at haccounts
  obtain ⟨_, -, haccounts⟩ := Option.bind_eq_some_iff.mp haccounts
  split at haccounts
  · cases haccounts
    rfl
  · cases haccounts

/-- `getent` changes nothing. -/
theorem SystemWorld.of_command_getent {name : String}
    (h : w.command userGroups id gid stdout ["getent", "group", name] none = some w') :
  w' = w
  := by
  obtain ⟨_, -, rfl⟩ := Option.map_eq_some_iff.mp h
  rfl

end

/-! ### How far a request comes -/

namespace CreateRequest

section

variable {userGroups : Bool} {outcome : List String → CommandOutcome}

/-- What is known when a request ends: if it returned, its first command succeeded; if it failed, the
first command succeeded and what it made is there, or it did not and nothing has changed. -/
def EndsFrom {ε α : Type} (w : SystemWorld) (request : CreateRequest) (began : Prop) :
    Except ε α → SystemWorld → Prop
  | .ok _, _ => began
  | .error _, w' => (¬ began ∧ w' = w) ∨ (began ∧ request.Made w w')

/-- Running a command: it succeeds, or nothing changes. -/
theorem ensures_runner {w : SystemWorld} {argv : List String} {input : Option String}
    {Q : Except Exc CommandResult → SystemWorld → Prop}
    (hok : ∀ result w', result.ok = true → Succeeds userGroups outcome w argv input w' →
      Q (.ok result) w')
    (hfailed : ∀ result, result.ok = false → (¬ ∃ w', Succeeds userGroups outcome w argv input w') →
      Q (.ok result) w)
    (hraised : ∀ e, (¬ ∃ w', Succeeds userGroups outcome w argv input w') → Q (.error e) w) :
  (Runner.run argv input).run.Ensures (respond userGroups outcome) (fun _ _ => True) Q w
  := by
  intro _
  rw [Coroutine.Ensures, respond]
  cases houtcome : outcome argv with
  | succeeds id gid stdout stderr =>
      cases hcommand : w.command userGroups id gid stdout argv input with
      | some w' =>
          simp only [hcommand]
          apply hok
          · rfl
          · exact ⟨id, gid, stdout, stderr, houtcome, hcommand⟩
      | none =>
          simp only [hcommand]
          apply hfailed
          · rfl
          · rintro ⟨w', id', gid', stdout', stderr', houtcome', hcommand'⟩
            rw [houtcome] at houtcome'
            cases houtcome'
            rw [hcommand] at hcommand'
            cases hcommand'
  | fails result h =>
      apply hfailed result h
      rintro ⟨w', id, gid, stdout, stderr, houtcome', -⟩
      rw [houtcome] at houtcome'
      cases houtcome'
  | raises e =>
      apply hraised
      rintro ⟨w', id, gid, stdout, stderr, houtcome', -⟩
      rw [houtcome] at houtcome'
      cases houtcome'

/-- Running a command that must succeed. -/
theorem ensures_run {w : SystemWorld} {argv : List String} {error : String} {input : Option String}
    {Q : Except Exc Unit → SystemWorld → Prop}
    (hok : ∀ w', Succeeds userGroups outcome w argv input w' → Q (.ok ()) w')
    (hfailed : ∀ e, (¬ ∃ w', Succeeds userGroups outcome w argv input w') → Q (.error e) w) :
  (RealPosixUsers.run argv error input).run.Ensures (respond userGroups outcome) (fun _ _ => True) Q w
  := by
  rw [RealPosixUsers.run, ExceptT.run_bind]
  apply Coroutine.Ensures.bind (Q := fun a t =>
    (∃ result, a = .ok result ∧ result.ok = true ∧ Succeeds userGroups outcome w argv input t)
      ∨ (∃ result, a = .ok result ∧ result.ok = false ∧ Q (.error (.adapterError
          (result.stderr.strip.orElse error))) t)
      ∨ ∃ e, a = .error e ∧ Q (.error e) t)
  · apply ensures_runner
    · intro result w' hresult hsucceeds
      left
      exact ⟨result, rfl, hresult, hsucceeds⟩
    · intro result hresult hnone
      right
      left
      exact ⟨result, rfl, hresult, hfailed _ hnone⟩
    · intro e hnone
      right
      right
      exact ⟨e, rfl, hfailed e hnone⟩
  · rintro _ t (⟨result, rfl, hresult, hsucceeds⟩ | ⟨result, rfl, hresult, hQ⟩ | ⟨e, rfl, hQ⟩)
    · change (Async.raiseIf _ _).run.Ensures _ _ _ _
      rw [Async.raiseIf, if_neg (by simp [hresult])]
      apply hok t hsucceeds
    · change (Async.raiseIf _ _).run.Ensures _ _ _ _
      rw [Async.raiseIf, if_pos (by simp [hresult])]
      apply hQ
    · apply hQ

/-- What is known between the commands: the first one succeeded, and what it made is there. -/
def Goes {ε α : Type} (w : SystemWorld) (request : CreateRequest) (began : Prop) :
    Except ε α → SystemWorld → Prop
  | .ok _, t => began ∧ request.Made w t
  | .error e, t => EndsFrom w request began (.error e : Except ε α) t

variable {w t : SystemWorld} {request : CreateRequest} {began : Prop} {α β : Type}

/-- A part of a request that ends where the request goes on is followed by the rest. -/
theorem goes_bind {c : UsersM α} {g : α → UsersM β}
    (hc : c.run.Ensures (respond userGroups outcome) (fun _ _ => True) (Goes w request began) t)
    (hg : ∀ a t', began → request.Made w t' →
      (g a).run.Ensures (respond userGroups outcome) (fun _ _ => True) (Goes w request began) t') :
  (c >>= g).run.Ensures (respond userGroups outcome) (fun _ _ => True) (Goes w request began) t
  := by
  apply hc.exceptT_bind
  · rintro a t' ⟨hbegan, hmade⟩
    apply hg a t' hbegan hmade
  · rintro e t' h
    apply h

/-- The first command. -/
theorem goes_first {error : String}
    (hmakes : ∀ w', Succeeds userGroups outcome w request.firstCommand none w' → request.Made w w') :
  (RealPosixUsers.run request.firstCommand error none).run.Ensures (respond userGroups outcome)
    (fun _ _ => True)
    (Goes w request (∃ w', Succeeds userGroups outcome w request.firstCommand none w')) w
  := by
  apply ensures_run
  · intro w' hsucceeds
    exact ⟨⟨w', hsucceeds⟩, hmakes w' hsucceeds⟩
  · intro e hnone
    left
    exact ⟨hnone, rfl⟩

/-- A command that keeps what the first one made. -/
theorem goes_run {argv : List String} {error : String} {input : Option String} (hbegan : began)
    (hmade : request.Made w t)
    (hkeeps : ∀ t', Succeeds userGroups outcome t argv input t' → request.Made w t') :
  (RealPosixUsers.run argv error input).run.Ensures (respond userGroups outcome) (fun _ _ => True)
    (Goes w request began) t
  := by
  apply ensures_run
  · intro t' hsucceeds
    exact ⟨hbegan, hkeeps t' hsucceeds⟩
  · intro e _
    right
    exact ⟨hbegan, hmade⟩

/-- A command whose output is read, and what is done with it. -/
theorem goes_read {argv : List String} {g : CommandResult → UsersM β} (hbegan : began)
    (hmade : request.Made w t)
    (hsame : ∀ t', Succeeds userGroups outcome t argv none t' → t' = t)
    (hg : ∀ result, (g result).run.Ensures (respond userGroups outcome) (fun _ _ => True)
      (Goes w request began) t) :
  (Runner.run argv none >>= g).run.Ensures (respond userGroups outcome) (fun _ _ => True)
    (Goes w request began) t
  := by
  apply Coroutine.Ensures.exceptT_bind (Q := fun _ t' => t' = t)
  · apply ensures_runner
    · intro result t' _ hsucceeds
      apply hsame t' hsucceeds
    · intro result _ _
      rfl
    · intro e _
      rfl
  · rintro result t' rfl
    apply hg
  · rintro e t' rfl
    right
    exact ⟨hbegan, hmade⟩

/-- Something is raised between the commands. -/
theorem goes_throw {e : Exc} (hbegan : began) (hmade : request.Made w t) :
  (throw e : UsersM α).run.Ensures (respond userGroups outcome) (fun _ _ => True)
    (Goes w request began) t
  := by
  right
  exact ⟨hbegan, hmade⟩

/-- What is known while a request goes on is known when it ends. -/
theorem Goes.ends {ε : Type} {r : Except ε α} (h : Goes w request began r t) :
  EndsFrom w request began r t
  := by
  cases r with
  | ok a => apply h.1
  | error e => apply h

/-- What ends a request, after a part where it goes on. -/
theorem endsFrom_bind {c : UsersM α} {g : α → UsersM β}
    (hc : c.run.Ensures (respond userGroups outcome) (fun _ _ => True) (Goes w request began) t)
    (hg : ∀ a t', began → request.Made w t' →
      (g a).run.Ensures (respond userGroups outcome) (fun _ _ => True) (EndsFrom w request began) t') :
  (c >>= g).run.Ensures (respond userGroups outcome) (fun _ _ => True) (EndsFrom w request began) t
  := by
  apply hc.exceptT_bind
  · rintro a t' ⟨hbegan, hmade⟩
    apply hg a t' hbegan hmade
  · rintro e t' h
    apply h

/-- The last command. -/
theorem endsFrom_last {argv : List String} {error : String} {input : Option String} {a : α}
    (hbegan : began) (hmade : request.Made w t) :
  (RealPosixUsers.run argv error input >>= fun _ => pure a).run.Ensures
    (respond userGroups outcome) (fun _ _ => True) (EndsFrom w request began) t
  := by
  apply Coroutine.Ensures.exceptT_bind (Q := EndsFrom w request began)
  · apply ensures_run
    · intro t' _
      apply hbegan
    · intro e _
      right
      exact ⟨hbegan, hmade⟩
  · intro _ t' h
    apply h
  · intro e t' h
    apply h

/-- An error of the adapter becomes one of the handler. -/
theorem endsFrom_handler {c : UsersM α} {g : α → β}
    (hc : c.run.Ensures (respond userGroups outcome) (fun _ _ => True) (EndsFrom w request began) t) :
  (tryCatch c (raiseAs "system_error") >>= fun a => pure (g a)).run.Ensures
    (respond userGroups outcome) (fun _ _ => True) (EndsFrom w request began) t
  := by
  apply Coroutine.Ensures.exceptT_bind (Q := EndsFrom w request began)
  · apply hc.tryCatch
    · intro a t' h
      apply h
    · intro e t' h
      cases e
      all_goals apply h
  · intro a t' h
    apply h
  · intro e t' h
    apply h

/-- What is known when `users.create` ends. -/
theorem endsFrom_createUser (params : UserCreateParams) (w : SystemWorld) :
  (UsersHandlers.create params).run.Ensures (respond userGroups outcome) (fun _ _ => True)
    (EndsFrom w (.user params)
      (∃ w', Succeeds userGroups outcome w (firstCommand (.user params)) none w')) w
  := by
  apply endsFrom_handler
  apply endsFrom_bind
  · apply goes_bind
    · apply goes_first
      rintro w' ⟨id, gid, stdout, stderr, -, hcommand⟩
      obtain ⟨-, hmade⟩ := SystemWorld.of_command_useradd hcommand
      apply hmade
    · intro _ t hbegan hmade
      apply goes_read hbegan hmade
      · rintro t' ⟨id, gid, stdout, stderr, -, hcommand⟩
        apply SystemWorld.of_command_id hcommand
      · intro result
        apply Async.ensures_raiseIf_bind
        · intro _
          right
          exact ⟨hbegan, hmade⟩
        · intro _
          split
          · exact ⟨hbegan, hmade⟩
          · apply goes_throw hbegan hmade
  · intro uid t hbegan hmade
    apply endsFrom_bind
    · apply goes_run hbegan hmade
      rintro t' ⟨id, gid, stdout, stderr, -, hcommand⟩
      obtain ⟨haccounts, hsamba⟩ := SystemWorld.of_command_chpasswd hcommand
      constructor
      · rw [AccountsWorld.uid?, haccounts]
        apply hmade.1
      · rw [hsamba]
        apply hmade.2
    · intro _ t' hbegan' hmade'
      apply endsFrom_last hbegan' hmade'

/-- What is known when `groups.create` ends. -/
theorem endsFrom_createGroup (params : GroupCreateParams) (w : SystemWorld) :
  (GroupsHandlers.create params).run.Ensures (respond userGroups outcome) (fun _ _ => True)
    (EndsFrom w (.group params)
      (∃ w', Succeeds userGroups outcome w (firstCommand (.group params)) none w')) w
  := by
  apply endsFrom_handler
  apply Coroutine.Ensures.mono _ fun _ _ h => Goes.ends h
  apply goes_bind
  · apply goes_first
    rintro w' ⟨id, gid, stdout, stderr, -, hcommand⟩
    obtain ⟨-, hmade⟩ := SystemWorld.of_command_groupadd hcommand
    apply hmade
  · intro _ t hbegan hmade
    apply goes_read hbegan hmade
    · rintro t' ⟨id, gid, stdout, stderr, -, hcommand⟩
      apply SystemWorld.of_command_getent hcommand
    · intro result
      apply Async.ensures_raiseIf_bind
      · intro _
        right
        exact ⟨hbegan, hmade⟩
      · intro _
        split
        · apply goes_throw hbegan hmade
        · split
          · exact ⟨hbegan, hmade⟩
          · apply goes_throw hbegan hmade

/-- The dispatcher makes an exception of the handler into an error; it runs no handler on a name that is
not valid. -/
theorem endsFrom_handle {P γ : Type} {validationError : P → Option String} {fn : P → UsersM α}
    {params : P} {g : α → γ} {valid : Prop} (hvalid : validationError params = none ↔ valid)
    (hfn : (fn params).run.Ensures (respond userGroups outcome) (fun _ _ => True)
      (EndsFrom w request began) w) :
  (Except.map g <$> Dispatcher.handle validationError fn params).Ensures (respond userGroups outcome)
    (fun _ _ => True) (EndsFrom w request (valid ∧ began)) w
  := by
  rw [map_eq_pure_bind]
  apply Coroutine.Ensures.bind (Q := EndsFrom w request (valid ∧ began))
  · cases hv : validationError params with
    | some message =>
        have hinvalid : ¬ valid := by
          rw [← hvalid, hv]
          rintro ⟨⟩
        simp only [Dispatcher.handle, hv]
        left
        exact ⟨fun h => hinvalid h.1, rfl⟩
    | none =>
        have hv' := hvalid.mp hv
        rw [Dispatcher.handle_of_valid hv]
        apply hfn.bind
        rintro (e | a) t' h
        · rcases h with ⟨hnot, rfl⟩ | ⟨hbegan, hmade⟩
          · left
            exact ⟨fun h => hnot h.2, rfl⟩
          · right
            exact ⟨⟨hv', hbegan⟩, hmade⟩
        · exact ⟨hv', h⟩
  · rintro (e | a) t' h
    · apply h
    · apply h

/-- What is known when a request has ended. -/
theorem endsFrom_serve (request : CreateRequest) (w : SystemWorld) :
  EndsFrom w request (request.Begins userGroups outcome w) (request.serve userGroups outcome w).1
    (request.serve userGroups outcome w).2
  := by
  apply Coroutine.Ensures.execute (D := fun _ _ => True) _ (Coroutine.executesAlong_true _ _)
  cases request with
  | user params =>
      apply endsFrom_handle _ (endsFrom_createUser params w)
      rw [usernameError]
      split
      all_goals simp_all [name]
  | group params =>
      apply endsFrom_handle _ (endsFrom_createGroup params w)
      rw [groupNameError]
      split
      all_goals simp_all [name]

/-- What the first command makes was not there. -/
theorem Begins.isNew {request : CreateRequest} {w : SystemWorld}
    (h : request.Begins userGroups outcome w) :
  match request with
  | .user params => w.uid? params.username = none
  | .group params => w.gid? params.name = none
  := by
  obtain ⟨-, w', id, gid, stdout, stderr, -, hcommand⟩ := h
  cases request with
  | user params => apply (SystemWorld.of_command_useradd hcommand).1
  | group params => apply (SystemWorld.of_command_groupadd hcommand).1

/-- A request for what is there already does not begin. -/
theorem Made.not_begins {request : CreateRequest} {w w' : SystemWorld} (h : request.Made w w') :
  ¬ request.Begins userGroups outcome w'
  := by
  intro hbegins
  have hnew := hbegins.isNew
  cases request with
  | user params =>
      have hmade := h.1
      rw [hnew] at hmade
      cases hmade
  | group params =>
      have hmade := h.1
      rw [hnew] at hmade
      cases hmade

end

/-- When a request to make an account or a group returns an error, something of its name remains that was
not there before exactly if its first command, `useradd` or `groupadd`, succeeded.  No entry of Samba
was made.  If the first command did not succeed, the system is as it was; if it did, the same request
fails from then on. -/
theorem remains_iff (userGroups : Bool) (outcome : List String → CommandOutcome)
    (request : CreateRequest) (w : SystemWorld) {error : RpcError}
    (herror : (request.serve userGroups outcome w).1 = .error error) :
  (w.Remains request.name (request.serve userGroups outcome w).2
      ↔ request.Begins userGroups outcome w)
    ∧ (request.serve userGroups outcome w).2.samba = w.samba
    ∧ (¬ request.Begins userGroups outcome w → (request.serve userGroups outcome w).2 = w)
    ∧ (request.Begins userGroups outcome w → ∀ outcome', ∃ error',
        (request.serve userGroups outcome' (request.serve userGroups outcome w).2).1 = .error error')
  := by
  have hends := @endsFrom_serve userGroups outcome request w
  rw [herror] at hends
  rcases hends with ⟨hnot, hsame⟩ | ⟨hbegins, hmade⟩
  · rw [hsame]
    refine ⟨?_, rfl, fun _ => rfl, fun h => absurd h hnot⟩
    constructor
    · rintro (⟨hnone, hsome⟩ | ⟨hnone, hsome⟩ | ⟨hnone, hsome⟩)
      · apply absurd hnone hsome
      · apply absurd hnone hsome
      · apply absurd hnone hsome
    · intro h
      apply absurd h hnot
  · refine ⟨⟨fun _ => hbegins, fun _ => ?_⟩, ?_, fun h => absurd hbegins h, fun _ outcome' => ?_⟩
    · have hnew := hbegins.isNew
      cases request with
      | user params =>
          left
          exact ⟨hnew, Option.isSome_iff_ne_none.mp hmade.1⟩
      | group params =>
          right
          right
          exact ⟨hnew, Option.isSome_iff_ne_none.mp hmade.1⟩
    · cases request with
      | user params => apply hmade.2
      | group params => apply hmade.2
    · have hagain := @endsFrom_serve userGroups outcome' request
        (request.serve userGroups outcome w).2
      cases hresult : (request.serve userGroups outcome' (request.serve userGroups outcome w).2).1 with
      | error error' => use error'
      | ok a =>
          rw [hresult] at hagain
          apply absurd hagain hmade.not_begins

end CreateRequest

/-- A system without accounts. -/
def emptySystem : SystemWorld where
  accounts := []
  unix _ := none
  samba _ := none
  users := Table.empty
  notifications := []
  groups := []

/-- `chpasswd` does not take the password of a new account. -/
def passwordRefused : List String → CommandOutcome
  | ["chpasswd"] => .fails ⟨1, "", "chpasswd: (user alice) pam_chauthtok() failed"⟩ rfl
  | _ => .succeeds 1001 1001 "1001" ""

/-- A request for an account. -/
def createAlice : CreateRequest :=
  .user ⟨"alice", "hunter2", "Alice"⟩

/-- The request failed. -/
theorem serve_createAlice :
  (createAlice.serve true passwordRefused emptySystem).1
    = .error ⟨"system_error", "chpasswd: (user alice) pam_chauthtok() failed"⟩
  := by
  rfl

theorem remains_createAlice :
  (emptySystem.Remains "alice" (createAlice.serve true passwordRefused emptySystem).2
      ↔ createAlice.Begins true passwordRefused emptySystem)
    ∧ (createAlice.serve true passwordRefused emptySystem).2.samba = emptySystem.samba
  := by
  obtain ⟨hremains, hsamba, -, -⟩ := CreateRequest.remains_iff true passwordRefused createAlice
    emptySystem serve_createAlice
  exact ⟨hremains, hsamba⟩

/-- The account is there after the request failed. -/
theorem alice_remains :
  ¬ ∀ (userGroups : Bool) (outcome : List String → CommandOutcome) (request : CreateRequest)
      (w : SystemWorld) (error : RpcError),
    (request.serve userGroups outcome w).1 = .error error →
    ¬ w.Remains request.name (request.serve userGroups outcome w).2
  := by
  intro h
  apply h true passwordRefused createAlice emptySystem _ serve_createAlice
  left
  constructor
  · rfl
  · rintro ⟨⟩
