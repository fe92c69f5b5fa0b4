import NasOs.Acl.Commands
import NasOs.Library.Path
import NasOs.Library.Protocol
import NasOs.Shares.Awaits
import NasOs.Shares.World

/-!
# Where the directories of shares are

The directory of a share is found under the name of the share below the mountpoint of its volume.  Any text
can be a name, so that the path may go through further directories, or up.

When requests are served at the same time, the directories that the agent makes, the paths in the table of
the shares and the paths at which the agent later changes something are direct children of mountpoints
exactly when each name under which the agent makes a directory is one component of a path.
-/

/-- The path at which an operation changes something. -/
def SharesOp.target : SharesOp → Option String
  | .makedirs path => some path
  | .chown path _ => some path
  | .chmod path _ => some path
  | .rmtree path => some path
  | .submit path _ => some path
  | .acl (.run argv) => argv.getLast?
  | _ => none

/-- The body of a request for a new share. -/
def SharesRequest.creates : SharesRequest → Option ShareCreateRequest
  | .createShare _ body => some body
  | _ => none

namespace SharesWorld

/-- The path is found under a name below the mountpoint of a volume. -/
def Below (w : SharesWorld) (volumeId : ℤ) (name path : String) : Prop :=
  ∃ volume, w.volumes.lookup volumeId = some volume ∧ path = volume.mountpoint ++ "/" ++ name

/-- The path is a direct child of the mountpoint of a volume. -/
def IsChild (w : SharesWorld) (volumeId : ℤ) (path : String) : Prop :=
  ∃ volume, w.volumes.lookup volumeId = some volume ∧ Path.DirectChild volume.mountpoint path

/-- What is found under a name is a direct child exactly when the name is one component. -/
theorem Below.isChild_iff {w : SharesWorld} {volumeId : ℤ} {name path : String}
    (h : w.Below volumeId name path) :
  w.IsChild volumeId path ↔ Path.IsComponent name
  := by
  obtain ⟨volume, hlookup, rfl⟩ := h
  constructor
  · rintro ⟨volume', hlookup', hchild⟩
    cases hlookup.symm.trans hlookup'
    apply Path.directChild_iff.mp hchild
  · intro hname
    exact ⟨volume, hlookup, Path.directChild_iff.mpr hname⟩

/-- Every volume that is registered in one world is registered in the other. -/
def Keeps (w w' : SharesWorld) : Prop :=
  ∀ volumeId volume, w.volumes.lookup volumeId = some volume →
    w'.volumes.lookup volumeId = some volume

/-- A path stays where it is as long as volumes are kept. -/
theorem Below.mono {w w' : SharesWorld} {volumeId : ℤ} {name path : String}
    (h : w.Below volumeId name path) (hkeeps : w.Keeps w') :
  w'.Below volumeId name path
  := by
  obtain ⟨volume, hlookup, hpath⟩ := h
  use volume, hkeeps volumeId volume hlookup

/-! ### What operations and events change -/

/-- An operation changes no volume. -/
theorem Changed.volumes_eq {w w' : SharesWorld} {op : SharesOp} (h : w.Changed op w') :
  w'.volumes = w.volumes
  := by
  cases h
  all_goals rfl

/-- A share after an operation was there before, or is the one that it adds. -/
theorem Changed.mem_shares {w w' : SharesWorld} {op : SharesOp} (h : w.Changed op w') {share : Share}
    (hshare : share ∈ w'.shares) :
  share ∈ w.shares ∨ ∃ description, op = .addShare share.name share.volumeId share.path description
  := by
  cases h with
  | addShare name volumeId path description h =>
      rcases List.mem_append.mp hshare with hold | hnew
      · left
        apply hold
      · right
        cases List.mem_singleton.mp hnew
        use description
  | deleteShare share' =>
      left
      apply List.mem_of_mem_filter hshare
  | _ =>
      left
      apply hshare

/-- A job after an operation was there before, or is the one that it submits. -/
theorem Changed.mem_jobs {w w' : SharesWorld} {op : SharesOp} (h : w.Changed op w')
    {job : String × List AclEntry} (hjob : job ∈ w'.jobs) :
  job ∈ w.jobs ∨ op = .submit job.1 job.2
  := by
  cases h with
  | submit path entries =>
      rcases List.mem_append.mp hjob with hold | hnew
      · left
        apply hold
      · right
        cases List.mem_singleton.mp hnew
        rfl
  | _ =>
      left
      apply hjob

/-- An operation on access control lists changes directories only. -/
theorem Changed.of_acl {w w' : SharesWorld} {op : AclOp} (h : w.Changed (.acl op) w') :
  ∃ directories, w' = { w with directories }
  := by
  cases h with
  | same => use w.directories
  | command argv => exact ⟨_, rfl⟩

/-- What happens beside the requests keeps the volumes and the shares, and adds no job. -/
theorem happen_keeps {w w' : SharesWorld} {e : SharesEvent} (h : w.happen e = some w') :
  w.Keeps w' ∧ w'.shares = w.shares ∧ ∀ job ∈ w'.jobs, job ∈ w.jobs
  := by
  cases e with
  | job i choices =>
      obtain ⟨job, hjob, rfl⟩ := Option.map_eq_some_iff.mp h
      have hdirectories : ∃ directories,
          ((permissionsJob job).run.execute serve ({ w with jobs := w.jobs.eraseIdx i }, choices)).2.1
            = { w with jobs := w.jobs.eraseIdx i, directories } := by
        apply Coroutine.Awaits.execute (P := fun op => ∃ op', op = SharesOp.acl op')
          (I := fun s : SharesWorld × List SharesChoice =>
            ∃ directories, s.1 = { w with jobs := w.jobs.eraseIdx i, directories })
        · exact awaits_ofAcl (Coroutine.awaits_of_forall (fun _ => trivial) _)
            fun op (_ : True) => ⟨op, rfl⟩
        · rintro s - ⟨op, rfl⟩ ⟨directories, hs⟩
          obtain ⟨directories', hnext⟩ := (changed_serve s (.acl op)).of_acl
          use directories'
          rw [hnext, hs]
        · exact ⟨_, rfl⟩
      obtain ⟨directories, heq⟩ := hdirectories
      rw [heq]
      exact ⟨fun _ _ h => h, rfl, fun job h => List.mem_of_mem_eraseIdx h⟩
  | register id volume =>
      rw [happen] at h
      split at h
      · cases h
        refine ⟨?_, rfl, fun job h => h⟩
        intro volumeId volume' hlookup
        rw [List.lookup_append, hlookup]
        rfl
      · cases h

end SharesWorld

/-! ### What each request does in which order -/

/-- How far a request has come: it has no path, it has one for a new directory, or it has the path of a
directory. -/
inductive SharesStage where
  | idle
  | planned (path : String)
  | standing (path : String)

/-- The path at which a request may change something. -/
def SharesStage.place : SharesStage → Option String
  | .idle => none
  | .planned _ => none
  | .standing path => some path

/-- A request may change something at a path once it has the path of a directory. -/
theorem SharesStage.place_eq_some {stage : SharesStage} {path : String} :
  stage.place = some path ↔ stage = .standing path
  := by
  cases stage with
  | idle => simp [place]
  | planned path' => simp [place]
  | standing path' => simp [place]

/-- An operation that changes something at a place only, and takes a request no further. -/
def SharesOp.Within (place : Option String) : SharesOp → Prop
  | .getVolume _ => False
  | .getShare _ => False
  | .addShare _ _ _ _ => False
  | .makedirs _ => False
  | op => ∀ path, op.target = some path → place = some path

/-- A request for a new share looks its volume up, has the directory made below the mountpoint, and then
adds the row; any other request looks a share up and changes something at its path. -/
def sharesProtocol (creates : Option ShareCreateRequest) :
    Protocol SharesOp SharesOp.Answer SharesStage where
  allowed stage op :=
    match op with
    | .getVolume volumeId => ∃ body, creates = some body ∧ body.volumeId = volumeId
    | .getShare _ => creates = none
    | .makedirs path => stage = .planned path
    | .addShare name volumeId path _ =>
        stage = .standing path ∧ ∃ body, creates = some body ∧ body.name = name ∧ body.volumeId = volumeId
    | op => op.Within stage.place
  next stage op :=
    match op with
    | .getVolume _ => fun
        | some volume =>
            .planned (volume.mountpoint ++ "/" ++ (creates.map ShareCreateRequest.name).getD "")
        | none => stage
    | .getShare _ => fun
        | some share => .standing share.path
        | none => stage
    | .makedirs path => fun _ => .standing path
    | _ => fun _ => stage

section

variable {α : Type} {place : Option String} {creates : Option ShareCreateRequest}

/-- What stays within the place of a stage obeys the protocol there, and stays at the stage. -/
theorem obeys_of_within (stage : SharesStage) {c : SharesM α}
    (hc : c.run.Awaits (SharesOp.Within stage.place)) :
  c.run.Obeys (sharesProtocol creates) (fun stage' _ => stage' = stage) stage
  := by
  apply Coroutine.Obeys.of_awaits hc
  intro op hop
  cases op with
  | getVolume volumeId => cases hop
  | getShare shareId => cases hop
  | addShare name volumeId path description => cases hop
  | makedirs path => cases hop
  | _ => exact ⟨hop, fun _ => rfl⟩

/-- An operation about accounts stays within every place. -/
theorem within_users (op : UsersOp) :
  (SharesOp.users op).Within place
  := by
  rintro path ⟨⟩

/-- A step on the configuration stays within every place. -/
theorem within_config (op : ConfigOp) :
  (SharesOp.config op).Within place
  := by
  rintro path ⟨⟩

/-- Selecting the shares stays within every place. -/
theorem within_listShares :
  SharesOp.listShares.Within place
  := by
  rintro path ⟨⟩

/-- An operation that changes nothing at a path stays within every place. -/
theorem awaits_ask {op : SharesOp} (hop : op.Within place) :
  (Async.ask op : SharesM op.Answer).run.Awaits (SharesOp.Within place)
  := ⟨hop, fun _ => trivial⟩

/-- Looking up the accounts of permissions stays within every place. -/
theorem awaits_resolveEntries (permissions : List SharesService.Permission) :
  (SharesService.resolveEntries permissions).run.Awaits (SharesOp.Within place)
  := by
  induction permissions with
  | nil => trivial
  | cons p permissions ih =>
      apply Coroutine.awaits_exceptT_bind
      · obtain ⟨_ | _, principal, level⟩ := p
        · constructor
          · rintro path ⟨⟩
          · rintro (_ | user)
            all_goals trivial
        · constructor
          · rintro path ⟨⟩
          · rintro (_ | group)
            all_goals trivial
      · intro numericId
        apply Coroutine.awaits_exceptT_bind ih
        intro entries
        trivial

/-- Replacing the permissions at a path stays within it. -/
theorem awaits_submitPermissions (params : ShareSetPermissionsParams) :
  (SharesHandlers.submitPermissions params).run.Awaits (SharesOp.Within (some params.path))
  := by
  rw [SharesHandlers.submitPermissions]
  split
  · apply Coroutine.awaits_exceptT_bind
    · apply awaits_ask
      rintro path ⟨⟩
      rfl
    · intro jobId
      trivial
  · apply Coroutine.awaits_exceptT_bind
    · apply awaits_ofAcl (P := AclOp.Concerns params.path)
      · apply Coroutine.awaits_tryCatch
        · apply SetfaclAcl.awaits_replaceAll
        · intro e
          cases e
          all_goals trivial
      · intro op hop path hpath
        cases op with
        | run argv => rw [← hpath, ← hop]; rfl
        | acquire resource => cases hop
        | release resource => cases hop
    · intro _
      trivial

/-- Making the directory of a new share stays within its place, once it is made. -/
theorem obeys_create (sandboxed : Bool) (path : String) :
  (SharesHandlers.create sandboxed path).run.Obeys (sharesProtocol creates)
    (fun stage result => ∀ u, result = .ok u → stage = .standing path) (.planned path)
  := by
  have hends : ∀ {stage : SharesStage} {e : Exc} (u : Unit),
      (Except.error e : Except Exc Unit) = .ok u → stage = .standing path := by
    rintro stage e u ⟨⟩
  have hgroup : (SharesHandlers.directoryGroup sandboxed).run.Awaits
      (SharesOp.Within (SharesStage.planned path).place) := by
    cases sandboxed with
    | true => trivial
    | false =>
        constructor
        · rintro path' ⟨⟩
        · rintro (_ | gid)
          all_goals trivial
  have hafter : ∀ gid : Option ℤ, (SharesHandlers.chown path gid >>= fun _ => do
      orSystemError (← Async.ask (SharesOp.chmod path SharesHandlers.shareMode))).run.Awaits
        (SharesOp.Within (SharesStage.standing path).place) := by
    intro gid
    apply Coroutine.awaits_exceptT_bind
    · cases gid with
      | none => trivial
      | some gid =>
          apply Coroutine.awaits_exceptT_bind
          · apply awaits_ask
            rintro path' ⟨⟩
            rfl
          · apply awaits_orSystemError
    · intro _
      apply Coroutine.awaits_exceptT_bind
      · apply awaits_ask
        rintro path' ⟨⟩
        rfl
      · apply awaits_orSystemError
  constructor
  · rintro path' ⟨⟩
  · intro found
    apply Async.obeys_raiseIf_bind fun _ => hends
    intro _
    apply (obeys_of_within _ hgroup).exceptT_bind
    · rintro stage gid rfl
      constructor
      · rfl
      · rintro (message | _)
        · apply hends
        · apply (obeys_of_within _ (hafter gid)).mono
          rintro stage result rfl u -
          rfl
    · intro stage e _
      apply hends

end

section

variable {creates : Option ShareCreateRequest} (settings : SharesSettings)

/-- A request that changes nothing at a path obeys the protocol. -/
theorem obeys_of_nowhere {α : Type} {c : SharesM α} (hc : c.run.Awaits (SharesOp.Within none)) :
  c.run.Obeys (sharesProtocol creates) (fun _ _ => True) .idle
  := (obeys_of_within .idle hc).mono fun _ _ _ => trivial

/-- The service adds the row of a new share once its directory is made. -/
theorem obeys_service (body : ShareCreateRequest) :
  (SharesService.createShare settings body.name body.volumeId body.description).run.Obeys
    (sharesProtocol (some body)) (fun _ _ => True) .idle
  := by
  constructor
  · exact ⟨body, rfl, rfl⟩
  · rintro (_ | volume)
    · trivial
    · let path := volume.mountpoint ++ "/" ++ body.name
      have hcall : (AgentClient.call pathError (SharesHandlers.create settings.sandboxed) path).run.Obeys
          (sharesProtocol (some body)) (fun stage result => ∀ u, result = .ok u → stage = .standing path)
          (.planned path) := by
        apply AgentClient.obeys_call
        · intro _
          apply obeys_create
        · rintro message - u ⟨⟩
        · rintro stage (e | u) h u' heq
          · cases heq
          · apply h u rfl
      have hraised : (tryCatch (AgentClient.call pathError
            (SharesHandlers.create settings.sandboxed) path) serviceError).run.Obeys
          (sharesProtocol (some body)) (fun stage result => ∀ u, result = .ok u → stage = .standing path)
          (.planned path) := by
        apply hcall.tryCatch
        · intro _ _ h
          apply h
        · rintro stage e -
          cases e
          all_goals rintro u ⟨⟩
      apply hraised.exceptT_bind
      · intro stage u h
        obtain rfl := h u rfl
        constructor
        · exact ⟨rfl, body, rfl, rfl, rfl⟩
        · rintro (e | share)
          · trivial
          · apply (obeys_of_within _ (awaits_applySambaConfig settings within_listShares
              within_config)).exceptT_bind
            · intro _ _ _
              trivial
            · intro _ _ _
              trivial
      · intro _ _ _
        trivial

/-- A request for a new share obeys the protocol. -/
theorem obeys_createShare (session : Session) (body : ShareCreateRequest) :
  (SharesApi.createShare settings session body).run.Obeys (sharesProtocol (some body))
    (fun _ _ => True) .idle
  := by
  apply (obeys_of_within .idle (awaits_requireAdmin session)).exceptT_bind
  · rintro stage _ rfl
    apply Coroutine.Obeys.tryCatch (Q := fun _ _ => True)
    · apply (obeys_service settings body).exceptT_bind
      · intro stage share _
        constructor
        · rintro path ⟨⟩
        · rintro (e | _)
          all_goals trivial
      · intro _ _ _
        trivial
    · intro _ _ _
      trivial
    · intro stage e _
      cases e
      all_goals trivial
  · intro _ _ _
    trivial

/-- A request on a share of the table obeys the protocol, if it stays within the path of the share. -/
theorem obeys_onShare {α : Type} (session : Session) (shareId : ℤ) {f : Share → SharesM α}
    (hf : ∀ share, (f share).run.Awaits (SharesOp.Within (some share.path))) :
  (SharesM.ofUsers (requireAdmin session) >>= fun _ => getShareOr404 shareId >>= f).run.Obeys
    (sharesProtocol none) (fun _ _ => True) .idle
  := by
  apply (obeys_of_within .idle (awaits_requireAdmin session)).exceptT_bind
  · rintro stage _ rfl
    constructor
    · rfl
    · rintro (_ | share)
      · trivial
      · apply (obeys_of_within (.standing share.path) (hf share)).mono
        intro _ _ _
        trivial
  · intro _ _ _
    trivial

/-- Replacing the permissions of a share stays within its path. -/
theorem awaits_setSharePermissions (share : Share) (permissions : List SharesService.Permission)
    (recursive : Bool) :
  (SharesService.setSharePermissions settings share permissions recursive).run.Awaits
    (SharesOp.Within (some share.path))
  := by
  apply Coroutine.awaits_exceptT_bind (awaits_resolveEntries permissions)
  intro entries
  apply Coroutine.awaits_exceptT_bind
  · apply Coroutine.awaits_tryCatch
    · apply AgentClient.awaits_call
      intro _
      apply awaits_submitPermissions ⟨share.path, entries, recursive⟩
    · apply awaits_serviceError
  · intro jobId
    apply Coroutine.awaits_exceptT_bind
    · constructor
      · rintro path ⟨⟩
      · intro _
        trivial
    · intro _
      apply Coroutine.awaits_exceptT_bind (awaits_applySambaConfig settings within_listShares within_config)
      intro _
      trivial

/-- What ends with nothing obeys the protocol as before. -/
theorem obeys_forget {α : Type} {creates : Option ShareCreateRequest} {c : SharesM α}
    (hc : c.run.Obeys (sharesProtocol creates) (fun _ _ => True) .idle) :
  (c >>= fun _ => pure () : SharesM Unit).run.Obeys (sharesProtocol creates) (fun _ _ => True) .idle
  := by
  apply hc.exceptT_bind
  · intro _ _ _
    trivial
  · intro _ _ _
    trivial

/-- Every request obeys the protocol. -/
theorem SharesRequest.obeys_program (r : SharesRequest) :
  (r.program settings).run.Obeys (sharesProtocol r.creates) (fun _ _ => True) .idle
  := by
  have husers : ∀ {α : Type} (c : UsersM α),
      (SharesM.ofUsers c).run.Awaits (SharesOp.Within none) := fun c =>
    awaits_usersPart (Coroutine.awaits_of_forall (P := fun _ => True) (fun _ => trivial) c.run)
      fun op _ => within_users op
  cases r with
  | createUser session ip body => apply obeys_forget (obeys_of_nowhere (husers _))
  | importUser session username description =>
      apply obeys_forget (obeys_of_nowhere (husers _))
  | deleteUser session uid deleteHome => apply obeys_of_nowhere (husers _)
  | createGroup session name description =>
      apply obeys_forget (obeys_of_nowhere _)
      apply awaits_createGroup (fun op _ => within_users op)
      rintro group path ⟨⟩
  | deleteGroup session gid =>
      apply obeys_of_nowhere
      apply awaits_deleteGroup (fun op _ => within_users op)
      · rintro gid path ⟨⟩
      · rintro group path ⟨⟩
  | createShare session body => apply obeys_forget (obeys_createShare settings session body)
  | deleteShare session shareId deleteFiles =>
      apply obeys_onShare session shareId
      intro share
      apply Coroutine.awaits_tryCatch _ awaits_answer400
      apply awaits_deleteShare settings share deleteFiles _ _ within_listShares within_config
      · rintro path ⟨⟩
        rfl
      · rintro path ⟨⟩
  | setPermissions session shareId body =>
      apply obeys_forget
      apply obeys_onShare session shareId
      intro share
      apply Coroutine.awaits_tryCatch
        (awaits_setSharePermissions settings share body.permissions body.recursive)
      apply awaits_answer400

end

/-! ### The paths in every run -/

namespace SharesPool

/-- The body of the request for a new share that a task serves, if it serves one. -/
def creation (requests : List SharesRequest) (i : ℕ) : Option ShareCreateRequest :=
  requests[i]?.bind SharesRequest.creates

/-- A task has had an operation answered. -/
def Answered (p : SharesPool) (i : ℕ) (op : SharesOp) : Prop :=
  ∃ answer, (i, (⟨op, answer⟩ : Event SharesOp SharesOp.Answer)) ∈ p.history

/-- The agent was told to make a directory for a new share under the name. -/
def Made (requests : List SharesRequest) (p : SharesPool) (name : String) : Prop :=
  ∃ i body path, creation requests i = some body ∧ body.name = name ∧ Answered p i (.makedirs path)

/-- The path is found under such a name below a mountpoint. -/
def Known (requests : List SharesRequest) (p : SharesPool) (path : String) : Prop :=
  ∃ volumeId name, p.world.Below volumeId name path ∧ Made requests p name

/-- What is known of a task from the stage it is at. -/
def StageHolds (requests : List SharesRequest) (p : SharesPool) (creates : Option ShareCreateRequest) :
    SharesStage → Prop
  | .idle => True
  | .planned path => ∃ body, creates = some body ∧ p.world.Below body.volumeId body.name path
  | .standing path =>
      Known requests p path
        ∧ ∀ body, creates = some body →
            p.world.Below body.volumeId body.name path ∧ Made requests p body.name

/-- Every path is found under a name below a mountpoint, and under that name the agent was told to make a
directory. -/
structure PathsInv (requests : List SharesRequest) (stages : ℕ → SharesStage) (p : SharesPool) : Prop where
  rows : ∀ share ∈ p.world.shares,
    p.world.Below share.volumeId share.name share.path ∧ Made requests p share.name
  jobs : ∀ job ∈ p.world.jobs, Known requests p job.1
  targets : ∀ i op path, Answered p i op → op.target = some path → Known requests p path
  made : ∀ i body path, creation requests i = some body → Answered p i (.makedirs path) →
    p.world.Below body.volumeId body.name path
  holds : ∀ i, StageHolds requests p (creation requests i) (stages i)

section

variable {requests : List SharesRequest} {p p' : SharesPool} {i : ℕ} {op : SharesOp}

/-- What was answered stays answered. -/
theorem Answered.mono {j : ℕ} {op' : SharesOp} (h : Answered p j op')
    (hhistory : p.history ⊆ p'.history) :
  Answered p' j op'
  := by
  obtain ⟨answer, h⟩ := h
  use answer, hhistory h

theorem Made.mono {name : String} (h : Made requests p name) (hhistory : p.history ⊆ p'.history) :
  Made requests p' name
  := by
  obtain ⟨i, body, path, hbody, hname, h⟩ := h
  exact ⟨i, body, path, hbody, hname, h.mono hhistory⟩

theorem Known.mono {path : String} (h : Known requests p path) (hkeeps : p.world.Keeps p'.world)
    (hhistory : p.history ⊆ p'.history) :
  Known requests p' path
  := by
  obtain ⟨volumeId, name, hbelow, hmade⟩ := h
  exact ⟨volumeId, name, hbelow.mono hkeeps, hmade.mono hhistory⟩

/-- What is known of a task stays so. -/
theorem StageHolds.mono {creates : Option ShareCreateRequest} {stage : SharesStage}
    (h : StageHolds requests p creates stage) (hkeeps : p.world.Keeps p'.world)
    (hhistory : p.history ⊆ p'.history) :
  StageHolds requests p' creates stage
  := by
  cases stage with
  | idle => trivial
  | planned path =>
      obtain ⟨body, hbody, hbelow⟩ := h
      exact ⟨body, hbody, hbelow.mono hkeeps⟩
  | standing path =>
      use h.1.mono hkeeps hhistory
      intro body hbody
      obtain ⟨hbelow, hmade⟩ := h.2 body hbody
      exact ⟨hbelow.mono hkeeps, hmade.mono hhistory⟩

/-- What was answered after a step was answered before, or is what the step answers. -/
theorem answered_resumed {resume : SharesOp.Answer op → Coroutine SharesOp SharesOp.Answer (Except Exc Unit)}
    {answer : SharesOp.Answer op} {w : SharesWorld} {j : ℕ} {op' : SharesOp} :
  Answered (p.resumed i op resume answer w) j op' ↔ Answered p j op' ∨ (j = i ∧ op' = op)
  := by
  constructor
  · rintro ⟨answer', h⟩
    rcases List.mem_append.mp h with hold | hnew
    · left
      use answer'
    · right
      cases List.mem_singleton.mp hnew
      exact ⟨rfl, rfl⟩
  · rintro (⟨answer', h⟩ | ⟨rfl, rfl⟩)
    · use answer', List.mem_append_left _ h
    · use answer, List.mem_append_right _ (List.mem_singleton_self _)

variable {stages : ℕ → SharesStage} {choice : SharesChoice}

/-- What an operation changes at a path is known, also once it has been answered. -/
theorem PathsInv.known_target (h : PathsInv requests stages p)
    (hallowed : (sharesProtocol (creation requests i)).allowed (stages i) op)
    (hkeeps : p.world.Keeps p'.world) (hhistory : p.history ⊆ p'.history) (hanswered : Answered p' i op)
    {path : String} (hpath : op.target = some path) :
  Known requests p' path
  := by
  have hholds := h.holds i
  have hstanding : (stages i).place = some path → Known requests p' path := by
    intro hplace
    rw [SharesStage.place_eq_some.mp hplace] at hholds
    apply hholds.1.mono hkeeps hhistory
  cases op with
  | makedirs path' =>
      cases hpath
      rw [show stages i = .planned path from hallowed] at hholds
      obtain ⟨body, hbody, hbelow⟩ := hholds
      exact ⟨body.volumeId, body.name, hbelow.mono hkeeps, i, body, path, hbody, rfl, hanswered⟩
  | getVolume volumeId => cases hpath
  | getShare shareId => cases hpath
  | addShare name volumeId path' description => cases hpath
  | _ => apply hstanding (hallowed path hpath)

/-- The stage of a task after an operation has been answered. -/
theorem PathsInv.holds_next (h : PathsInv requests stages p) (choice : SharesChoice)
    (hallowed : (sharesProtocol (creation requests i)).allowed (stages i) op)
    (hkeeps : p.world.Keeps p'.world) (hhistory : p.history ⊆ p'.history) (hanswered : Answered p' i op) :
  StageHolds requests p' (creation requests i)
    ((sharesProtocol (creation requests i)).next (stages i) op (p.world.answer choice op).1)
  := by
  have hstays : StageHolds requests p' (creation requests i) (stages i) :=
    (h.holds i).mono hkeeps hhistory
  cases op with
  | getVolume volumeId =>
      obtain ⟨body, hbody, rfl⟩ := hallowed
      rw [show (p.world.answer choice (.getVolume body.volumeId)).1
        = p.world.volumes.lookup body.volumeId from rfl]
      cases hlookup : p.world.volumes.lookup body.volumeId with
      | none => apply hstays
      | some volume =>
          rw [hbody]
          exact ⟨body, rfl, volume, hkeeps body.volumeId volume hlookup, rfl⟩
  | getShare shareId =>
      rw [show (p.world.answer choice (.getShare shareId)).1
        = p.world.shares.find? fun s => s.id = shareId from rfl]
      cases hfind : p.world.shares.find? fun s => s.id = shareId with
      | none => apply hstays
      | some share =>
          obtain ⟨hbelow, hmade⟩ := h.rows share (List.mem_of_find?_eq_some hfind)
          rw [show creation requests i = none from hallowed]
          constructor
          · exact ⟨share.volumeId, share.name, hbelow.mono hkeeps, hmade.mono hhistory⟩
          · rintro body ⟨⟩
  | makedirs path =>
      have hholds := h.holds i
      rw [show stages i = .planned path from hallowed] at hholds
      obtain ⟨body, hbody, hbelow⟩ := hholds
      have hmade : Made requests p' body.name := ⟨i, body, path, hbody, rfl, hanswered⟩
      constructor
      · exact ⟨body.volumeId, body.name, hbelow.mono hkeeps, hmade⟩
      · intro body' hbody'
        cases hbody.symm.trans hbody'
        exact ⟨hbelow.mono hkeeps, hmade⟩
  | _ => apply hstays

/-- The step lemma of `PathsInv` for an answer. -/
theorem PathsInv.answered (h : PathsInv requests stages p) {r : SharesOp.Answer op} {w : SharesWorld}
    {resume : SharesOp.Answer op → Coroutine SharesOp SharesOp.Answer (Except Exc Unit)}
    (hallowed : (sharesProtocol (creation requests i)).allowed (stages i) op)
    (hperform : p.world.answer choice op = (r, w)) :
  PathsInv requests
    (Function.update stages i ((sharesProtocol (creation requests i)).next (stages i) op r))
    (p.resumed i op resume r w)
  := by
  have hchanged : p.world.Changed op w := by
    have hchanged := p.world.changed_answer choice op
    rw [hperform] at hchanged
    apply hchanged
  have hkeeps : p.world.Keeps (p.resumed i op resume r w).world := by
    intro volumeId volume hlookup
    change w.volumes.lookup volumeId = some volume
    rw [hchanged.volumes_eq]
    apply hlookup
  have hhistory : p.history ⊆ (p.resumed i op resume r w).history :=
    List.subset_append_left _ _
  have hanswered : Answered (p.resumed i op resume r w) i op := answered_resumed.mpr (Or.inr ⟨rfl, rfl⟩)
  have hknown : ∀ path, op.target = some path → Known requests (p.resumed i op resume r w) path :=
    fun path hpath => h.known_target hallowed hkeeps hhistory hanswered hpath
  constructor
  · intro share hshare
    rcases hchanged.mem_shares hshare with hold | ⟨description, rfl⟩
    · obtain ⟨hbelow, hmade⟩ := h.rows share hold
      exact ⟨hbelow.mono hkeeps, hmade.mono hhistory⟩
    · obtain ⟨hstage, body, hbody, hname, hvolume⟩ := hallowed
      have hholds := h.holds i
      rw [hstage] at hholds
      obtain ⟨hbelow, hmade⟩ := hholds.2 body hbody
      rw [hname] at hbelow hmade
      rw [hvolume] at hbelow
      exact ⟨hbelow.mono hkeeps, hmade.mono hhistory⟩
  · intro job hjob
    rcases hchanged.mem_jobs hjob with hold | rfl
    · apply (h.jobs job hold).mono hkeeps hhistory
    · apply hknown job.1 rfl
  · intro j op' path hdone hpath
    rcases answered_resumed.mp hdone with hold | ⟨rfl, rfl⟩
    · apply (h.targets j op' path hold hpath).mono hkeeps hhistory
    · apply hknown path hpath
  · intro j body path hbody hdone
    rcases answered_resumed.mp hdone with hold | ⟨rfl, rfl⟩
    · apply (h.made j body path hbody hold).mono hkeeps
    · have hholds := h.holds j
      rw [show stages j = .planned path from hallowed] at hholds
      obtain ⟨body', hbody', hbelow⟩ := hholds
      cases hbody.symm.trans hbody'
      apply hbelow.mono hkeeps
  · intro j
    by_cases hj : j = i
    · subst hj
      rw [Function.update_self]
      have hnext := h.holds_next choice hallowed hkeeps hhistory hanswered
      rw [hperform] at hnext
      apply hnext
    · rw [Function.update_of_ne hj]
      apply (h.holds j).mono hkeeps hhistory

/-- The step lemma of `PathsInv` for what happens beside the requests. -/
theorem PathsInv.happened (h : PathsInv requests stages p) {e : SharesEvent} {w : SharesWorld}
    (hhappen : p.world.happen e = some w) :
  PathsInv requests stages { p with world := w }
  := by
  obtain ⟨hkeeps, hshares, hjobs⟩ := SharesWorld.happen_keeps hhappen
  have hhistory : p.history ⊆ ({ p with world := w } : SharesPool).history := List.Subset.refl _
  constructor
  · intro share hshare
    rw [show ({ p with world := w } : SharesPool).world.shares = p.world.shares from hshares] at hshare
    obtain ⟨hbelow, hmade⟩ := h.rows share hshare
    exact ⟨hbelow.mono hkeeps, hmade.mono hhistory⟩
  · intro job hjob
    apply (h.jobs job (hjobs job hjob)).mono hkeeps hhistory
  · intro j op path hdone hpath
    apply (h.targets j op path hdone hpath).mono hkeeps hhistory
  · intro j body path hbody hdone
    apply (h.made j body path hbody hdone).mono hkeeps
  · intro j
    apply (h.holds j).mono hkeeps hhistory

end

variable {settings : SharesSettings} {requests : List SharesRequest} {w : SharesWorld}
  {labels : List (Pool.Label SharesChoice SharesEvent)} {p : SharesPool}

/-- The run lemma of `PathsInv`. -/
theorem pathsInv_of_run (hshares : w.shares = []) (hjobs : w.jobs = [])
    (hrun : (Pool.machine sharesEffects).run (sharesPool settings requests w) labels = some p) :
  ∃ stages, PathsInv requests stages p
  := by
  have htasks : (sharesPool settings requests w).Obeying
      (fun i => sharesProtocol (creation requests i)) (fun _ _ _ => True) (fun _ => .idle) := by
    intro i c hc
    obtain ⟨r, hr, rfl⟩ := List.getElem?_map.symm.trans hc |> Option.map_eq_some_iff.mp
    have hcreates : creation requests i = r.creates := by
      rw [creation, hr]
      rfl
    change Coroutine.Obeys (sharesProtocol (creation requests i)) (fun _ _ => True) .idle _
    rw [hcreates]
    apply r.obeys_program
  have hstart : PathsInv requests (fun _ => .idle) (sharesPool settings requests w) := by
    constructor
    · intro share hshare
      rw [show (sharesPool settings requests w).world.shares = [] from hshares] at hshare
      cases hshare
    · intro job hjob
      rw [show (sharesPool settings requests w).world.jobs = [] from hjobs] at hjob
      cases hjob
    · rintro i op path ⟨answer, ⟨⟩⟩
    · rintro i body path - ⟨answer, ⟨⟩⟩
    · intro i
      trivial
  obtain ⟨-, stages, -, hinv⟩ := Pool.run_obeys (D := fun _ _ => True) (I := PathsInv requests) htasks
    hstart
    (by
      intro p stages i choice op resume r w' _ _ h _ _ hallowed hperform
      apply h.answered hallowed (Option.some.inj hperform))
    (by
      intro p stages e w' h _ hhappen
      apply h.happened hhappen)
    (Machine.along_of_forall _ (fun _ _ => trivial) _ _) hrun
  use stages

/-- The directories that the agent makes for new shares are direct children of the mountpoints of the volumes
asked for, and so are the paths in the table of the shares; the paths of the jobs, and those at which the
agent changes something, are direct children of mountpoints. -/
structure PathsBelow (requests : List SharesRequest) (p : SharesPool) : Prop where
  made : ∀ i body path, creation requests i = some body → Answered p i (.makedirs path) →
    p.world.IsChild body.volumeId path
  rows : ∀ share ∈ p.world.shares, p.world.IsChild share.volumeId share.path
  jobs : ∀ job ∈ p.world.jobs, ∃ volumeId, p.world.IsChild volumeId job.1
  targets : ∀ i op path, Answered p i op → op.target = some path →
    ∃ volumeId, p.world.IsChild volumeId path

/-- In every run of requests that are served at the same time, all paths are direct children of mountpoints
if and only if each new share for which the agent made a directory has a name that is one component. -/
theorem pathsBelow_iff (hshares : w.shares = []) (hjobs : w.jobs = [])
    (hrun : (Pool.machine sharesEffects).run (sharesPool settings requests w) labels = some p) :
  PathsBelow requests p
    ↔ ∀ i body path, creation requests i = some body → Answered p i (.makedirs path) →
        Path.IsComponent body.name
  := by
  obtain ⟨stages, h⟩ := pathsInv_of_run hshares hjobs hrun
  constructor
  · intro hbelow i body path hbody hdone
    rw [← (h.made i body path hbody hdone).isChild_iff]
    apply hbelow.made i body path hbody hdone
  · intro hnames
    have hmade : ∀ name, Made requests p name → Path.IsComponent name := by
      rintro name ⟨i, body, path, hbody, rfl, hdone⟩
      apply hnames i body path hbody hdone
    have hknown : ∀ path, Known requests p path → ∃ volumeId, p.world.IsChild volumeId path := by
      rintro path ⟨volumeId, name, hbelow, hname⟩
      use volumeId
      apply hbelow.isChild_iff.mpr (hmade name hname)
    constructor
    · intro i body path hbody hdone
      apply (h.made i body path hbody hdone).isChild_iff.mpr (hnames i body path hbody hdone)
    · intro share hshare
      obtain ⟨hbelow, hname⟩ := h.rows share hshare
      apply hbelow.isChild_iff.mpr (hmade share.name hname)
    · intro job hjob
      apply hknown job.1 (h.jobs job hjob)
    · intro i op path hdone hpath
      apply hknown path (h.targets i op path hdone hpath)

/-- A world with a volume and no shares. -/
def oneVolume : SharesWorld where
  users := []
  groups := []
  volumes := [(1, ⟨"media", "/volume1", "xfs", false, none, none, none, .null, .null⟩)]
  shares := []
  permissions := []
  directories := fun location =>
    if location = [] ∨ location = ["volume1".toList] then some (Directories.newDir none) else none
  conf := none
  jobs := []

/-- An administrator asks for a share under a name. -/
def newShare (name : String) : SharesRequest :=
  .createShare ⟨1, "admin", "admin"⟩ ⟨name, 1, ""⟩

/-- The first steps of the only request go well. -/
def smoothly (n : ℕ) : List (Pool.Label SharesChoice SharesEvent) :=
  List.replicate n (.task 0 SharesWorld.smooth)

/-- A new share under the name `photos`, until its row is committed. -/
theorem pathsBelow_photos :
  ∃ p, (Pool.machine sharesEffects).run
      (sharesPool ⟨true, fun _ => ""⟩ [newShare "photos"] oneVolume) (smoothly 5) = some p
    ∧ p.world.shares.map Share.path = ["/volume1/photos"] ∧ PathsBelow [newShare "photos"] p
  := by
  have hrun : ∃ p, (Pool.machine sharesEffects).run
      (sharesPool ⟨true, fun _ => ""⟩ [newShare "photos"] oneVolume) (smoothly 5) = some p
      ∧ p.world.shares.map Share.path = ["/volume1/photos"] := ⟨_, rfl, by decide⟩
  obtain ⟨p, hrun, hpaths⟩ := hrun
  refine ⟨p, hrun, hpaths, (pathsBelow_iff rfl rfl hrun).mpr ?_⟩
  rintro (_ | i) body path ⟨⟩ -
  decide

/-- Under the name `../backup` the agent makes a directory that is not below the mountpoint. -/
theorem not_pathsBelow_backup :
  ¬ ∀ (settings : SharesSettings) (requests : List SharesRequest) (w : SharesWorld)
      (labels : List (Pool.Label SharesChoice SharesEvent)) (p : SharesPool),
      w.shares = [] → w.jobs = [] →
      (Pool.machine sharesEffects).run (sharesPool settings requests w) labels = some p →
      PathsBelow requests p
  := by
  intro h
  have hrun : ∃ p, (Pool.machine sharesEffects).run
      (sharesPool ⟨true, fun _ => ""⟩ [newShare "../backup"] oneVolume) (smoothly 5) = some p
      ∧ p.world.volumes.lookup 1 = oneVolume.volumes.lookup 1
      ∧ p.world.shares = [⟨1, "../backup", 1, "/volume1/../backup", some "", true⟩] :=
    ⟨_, rfl, rfl, by decide⟩
  obtain ⟨p, hrun, hvolume, hrow⟩ := hrun
  have hrows := (h _ _ _ _ p rfl rfl hrun).rows
  rw [hrow] at hrows
  obtain ⟨volume, hlookup, hchild⟩ := hrows _ (List.mem_singleton_self _)
  cases hvolume.symm.trans hlookup
  have hcomponent : Path.IsComponent "../backup" := Path.directChild_iff.mp hchild
  exact absurd hcomponent (by decide)

end SharesPool
