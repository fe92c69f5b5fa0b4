import NasOs.Acl.Commands
import NasOs.Library.Machine
import NasOs.Shares.Requests
import NasOs.System.Rollback

/-!
# The stores behind shares

A world of four stores: the tables of the web process, the directories with their access control lists,
the configuration that Samba includes, and the jobs that wait to run.  `SharesWorld.answer` says how each
operation of a request is answered; a choice says whether the operation fails, and what commands about
accounts give, which can be anything.

Requests run one after the other, or at the same time, each operation being a step; between them jobs run
and volumes are registered.
-/

/-- A place in the file system: the names on the way to it. -/
abbrev Location : Type :=
  List (List Char)

/-- The files that exist, with their access control lists. -/
abbrev Directories : Type :=
  Location → Option FileAcl

/-- What is left open by a step. -/
structure SharesChoice where
  /-- The message of the failure, if the step fails. -/
  fails : Option String
  /-- A validation or an application that fails raises something else than its own error. -/
  unexpected : Bool
  /-- How many directories above were made, if the making of a directory fails. -/
  made : ℕ
  /-- What was removed, if the removal of a directory fails. -/
  removed : Location → Bool
  /-- What a command about accounts gives. -/
  result : CommandResult
  /-- The number of an account or a group, if there is one. -/
  account : Option ℤ
  /-- The identifier of a job. -/
  jobId : String

/-- The stores. -/
structure SharesWorld where
  users : List User
  groups : List GroupMeta
  volumes : List (ℤ × Volume)
  shares : List Share
  permissions : List SharePermission
  directories : Directories
  conf : Option (List UInt8)
  /-- The jobs that wait to run: their paths and entries. -/
  jobs : List (String × List AclEntry)

/-! ### Directories -/

namespace Directories

/-- Every place on the way along the steps exists. -/
def reaches (directories : Directories) (location : Location) : List (List Char) → Bool
  | [] => true
  | step :: steps =>
      (directories (Path.move location step)).isSome
        && directories.reaches (Path.move location step) steps

/-- The list of a directory that `mkdir` makes in a directory. -/
def newDir (parent : Option FileAcl) : FileAcl :=
  match parent with
  | none => ⟨true, Acl.minimal Perm.all Perm.readExecute Perm.readExecute, none, FileAcl.default_isDir_none true⟩
  | some parent => parent.createDir (if parent.default.isSome then 0o777 else 0o755)

/-- Make the directory at a place, if there is none. -/
def mkdir (directories : Directories) (parent location : Location) : Directories :=
  if (directories location).isSome then directories
  else Function.update directories location (some (newDir (directories parent)))

/-- Make the directories along the steps. -/
def make (directories : Directories) (location : Location) : List (List Char) → Directories
  | [] => directories
  | step :: steps =>
      (directories.mkdir location (Path.move location step)).make (Path.move location step) steps

/-- The directories above the last step of a path, made where they are missing. -/
def above (directories : Directories) (path : String) (made : ℕ) : Directories :=
  directories.make [] ((Path.steps path).dropLast.take made)

/-- The directory at a path, and those above it, made where they are missing. -/
def made (directories : Directories) (path : String) : Directories :=
  directories.make [] (Path.steps path)

/-- The mode of what is at a path is changed. -/
def chmod (directories : Directories) (path : String) (mode : ℕ) : Directories :=
  Function.update directories (Path.resolve path)
    ((directories (Path.resolve path)).map fun acl => acl.chmod mode)

/-- Of what is at a path and below it, some is removed. -/
def remove (directories : Directories) (path : String) (removed : Location → Bool) : Directories :=
  fun location =>
    if Path.resolve path <+: location ∧ removed location then none else directories location

/-- A command runs on what is at a path, and on all below it if it is told to. -/
def command (directories : Directories) (path : String) (argv : List String) : Directories :=
  fun location =>
    if location = Path.resolve path ∨ ("-R" ∈ argv ∧ Path.resolve path <+: location) then
      (directories location).map fun acl => ((acl.command path argv).map Prod.snd).getD acl
    else directories location

end Directories

/-! ### How the operations are answered -/

namespace SharesWorld

/-- The error of a commit that breaks a constraint. -/
def integrityError : Exc :=
  .other "IntegrityError"

/-- A commit that fails by its choice, or breaks a constraint, changes nothing. -/
def commit {α : Type} (w : SharesWorld) (choice : SharesChoice) (breaks : Bool) (a : α)
    (w' : SharesWorld) : Except Exc α × SharesWorld :=
  match choice.fails with
  | some message => (.error (.other message), w)
  | none => if breaks then (.error integrityError, w) else (.ok a, w')

/-- How operations of requests about accounts are answered. -/
def answerUsers (w : SharesWorld) (choice : SharesChoice) : (op : UsersOp) → op.Answer × SharesWorld
  | .run _ _ =>
      match choice.fails with
      | some message => (.error (.other message), w)
      | none => (.ok choice.result, w)
  | .getpwnam _ => (.ok choice.account, w)
  | .getUser uid => (.ok (w.users.find? fun u => u.uid = uid), w)
  | .addUser user =>
      w.commit choice (w.users.any fun u => u.uid = user.uid ∨ u.username = user.username) ()
        { w with users := w.users ++ [user] }
  | .updateUser user _ =>
      w.commit choice false ()
        { w with users := w.users.map fun u => if u.uid = user.uid then user else u }
  | .deleteUser user =>
      w.commit choice false () { w with users := w.users.filter fun u => u.uid ≠ user.uid }
  | .audit _ => (.ok (), w)

/-- How operations on access control lists are answered. -/
def answerAcl (w : SharesWorld) (choice : SharesChoice) : (op : AclOp) → op.Answer × SharesWorld
  | .run argv =>
      match choice.fails with
      | some message => (.ok ⟨1, "", message⟩, w)
      | none =>
          let path := argv.getLastD ""
          match (w.directories (Path.resolve path)).bind fun acl => acl.command path argv with
          | none => (.ok ⟨1, "", ""⟩, w)
          | some (out, _) => (.ok ⟨0, out, ""⟩, { w with directories := w.directories.command path argv })
  | .acquire _ => ((), w)
  | .release _ => ((), w)

/-- What a step on the configuration raises when it fails. -/
def configError (choice : SharesChoice) (message : String) : ConfigOp → ConfigError
  | .validate => if choice.unexpected then .other message else .invalid message
  | .apply => if choice.unexpected then .other message else .applyFailed message
  | _ => .other message

/-- How steps on the configuration are answered: one that fails leaves it alone. -/
def answerConfig (w : SharesWorld) (choice : SharesChoice) (op : ConfigOp) : op.Answer × SharesWorld :=
  match choice.fails with
  | some message => (.error (configError choice message op), w)
  | none => ((op.succeed w.conf).1, { w with conf := (op.succeed w.conf).2 })

/-- The number that the next share gets. -/
def nextId (w : SharesWorld) : ℤ :=
  (w.shares.map Share.id).foldl max 0 + 1

/-- The permissions of a share. -/
def permissionsOf (w : SharesWorld) (shareId : ℤ) : List SharePermission :=
  w.permissions.filter fun p => p.shareId = shareId

/-- The world with a row added for a share. -/
def withShare (w : SharesWorld) (share : Share) : SharesWorld :=
  { w with shares := w.shares ++ [share] }

/-- The world without the row of a share and the permissions of the share. -/
def withoutShare (w : SharesWorld) (share : Share) : SharesWorld :=
  { w with
    shares := w.shares.filter fun s => s.id ≠ share.id
    permissions := w.permissions.filter fun p => p.shareId ≠ share.id }

/-- The world with other permissions of a share. -/
def withPermissions (w : SharesWorld) (shareId : ℤ) (rows : List SharePermission) : SharesWorld :=
  { w with permissions := (w.permissions.filter fun p => p.shareId ≠ shareId) ++ rows }

/-- Two permissions for one principal, which a share cannot have. -/
def clash (p q : SharePermission) : Bool :=
  p.shareId = q.shareId ∧ p.principalType = q.principalType ∧ p.principal = q.principal

/-- How an operation is answered. -/
def answer (w : SharesWorld) (choice : SharesChoice) : (op : SharesOp) → op.Answer × SharesWorld
  | .users op => w.answerUsers choice op
  | .findUser username => (w.users.find? fun u => u.username = username, w)
  | .getGroup gid => (w.groups.find? fun g => g.gid = gid, w)
  | .findGroup name => (w.groups.find? fun g => g.name = name, w)
  | .addGroup group =>
      w.commit choice (w.groups.any fun g => g.gid = group.gid ∨ g.name = group.name) ()
        { w with groups := w.groups ++ [group] }
  | .deleteGroup group =>
      w.commit choice false () { w with groups := w.groups.filter fun g => g.gid ≠ group.gid }
  | .getVolume volumeId => (w.volumes.lookup volumeId, w)
  | .getShare shareId => (w.shares.find? fun s => s.id = shareId, w)
  | .addShare name volumeId path description =>
      let share : Share := ⟨w.nextId, name, volumeId, path, some description, true⟩
      w.commit choice (w.shares.any fun s => s.name = name ∨ s.path = path) share (w.withShare share)
  | .deleteShare share => w.commit choice false () (w.withoutShare share)
  | .replacePermissions shareId rows =>
      w.commit choice (!decide (rows.Pairwise fun p q => clash p q = false)) ()
        (w.withPermissions shareId rows)
  | .listShares => (w.shares.map fun s => (s, w.permissionsOf s.id), w)
  | .pathExists path => (w.directories.reaches [] (Path.steps path), w)
  | .getgrnam _ => (choice.account, w)
  | .makedirs path =>
      match choice.fails with
      | some message => (.error message, { w with directories := w.directories.above path choice.made })
      | none =>
          let before := w.directories.make [] (Path.steps path).dropLast
          if (before (Path.resolve path)).isSome then
            (.error (path ++ ": File exists"), { w with directories := before })
          else (.ok (), { w with directories := w.directories.made path })
  | .chown _ _ =>
      match choice.fails with
      | some message => (.error message, w)
      | none => (.ok (), w)
  | .chmod path mode =>
      match choice.fails with
      | some message => (.error message, w)
      | none => (.ok (), { w with directories := w.directories.chmod path mode })
  | .rmtree path =>
      match choice.fails with
      | some message =>
          (.error (.other message), { w with directories := w.directories.remove path choice.removed })
      | none => (.ok (), { w with directories := w.directories.remove path fun _ => true })
  | .acl op => w.answerAcl choice op
  | .submit path entries => (choice.jobId, { w with jobs := w.jobs ++ [(path, entries)] })
  | .config op => w.answerConfig choice op
  | .ensureSamba => w.commit choice false () w

/-- The choice of a step that does not fail. -/
def smooth : SharesChoice :=
  { fails := none
    unexpected := false
    made := 0
    removed := fun _ => false
    result := ⟨0, "", ""⟩
    account := some 1000
    jobId := "job" }

/-- Answer an operation by the next choice; when they are used up, nothing fails any more. -/
def serve (s : SharesWorld × List SharesChoice) (op : SharesOp) :
    op.Answer × (SharesWorld × List SharesChoice) :=
  let (a, w) := s.1.answer (s.2.headD smooth) op
  (a, (w, s.2.tail))

end SharesWorld

/-! ### Requests one after the other -/

/-- A request about accounts, groups or shares. -/
inductive SharesRequest where
  | createUser (session : Session) (ip : Option String) (body : UserCreateRequest)
  | importUser (session : Session) (username description : String)
  | deleteUser (session : Session) (uid : ℤ) (deleteHome : Bool)
  | createGroup (session : Session) (name description : String)
  | deleteGroup (session : Session) (gid : ℤ)
  | createShare (session : Session) (body : ShareCreateRequest)
  | deleteShare (session : Session) (shareId : ℤ) (deleteFiles : Bool)
  | setPermissions (session : Session) (shareId : ℤ) (body : SetPermissionsRequest)

/-- What a request does. -/
def SharesRequest.program (settings : SharesSettings) : SharesRequest → SharesM Unit
  | .createUser session ip body => do
      let _ ← SharesM.ofUsers (UsersApi.createUser session ip body)
  | .importUser session username description => do
      let _ ← SharesM.ofUsers (UsersApi.importUser session username description)
  | .deleteUser session uid deleteHome => SharesM.ofUsers (UsersApi.deleteUser session uid deleteHome)
  | .createGroup session name description => do
      let _ ← GroupsApi.createGroup session name description
  | .deleteGroup session gid => GroupsApi.deleteGroup session gid
  | .createShare session body => do
      let _ ← SharesApi.createShare settings session body
  | .deleteShare session shareId deleteFiles =>
      SharesApi.deleteShare settings session shareId deleteFiles
  | .setPermissions session shareId body => do
      let _ ← SharesApi.setPermissions settings session shareId body

/-- What happens beside the requests: a job runs, or a volume is registered. -/
inductive SharesEvent where
  | job (i : ℕ) (choices : List SharesChoice)
  | register (id : ℤ) (volume : Volume)

/-- What happens next, when requests are served one after the other. -/
inductive SharesLabel where
  | request (r : SharesRequest) (choices : List SharesChoice)
  | event (e : SharesEvent)

/-- What a job does. -/
def permissionsJob (job : String × List AclEntry) : SharesM Unit :=
  SharesM.ofAcl (SharesHandlers.setPermissions job.1 job.2 true)

namespace SharesWorld

/-- What happens beside the requests, if it can. -/
def happen (w : SharesWorld) : SharesEvent → Option SharesWorld
  | .job i choices =>
      w.jobs[i]?.map fun job =>
        ((permissionsJob job).run.execute serve ({ w with jobs := w.jobs.eraseIdx i }, choices)).2.1
  | .register id volume =>
      if (∀ v ∈ w.volumes, v.1 ≠ id ∧ v.2.mountpoint ≠ volume.mountpoint)
          ∧ volume.mountpoint.toList.all (fun c => !Text.isSpace c) = true then
        some { w with volumes := w.volumes ++ [(id, volume)] }
      else none

/-- What happens, if it can. -/
def step (settings : SharesSettings) (w : SharesWorld) : SharesLabel → Option SharesWorld
  | .request r choices => some ((r.program settings).run.execute serve (w, choices)).2.1
  | .event e => w.happen e

/-- The machine of the shares subsystem, which serves requests one after the other. -/
def machine (settings : SharesSettings) : Machine SharesWorld SharesLabel :=
  ⟨step settings⟩

end SharesWorld

/-! ### Requests at the same time -/

/-- The effects of requests that are served at the same time. -/
def sharesEffects : Effects SharesOp SharesOp.Answer SharesWorld SharesChoice SharesEvent :=
  ⟨fun w op choice => some (w.answer choice op), SharesWorld.happen⟩

/-- Requests that are served at the same time. -/
abbrev SharesPool : Type :=
  Pool SharesOp SharesOp.Answer SharesWorld (Except Exc Unit)

/-- The pool of unstarted requests. -/
def sharesPool (settings : SharesSettings) (requests : List SharesRequest) (w : SharesWorld) :
    SharesPool :=
  Pool.start w (requests.map fun r => (r.program settings).run)

/-! ### What an operation changes -/

namespace SharesWorld

variable {w : SharesWorld}

/-- What an operation can make of the stores. -/
inductive Changed (w : SharesWorld) : SharesOp → SharesWorld → Prop where
  | same (op : SharesOp) : Changed w op w
  | addUser (user : User)
      (h : ∀ u ∈ w.users, u.uid ≠ user.uid ∧ u.username ≠ user.username) :
      Changed w (.users (.addUser user)) { w with users := w.users ++ [user] }
  | updateUser (user : User) (notification : Option Notification) :
      Changed w (.users (.updateUser user notification))
        { w with users := w.users.map fun u => if u.uid = user.uid then user else u }
  | deleteUser (user : User) :
      Changed w (.users (.deleteUser user)) { w with users := w.users.filter fun u => u.uid ≠ user.uid }
  | addGroup (group : GroupMeta)
      (h : ∀ g ∈ w.groups, g.gid ≠ group.gid ∧ g.name ≠ group.name) :
      Changed w (.addGroup group) { w with groups := w.groups ++ [group] }
  | deleteGroup (group : GroupMeta) :
      Changed w (.deleteGroup group) { w with groups := w.groups.filter fun g => g.gid ≠ group.gid }
  | addShare (name : String) (volumeId : ℤ) (path description : String)
      (h : ∀ s ∈ w.shares, s.name ≠ name ∧ s.path ≠ path) :
      Changed w (.addShare name volumeId path description)
        (w.withShare ⟨w.nextId, name, volumeId, path, some description, true⟩)
  | deleteShare (share : Share) : Changed w (.deleteShare share) (w.withoutShare share)
  | replacePermissions (shareId : ℤ) (rows : List SharePermission) :
      Changed w (.replacePermissions shareId rows) (w.withPermissions shareId rows)
  | makedirs (path : String) (steps : List (List Char)) :
      Changed w (.makedirs path) { w with directories := w.directories.make [] steps }
  | chmod (path : String) (mode : ℕ) :
      Changed w (.chmod path mode) { w with directories := w.directories.chmod path mode }
  | rmtree (path : String) (removed : Location → Bool) :
      Changed w (.rmtree path) { w with directories := w.directories.remove path removed }
  | command (argv : List String) :
      Changed w (.acl (.run argv))
        { w with directories := w.directories.command (argv.getLastD "") argv }
  | submit (path : String) (entries : List AclEntry) :
      Changed w (.submit path entries) { w with jobs := w.jobs ++ [(path, entries)] }
  | config (op : ConfigOp) (conf : Option (List UInt8)) : Changed w (.config op) { w with conf := conf }

/-- A commit leaves the world as it was, or as the transaction makes it, which breaks no constraint
then. -/
theorem commit_cases {α : Type} (w : SharesWorld) (choice : SharesChoice) (breaks : Bool) (a : α)
    (w' : SharesWorld) :
  (w.commit choice breaks a w').2 = w ∨ ((w.commit choice breaks a w').2 = w' ∧ breaks = false)
  := by
  rw [commit]
  split
  · left
    rfl
  · cases breaks with
    | false =>
        right
        exact ⟨rfl, rfl⟩
    | true =>
        left
        rfl

/-- An operation makes of the stores what it can. -/
theorem changed_answer (w : SharesWorld) (choice : SharesChoice) (op : SharesOp) :
  w.Changed op (w.answer choice op).2
  := by
  have hcommit : ∀ {α : Type} {op : SharesOp} {breaks : Bool} {a : α} {w' : SharesWorld},
      (breaks = false → w.Changed op w') → w.Changed op (w.commit choice breaks a w').2 := by
    intro α op breaks a w' h
    rcases w.commit_cases choice breaks a w' with heq | ⟨heq, hbreaks⟩
    · rw [heq]
      apply Changed.same
    · rw [heq]
      apply h hbreaks
  cases op with
  | users op =>
      cases op with
      | run argv input =>
          simp only [answer, answerUsers]
          split
          all_goals apply Changed.same
      | addUser user =>
          apply hcommit
          intro hbreaks
          apply Changed.addUser
          intro u hu
          have hno := List.any_eq_false.mp hbreaks u hu
          simpa using hno
      | updateUser user notification => apply hcommit fun _ => Changed.updateUser user notification
      | deleteUser user => apply hcommit fun _ => Changed.deleteUser user
      | _ => apply Changed.same
  | addGroup group =>
      apply hcommit
      intro hbreaks
      apply Changed.addGroup
      intro g hg
      have hno := List.any_eq_false.mp hbreaks g hg
      simpa using hno
  | deleteGroup group => apply hcommit fun _ => Changed.deleteGroup group
  | addShare name volumeId path description =>
      apply hcommit
      intro hbreaks
      apply Changed.addShare
      intro s hs
      have hno := List.any_eq_false.mp hbreaks s hs
      simpa using hno
  | deleteShare share => apply hcommit fun _ => Changed.deleteShare share
  | replacePermissions shareId rows => apply hcommit fun _ => Changed.replacePermissions shareId rows
  | makedirs path =>
      simp only [answer]
      split
      · apply Changed.makedirs
      · split
        all_goals apply Changed.makedirs
  | chown path gid =>
      simp only [answer]
      split
      all_goals apply Changed.same
  | chmod path mode =>
      simp only [answer]
      split
      · apply Changed.same
      · apply Changed.chmod
  | rmtree path =>
      simp only [answer]
      split
      all_goals apply Changed.rmtree
  | acl op =>
      cases op with
      | run argv =>
          simp only [answer, answerAcl]
          split
          · apply Changed.same
          · split
            · apply Changed.same
            · apply Changed.command
      | _ => apply Changed.same
  | submit path entries => apply Changed.submit
  | config op =>
      simp only [answer, answerConfig]
      split
      · apply Changed.same
      · apply Changed.config
  | ensureSamba => apply hcommit fun _ => Changed.same _
  | _ => apply Changed.same

/-- An operation makes of the stores what it can. -/
theorem changed_serve (s : SharesWorld × List SharesChoice) (op : SharesOp) :
  s.1.Changed op (serve s op).2.1
  := s.1.changed_answer _ op

end SharesWorld
