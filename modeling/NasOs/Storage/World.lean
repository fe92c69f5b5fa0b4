import NasOs.Agent.Jobs
import NasOs.Library.Pool
import NasOs.Storage.Plans

/-!
# Plans, jobs and volumes

The web process and the agent while plans are executed: the plans in the store, the jobs that were
submitted, the files that the jobs write, and the volumes that are registered when a job is done.

Requests are the tasks of a pool.  What the agent and the registrar do between the answers to requests
are changes of the world by itself: a job starts when no other job is running, it takes its
operations one after the other, and its last message, if it ends as done, is what the registrar makes
a row of.
-/

/-- A `storage.execute_plan` job: its record, what its handle keeps, and what is left of its body. -/
structure PlanJob where
  id : String
  params : StorageExecutePlanParams
  status : JobStatus
  message : String
  cancelRequested : Bool
  body : Coroutine StorageOp StorageOp.Answer (Except Exc Unit)

/-- The job is queued or running. -/
def PlanJob.isPending (job : PlanJob) : Bool :=
  job.status = .queued ∨ job.status = .running

/-- A job whose body is done ends. -/
def PlanJob.settle (job : PlanJob) : PlanJob :=
  match job.body with
  | .done (.ok _) => { job with status := if job.cancelRequested then .cancelled else .done }
  | .done (.error e) => { job with status := .failed, message := e.str }
  | .await _ _ => job

/-- `Volume`. -/
structure Volume where
  name : String
  mountpoint : String
  filesystem : String
  managed : Bool
  device : Option String
  uuid : Option String
  raidLevel : Option String
  arrayName : Json
  diskSerials : Json

/-- The web process and the agent. -/
structure StorageWorld where
  monotonic : ℕ
  /-- The identifiers that were made; none is ever made again. -/
  made : List String
  store : PlanStore
  volumes : List Volume
  jobs : List PlanJob
  files : String → Option String
  /-- The last messages of jobs that are done, which the registrar has not taken yet. -/
  events : List String

/-! ### The agent -/

/-- What the system answers to an operation of a job. -/
structure JobChoice where
  inventory : StorageInventoryResult
  command : CommandResult
  raises : Option Exc
  /-- A file that is written is there, though the writing may still raise. -/
  replaced : Bool

/-- What a job gets of an answer. -/
def JobChoice.deliver {α : Type} (choice : JobChoice) (answer : α) : Except Exc α :=
  match choice.raises with
  | none => .ok answer
  | some e => .error e

/-- The files after an operation. -/
def StorageOp.filesAfter (op : StorageOp) (choice : JobChoice) (files : String → Option String) :
    String → Option String :=
  match op with
  | .writeAtomic path content =>
      if choice.replaced ∨ choice.raises = none then Function.update files path (some content)
      else files
  | _ => files

/-- The message of a job after an operation. -/
def StorageOp.messageAfter (op : StorageOp) (message : String) : String :=
  match op with
  | .progress _ _ text => text.orElse message
  | _ => message

/-- The answer to an operation of a job. -/
def StorageOp.answer (files : String → Option String) (choice : JobChoice) :
    (op : StorageOp) → op.Answer
  | .progress _ _ _ => choice.deliver ()
  | .gather => choice.deliver choice.inventory
  | .run _ => choice.deliver choice.command
  | .writeAtomic path _ => choice.deliver (files path).isSome
  | .backup _ _ => choice.deliver ()
  | .daemonReload => choice.deliver ()
  | .enable _ => choice.deliver ()
  | .start _ => choice.deliver ()
  | .waitActive _ _ => choice.deliver ()
  | .makedirs _ => choice.deliver ()

/-- What `systemd-escape` prints has no slash: it stands for each by a dash. -/
def StorageOp.allows (op : StorageOp) (choice : JobChoice) : Bool :=
  match op with
  | .run ("systemd-escape" :: _) => '/' ∉ choice.command.stdout.toList
  | _ => true

namespace StorageWorld

/-- The world after a job was answered. -/
def answered (world : StorageWorld) (k : ℕ) (choice : JobChoice) (job : PlanJob) (op : StorageOp)
    (resume : op.Answer → Coroutine StorageOp StorageOp.Answer (Except Exc Unit)) : StorageWorld :=
  let job' := PlanJob.settle
    { job with
      message := op.messageAfter job.message
      body := resume (op.answer world.files choice) }
  { world with
    jobs := world.jobs.set k job'
    files := op.filesAfter choice world.files
    events := if job'.status = .done then world.events ++ [job'.message] else world.events }

/-- A job that is running is answered. -/
def stepJob (world : StorageWorld) (k : ℕ) (choice : JobChoice) : Option StorageWorld :=
  match world.jobs[k]? with
  | none => none
  | some job =>
      match job.status, job.body with
      | .running, .await op resume =>
          if op.allows choice then some (world.answered k choice job op resume)
          else none
      | _, _ => none

/-- `JobRunner._run` has the lock, and starts the body of a job. -/
def startJob (world : StorageWorld) (k : ℕ) : Option StorageWorld :=
  match world.jobs[k]? with
  | none => none
  | some job =>
      if job.status = .queued ∧ ∀ other ∈ world.jobs, other.status ≠ .running then
        some { world with jobs := world.jobs.set k { job with status := .running } }
      else none

/-- `JobRunner.request_cancel`. -/
def cancelJob (world : StorageWorld) (k : ℕ) : Option StorageWorld :=
  world.jobs[k]?.map fun job =>
    { world with
      jobs := world.jobs.set k { job with cancelRequested := job.cancelRequested || job.isPending } }

/-- `storage.execute_plan`: submit the job. -/
def submit (settings : Settings) (world : StorageWorld) (jobId : String)
    (params : StorageExecutePlanParams) : StorageWorld :=
  { world with
    made := jobId :: world.made
    jobs := world.jobs ++ [⟨jobId, params, .queued, "", false, (ExecutePlan.body settings params).run⟩] }

end StorageWorld

namespace StorageWorld

variable {settings : Settings} {world world' : StorageWorld} {k : ℕ}

/-- A job that is answered is running and awaits an operation. -/
theorem stepJob_eq_some {choice : JobChoice} :
  world.stepJob k choice = some world'
    ↔ ∃ job op resume, world.jobs[k]? = some job ∧ job.status = .running
        ∧ job.body = .await op resume ∧ op.allows choice = true
        ∧ world' = world.answered k choice job op resume
  := by
  rw [stepJob]
  constructor
  · intro h
    split at h
    · cases h
    · rename_i job hjob
      split at h
      · rename_i op resume hstatus hbody
        split at h
        · rename_i hallows
          cases h
          exact ⟨job, op, resume, hjob, hstatus, hbody, hallows, rfl⟩
        · cases h
      · cases h
  · rintro ⟨job, op, resume, hjob, hstatus, hbody, hallows, rfl⟩
    simp only [hjob, hstatus, hbody, hallows, if_true]

/-- A job that starts was queued, and no other is running. -/
theorem startJob_eq_some :
  world.startJob k = some world'
    ↔ ∃ job, world.jobs[k]? = some job ∧ job.status = .queued
        ∧ (∀ other ∈ world.jobs, other.status ≠ .running)
        ∧ world' = { world with jobs := world.jobs.set k { job with status := .running } }
  := by
  rw [startJob]
  constructor
  · intro h
    split at h
    · cases h
    · rename_i job hjob
      split at h
      · rename_i hstart
        cases h
        exact ⟨job, hjob, hstart.1, hstart.2, rfl⟩
      · cases h
  · rintro ⟨job, hjob, hstatus, hothers, rfl⟩
    simp only [hjob]
    rw [if_pos ⟨hstatus, hothers⟩]

end StorageWorld

/-! ### The registrar -/

/-- A member of an object that is a string. -/
def Json.string? (key : String) (j : Json) : Option String :=
  match j.get? key with
  | some (.str s) => some s
  | _ => none

/-- The row that `VolumeAutoRegistrar._register` makes of the last message of a job, whose members are
strings. -/
def VolumeAutoRegistrar.row (message : String) : Option Volume := do
  let info ← Json.read (message.orElse "\x7b\x7d").toList
  let name ← info.string? "name"
  let mountpoint ← info.string? "mountpoint"
  let filesystem ← info.string? "filesystem"
  let device ← info.string? "device"
  let uuid ← info.string? "uuid"
  let raidLevel ← info.string? "raid_level"
  some ⟨name, mountpoint, filesystem, true, some device, if uuid = "" then none else some uuid,
    some raidLevel, (info.get? "array_name").getD .null, (info.get? "disk_serials").getD .null⟩

/-- The row of a volume that a plan made, with the UUID of its filesystem. -/
def StoragePlanSpec.volume (spec : StoragePlanSpec) (fsUuid : String) : Volume :=
  ⟨spec.volumeName, spec.mountpoint, spec.filesystem.str, true, some (lvDevice spec),
    if fsUuid = "" then none else some fsUuid, some spec.level.str,
    if spec.level ≠ .basic then .str spec.arrayName else .null,
    .arr (spec.diskSerials.map .str)⟩

/-- The result of a plan is not the empty text. -/
theorem ExecutePlan.print_result_ne (spec : StoragePlanSpec) (fsUuid : String) :
  String.ofList (Json.print Json.dumps (result spec fsUuid)) ≠ ""
  := by
  intro h
  have hnil := congrArg String.toList h
  simp [Json.print, result, Json.tokens, Json.text] at hnil

/-- The row that is made of the result of a plan is that of its volume. -/
theorem VolumeAutoRegistrar.row_result (spec : StoragePlanSpec) (fsUuid : String) :
  row (String.ofList (Json.print Json.dumps (ExecutePlan.result spec fsUuid)))
    = some (spec.volume fsUuid)
  := by
  rw [row, String.orElse, if_neg (ExecutePlan.print_result_ne spec fsUuid), String.toList_ofList,
    Json.read_print]
  rfl

/-- `VolumeAutoRegistrar._register`: names and mountpoints are unique, and the database may refuse a
row for reasons of its own. -/
def VolumeAutoRegistrar.register (refused : Bool) (volumes : List Volume) (message : String) :
    List Volume :=
  match row message with
  | none => volumes
  | some volume =>
      if refused ∨ ∃ other ∈ volumes, other.name = volume.name ∨ other.mountpoint = volume.mountpoint
      then volumes
      else volumes ++ [volume]

/-! ### Steps -/

/-- What happens between the answers to requests. -/
inductive StorageEvent where
  | tick (nanoseconds : ℕ)
  | createPlan (plan : Plan)
  | startJob (k : ℕ)
  | stepJob (k : ℕ) (choice : JobChoice)
  | cancelJob (k : ℕ)
  | register (refused : Bool)
  | loseEvent

/-- How an operation of a request turns out. -/
structure PlanChoice where
  /-- The call gets as far as the agent. -/
  reached : Bool
  /-- What the caller gets instead of the answer. -/
  raises : Option Exc
  /-- The identifier that the agent makes for a job. -/
  jobId : String

/-- What a caller gets of an answer. -/
def PlanChoice.deliver {α : Type} (choice : PlanChoice) (answer : α) : Except Exc α :=
  match choice.raises with
  | none => .ok answer
  | some e => .error e

namespace StorageWorld

/-- The mountpoints of the managed volumes. -/
def managedMountpoints (world : StorageWorld) : List String :=
  (world.volumes.filter Volume.managed).map Volume.mountpoint

/-- The answers to the operations of requests. -/
def perform (settings : Settings) (world : StorageWorld) :
    (op : PlanOp) → PlanChoice → Option (op.Answer × StorageWorld)
  | .getPlan planId, _ =>
      let (plan, store) := world.store.get world.monotonic planId
      some (plan, { world with store })
  | .managedMountpoints, choice => some (choice.deliver world.managedMountpoints, world)
  | .executePlan params, choice =>
      if choice.reached then
        if choice.jobId ∈ world.made then none
        else some (choice.deliver choice.jobId, world.submit settings choice.jobId params)
      else choice.raises.map fun e => (.error e, world)
  | .popPlan planId, _ =>
      let (plan, store) := world.store.pop world.monotonic planId
      some (plan, { world with store })

/-- What happens between the answers to requests. -/
def environment (world : StorageWorld) : StorageEvent → Option StorageWorld
  | .tick nanoseconds => some { world with monotonic := world.monotonic + nanoseconds }
  | .createPlan plan =>
      if plan.id ∈ world.made then none
      else some
        { world with
          made := plan.id :: world.made
          store := world.store.put world.monotonic plan }
  | .startJob k => world.startJob k
  | .stepJob k choice => world.stepJob k choice
  | .cancelJob k => world.cancelJob k
  | .register refused =>
      match world.events with
      | [] => none
      | message :: events =>
          some
            { world with
              volumes := VolumeAutoRegistrar.register refused world.volumes message
              events := events }
  | .loseEvent => some { world with events := world.events.tail }

end StorageWorld

/-- The effects of requests to execute plans. -/
def storageEffects (settings : Settings) :
    Effects PlanOp PlanOp.Answer StorageWorld PlanChoice StorageEvent :=
  ⟨StorageWorld.perform settings, StorageWorld.environment⟩

/-- A pool of requests. -/
abbrev PlanPool : Type :=
  Pool PlanOp PlanOp.Answer StorageWorld (Except Exc String)

/-- The pool of unstarted requests over a world. -/
def ExecutePlanRequest.pool (hmac : String → String) (requests : List ExecutePlanRequest)
    (world : StorageWorld) : PlanPool :=
  Pool.start world (requests.map fun request => (StorageApi.executePlan hmac request).run)
