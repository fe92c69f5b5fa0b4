import NasOs.Agent.Reports
import NasOs.Storage.Planning
import NasOs.Storage.Safety
import NasOs.Storage.World

/-!
# What becomes of the result of a plan

A job that carries out a plan reports its result as its last message.  The record of the job is
published when the body has returned, the event bus queues the event for the registrar, and the
registrar makes a row of it.

The result is lost on the way when the job was to be cancelled, when the queue is full of later events
before the registrar reads it, and when there is a volume of the name or the mountpoint.
-/

/-! ### What a body reports -/

namespace ExecutePlan

/-- The filesystem of a volume has a UUID, by what `blkid` printed. -/
def Identifies (spec : StoragePlanSpec) (h : List (Event StorageOp StorageOp.Answer))
    (fsUuid : String) : Prop :=
  ∃ result : CommandResult,
    ⟨.run ["blkid", "-o", "value", "-s", "UUID", lvDevice spec], .ok result⟩ ∈ h
      ∧ fsUuid = result.stdout.strip

/-- A step that does not write the mount unit leaves the UUID alone, the one that does asks for it. -/
theorem fsUuid_of_step {settings : Settings} {params : StorageExecutePlanParams}
    {resolved : StoragePlanSpec} {state state' : StepState} {planStep : PlanStep}
    {h : List (Event StorageOp StorageOp.Answer)}
    (hf : (step settings params resolved state planStep).run.Follows h (.done (.ok state'))) :
  (planStep.op ≠ .writeUnit ∧ state'.fsUuid = state.fsUuid) ∨ Identifies resolved h state'.fsUuid
  := by
  have hpure : ∀ {α : Type} {c : StorageM α}, (c >>= fun _ => pure state).run.Follows h
      (.done (.ok state')) → state'.fsUuid = state.fsUuid := by
    intro α c hf
    obtain ⟨h₁, a, h₂, rfl, -, hlast⟩ := Coroutine.follows_exceptT_bind_ok.mp hf
    obtain ⟨-, hstate⟩ := Coroutine.follows_done.mp hlast
    cases hstate
    rfl
  rw [step] at hf
  cases hop : planStep.op with
  | writeUnit =>
      right
      rw [hop] at hf
      obtain ⟨h₁, result, h₂, rfl, hblkid, hrest⟩ := Coroutine.follows_exceptT_bind_ok.mp hf
      obtain ⟨h₃, unitName, h₄, rfl, -, hrest⟩ := Coroutine.follows_exceptT_bind_ok.mp hrest
      obtain ⟨h₅, _, h₆, rfl, -, hlast⟩ := Coroutine.follows_exceptT_bind_ok.mp hrest
      obtain ⟨-, hstate⟩ := Coroutine.follows_done.mp hlast
      cases hstate
      use result
      rw [Coroutine.follows_perform.mp hblkid]
      exact ⟨List.mem_append_left _ List.mem_cons_self, rfl⟩
  | run =>
      left
      rw [hop] at hf
      obtain ⟨h₁, result, h₂, rfl, -, hf⟩ := Coroutine.follows_exceptT_bind_ok.mp hf
      obtain ⟨h₃, _, h₄, rfl, -, hlast⟩ := Coroutine.follows_exceptT_bind_ok.mp hf
      obtain ⟨-, hstate⟩ := Coroutine.follows_done.mp hlast
      cases hstate
      exact ⟨by decide, rfl⟩
  | enableStartUnit =>
      left
      rw [hop] at hf
      dsimp only at hf
      split at hf
      · obtain ⟨-, ⟨⟩⟩ := Coroutine.follows_done.mp hf
      · obtain ⟨h₁, _, h₂, rfl, -, hf⟩ := Coroutine.follows_exceptT_bind_ok.mp hf
        obtain ⟨h₃, _, h₄, rfl, -, hf⟩ := Coroutine.follows_exceptT_bind_ok.mp hf
        obtain ⟨h₅, _, h₆, rfl, -, hlast⟩ := Coroutine.follows_exceptT_bind_ok.mp hf
        obtain ⟨-, hstate⟩ := Coroutine.follows_done.mp hlast
        cases hstate
        exact ⟨by decide, rfl⟩
  | _ =>
      left
      rw [hop] at hf
      exact ⟨by decide, hpure hf⟩

/-- Steps of which one writes the mount unit ask for the UUID. -/
theorem fsUuid_of_steps {settings : Settings} {params : StorageExecutePlanParams}
    {resolved : StoragePlanSpec} {total index : ℕ} {state state' : StepState}
    {planSteps : List PlanStep} {h : List (Event StorageOp StorageOp.Answer)}
    (hf : (steps settings params resolved total index state planSteps).run.Follows h
      (.done (.ok state'))) :
  ((∀ planStep ∈ planSteps, planStep.op ≠ .writeUnit) ∧ state'.fsUuid = state.fsUuid)
    ∨ Identifies resolved h state'.fsUuid
  := by
  induction planSteps generalizing index state h with
  | nil =>
      left
      obtain ⟨-, hstate⟩ := Coroutine.follows_done.mp hf
      cases hstate
      exact ⟨by simp, rfl⟩
  | cons planStep rest ih =>
      obtain ⟨h₁, _, h₂, rfl, -, hf⟩ := Coroutine.follows_exceptT_bind_ok.mp hf
      obtain ⟨h₃, between, h₄, rfl, hstep, hf⟩ := Coroutine.follows_exceptT_bind_ok.mp hf
      rcases ih hf with ⟨hrest, hsame⟩ | ⟨result, hmem, huuid⟩
      · rcases fsUuid_of_step hstep with ⟨hop, hbetween⟩ | ⟨result, hmem, huuid⟩
        · left
          exact ⟨List.forall_mem_cons.mpr ⟨hop, hrest⟩, hsame.trans hbetween⟩
        · right
          refine ⟨result, ?_, hsame.trans huuid⟩
          apply List.mem_append_right _ (List.mem_append_left _ hmem)
      · right
        refine ⟨result, ?_, huuid⟩
        apply List.mem_append_right _ (List.mem_append_right _ hmem)

/-- One of the steps that are built writes the mount unit. -/
theorem writeUnit_of_buildSteps {spec : StoragePlanSpec} {planSteps : List PlanStep}
    (h : buildSteps spec = .ok planSteps) :
  ∃ planStep ∈ planSteps, planStep.op = .writeUnit
  := by
  have hvolume : ∀ pvDevice, ∃ planStep ∈ volumeSteps spec pvDevice, planStep.op = .writeUnit := by
    intro pvDevice
    use ⟨"Create mount unit for " ++ spec.mountpoint, .writeUnit, []⟩
    simp [volumeSteps]
  rw [buildSteps] at h
  split at h
  · split at h
    · cases h
    · rename_i partition partitions _
      cases h
      obtain ⟨planStep, hmem, hop⟩ := hvolume partition
      exact ⟨planStep, List.mem_append_right _ hmem, hop⟩
  · cases h
    obtain ⟨planStep, hmem, hop⟩ := hvolume (arrayDevice spec)
    exact ⟨planStep, List.mem_append_right _ (List.mem_cons_of_mem _ hmem), hop⟩

/-- A body that carries out all its steps reports the result at last. -/
theorem result_of_follows {settings : Settings} {params : StorageExecutePlanParams}
    {h : List (Event StorageOp StorageOp.Answer)}
    (hf : (body settings params).run.Follows h (.done (.ok ()))) :
  ∃ before fsUuid, h = before ++ [⟨.progress 1 1 (String.ofList
      (Json.print Json.dumps (result params.spec fsUuid))), .ok ()⟩]
    ∧ Identifies params.spec before fsUuid
  := by
  obtain ⟨h₁, _, h₂, rfl, -, hf⟩ := Coroutine.follows_exceptT_bind_ok.mp hf
  obtain ⟨h₃, fresh, h₄, rfl, -, hf⟩ := Coroutine.follows_exceptT_bind_ok.mp hf
  obtain ⟨h₅, resolved, h₆, rfl, hresolve, hf⟩ := Coroutine.follows_exceptT_bind_ok.mp hf
  obtain ⟨h₇, planSteps, h₈, rfl, hbuild, hf⟩ := Coroutine.follows_exceptT_bind_ok.mp hf
  obtain ⟨h₉, state, h₁₀, rfl, hsteps, hf⟩ := Coroutine.follows_exceptT_bind_ok.mp hf
  obtain ⟨h₁₁, _, h₁₂, rfl, -, hlast⟩ := Coroutine.follows_exceptT_bind_ok.mp hf
  have hreport := Coroutine.follows_perform.mp hlast
  obtain ⟨paths, -, rfl⟩ := resolve_eq_ok_iff.mp (Async.follows_ofExcept.mp hresolve).2
  have huuid : Identifies params.spec h₉ state.fsUuid := by
    rcases fsUuid_of_steps hsteps with ⟨hnone, -⟩ | huuid
    · obtain ⟨planStep, hmem, hop⟩ :=
        writeUnit_of_buildSteps (Async.follows_ofExcept.mp hbuild).2
      apply absurd hop (hnone planStep hmem)
    · apply huuid
  obtain ⟨answer, hmem, heq⟩ := huuid
  refine ⟨h₁ ++ (h₃ ++ (h₅ ++ (h₇ ++ (h₉ ++ h₁₁)))), state.fsUuid, ?_, answer, ?_, heq⟩
  · rw [hreport]
    simp only [List.append_assoc]
    rfl
  · simp [hmem]

end ExecutePlan

/-- The message that the body of a plan reports at an operation. -/
def StorageOp.reported (e : Event StorageOp StorageOp.Answer) : Option String :=
  match e.1 with
  | .progress _ _ message => some message
  | _ => none

/-! ### The event bus and the registrar -/

/-- `_QUEUE_MAXSIZE`. -/
def EventBus.queueMaxsize : ℕ := 64

/-- `publish`, to the queue of a subscriber: the oldest event makes room for one that the queue has no
room for. -/
def EventBus.publish (queue : List JobEvent) (event : JobEvent) : List JobEvent :=
  if queue.length < queueMaxsize then queue ++ [event] else queue.tail ++ [event]

/-- What is published is queued. -/
theorem EventBus.mem_publish_self (queue : List JobEvent) (event : JobEvent) :
  event ∈ publish queue event
  := by
  rw [publish]
  split
  · exact List.mem_append_right _ List.mem_cons_self
  · exact List.mem_append_right _ List.mem_cons_self

/-- What is queued stays queued, unless it is the oldest event of a full queue. -/
theorem EventBus.mem_publish {queue : List JobEvent} {event : JobEvent} (hevent : event ∈ queue)
    (hroom : ¬ (queueMaxsize ≤ queue.length ∧ queue.head? = some event)) (new : JobEvent) :
  event ∈ publish queue new
  := by
  rw [publish]
  split
  · apply List.mem_append_left _ hevent
  · rename_i hfull
    apply List.mem_append_left
    cases queue with
    | nil => cases hevent
    | cons oldest rest =>
        rcases List.mem_cons.mp hevent with rfl | hrest
        · exact absurd ⟨Nat.le_of_not_lt hfull, rfl⟩ hroom
        · apply hrest

namespace VolumeAutoRegistrar

/-- `KIND`. -/
def kind : String :=
  "storage.execute_plan"

/-- The registrar takes an event for the result of a plan. -/
def wants (event : JobEvent) : Bool :=
  event.kind = kind ∧ event.status = .done

/-- What an event from the queue makes of the volumes. -/
def handle (refused : Bool) (volumes : List Volume) (event : JobEvent) : List Volume :=
  if wants event then register refused volumes event.message else volumes

/-- What is registered stays. -/
theorem mem_handle {volumes : List Volume} {volume : Volume} (h : volume ∈ volumes) (refused : Bool)
    (event : JobEvent) :
  volume ∈ handle refused volumes event
  := by
  rw [handle]
  split
  · rw [register]
    split
    · apply h
    · split
      · apply h
      · apply List.mem_append_left _ h
  · apply h

/-- The volume of a plan is registered when its result is read, nothing else has its name or its
mountpoint, and the database does not refuse it. -/
theorem mem_handle_result {volumes : List Volume} {spec : StoragePlanSpec} {fsUuid : String}
    {event : JobEvent} (hwants : wants event = true)
    (hmessage : event.message = String.ofList (Json.print Json.dumps (ExecutePlan.result spec fsUuid)))
    (hfree : ∀ other ∈ volumes, other.name ≠ spec.volumeName ∧ other.mountpoint ≠ spec.mountpoint) :
  spec.volume fsUuid ∈ handle false volumes event
  := by
  rw [handle, if_pos hwants, hmessage, register, row_result]
  dsimp only
  rw [if_neg]
  · exact List.mem_append_right _ List.mem_cons_self
  · rintro (⟨⟨⟩⟩ | ⟨other, hother, hname | hmountpoint⟩)
    · apply (hfree other hother).1 hname
    · apply (hfree other hother).2 hmountpoint

end VolumeAutoRegistrar

/-- `register_volume`, of a filesystem that is mounted. -/
def VolumesService.registerVolume (volumes : List Volume) (name mountpoint filesystem : String) :
    List Volume :=
  if ∃ other ∈ volumes, other.name = name ∨ other.mountpoint = mountpoint then volumes
  else volumes ++ [⟨name, mountpoint, filesystem, false, none, none, none, .null, .null⟩]

/-- The agent, the queue of the registrar, and the volumes. -/
structure RegistrarWorld where
  agent : ReportingRunner
  queue : List JobEvent
  volumes : List Volume

/-- What happens to them. -/
inductive RegistrarLabel where
  /-- Something happens in the runner of the agent. -/
  | job (a : JobLabel)
  /-- Another runner publishes an event; plans are executed only by the agent. -/
  | other (event : JobEvent)
  /-- The registrar takes an event, and the database may refuse the row that is made of it. -/
  | take (refused : Bool)
  /-- A volume is registered by hand. -/
  | manual (name mountpoint filesystem : String)

/-- What a label is for the runner of the agent. -/
def RegistrarLabel.job? : RegistrarLabel → Option JobLabel
  | .job a => some a
  | _ => none

namespace RegistrarWorld

/-- No job was submitted, and the registrar has subscribed. -/
def start (now : ℕ) (volumes : List Volume) : RegistrarWorld :=
  ⟨.start now, [], volumes⟩

/-- The machine of the agent, the bus and the registrar. -/
def machine : Machine RegistrarWorld RegistrarLabel where
  step s
    | .job a =>
        (ReportingRunner.machine.step s.agent a).map fun agent =>
          { s with
            agent
            queue := (agent.events.drop s.agent.events.length).foldl EventBus.publish s.queue }
    | .other event =>
        if event.kind = VolumeAutoRegistrar.kind then none
        else some { s with queue := EventBus.publish s.queue event }
    | .take refused =>
        match s.queue with
        | [] => none
        | event :: queue =>
            some { s with
              queue
              volumes := VolumeAutoRegistrar.handle refused s.volumes event }
    | .manual name mountpoint filesystem =>
        some { s with
          volumes := VolumesService.registerVolume s.volumes name mountpoint filesystem }

/-- An event is the result of the job at place `i`. -/
def isResult (i : ℕ) (event : JobEvent) : Bool :=
  event.id = i ∧ VolumeAutoRegistrar.wants event

/-- The oldest event of a queue is the result of the job at place `i`. -/
def resultIsOldest (i : ℕ) (queue : List JobEvent) : Bool :=
  queue.head?.any (isResult i)

/-- The result of the job at place `i` is the oldest event of a full queue. -/
def LastChance (s : RegistrarWorld) (i : ℕ) : Prop :=
  EventBus.queueMaxsize ≤ s.queue.length ∧ resultIsOldest i s.queue = true

instance (s : RegistrarWorld) (i : ℕ) : Decidable (s.LastChance i) :=
  inferInstanceAs (Decidable (_ ∧ _))

/-- A label does not lose the result of the job at place `i`: the job is not to be cancelled when its
body returns, nothing is published while the result is the oldest event of a full queue, and when the
registrar takes the result no volume has the name or the mountpoint and the database does not refuse. -/
def Lossless (i : ℕ) (spec : StoragePlanSpec) (s : RegistrarWorld) : RegistrarLabel → Prop
  | .job a =>
      (a.returns i = true → ∀ job ∈ s.agent.runner.jobs[i]?, job.cancelRequested = false)
        ∧ (s.agent.Publishes a → ¬ s.LastChance i)
  | .other _ => ¬ s.LastChance i
  | .take refused => resultIsOldest i s.queue = true →
      refused = false
        ∧ ∀ other ∈ s.volumes, other.name ≠ spec.volumeName ∧ other.mountpoint ≠ spec.mountpoint
  | .manual _ _ _ => True

instance (i : ℕ) (spec : StoragePlanSpec) (s : RegistrarWorld) (a : RegistrarLabel) :
    Decidable (s.Lossless i spec a) :=
  match a with
  | .job a =>
      inferInstanceAs (Decidable
        ((a.returns i = true → ∀ job ∈ s.agent.runner.jobs[i]?, job.cancelRequested = false)
          ∧ (s.agent.Publishes a → ¬ s.LastChance i)))
  | .other _ => inferInstanceAs (Decidable (¬ s.LastChance i))
  | .take refused =>
      inferInstanceAs (Decidable (resultIsOldest i s.queue = true → refused = false
        ∧ ∀ other ∈ s.volumes,
          other.name ≠ spec.volumeName ∧ other.mountpoint ≠ spec.mountpoint))
  | .manual _ _ _ => isTrue trivial

/-- The table has a managed row with the mountpoint, the device, the UUID and the disks of a plan. -/
def Registered (s : RegistrarWorld) (spec : StoragePlanSpec) (fsUuid : String) : Prop :=
  ∃ volume ∈ s.volumes, volume.managed = true ∧ volume.mountpoint = spec.mountpoint
    ∧ volume.device = some (lvDevice spec)
    ∧ volume.uuid = (if fsUuid = "" then none else some fsUuid)
    ∧ volume.diskSerials = .arr (spec.diskSerials.map .str)

/-- Before the body of the job at place `i` returns, it carries out all the steps of a plan, as a
history records. -/
structure CarriedOut (settings : Settings) (params : StorageExecutePlanParams) (i : ℕ)
    (before : List RegistrarLabel) (s : RegistrarWorld)
    (h : List (Event StorageOp StorageOp.Answer)) : Prop where
  follows : (ExecutePlan.body settings params).run.Follows h (.done (.ok ()))
  reports : (before.filterMap RegistrarLabel.job?).filterMap (JobLabel.reported i)
    = h.filterMap StorageOp.reported
  kind : ∃ job, s.agent.runner.jobs[i]? = some job ∧ job.kind = VolumeAutoRegistrar.kind

variable {s s' : RegistrarWorld} {i : ℕ} {spec : StoragePlanSpec} {fsUuid : String}

/-- The result of the job at place `i` is queued, or its volume is registered. -/
def Underway (i : ℕ) (spec : StoragePlanSpec) (fsUuid : String) (s : RegistrarWorld) : Prop :=
  (∃ event ∈ s.queue, isResult i event = true
    ∧ event.message = String.ofList (Json.print Json.dumps (ExecutePlan.result spec fsUuid)))
    ∨ spec.volume fsUuid ∈ s.volumes

/-- A queued result stays queued when something is published, if that does not push it out. -/
theorem mem_publish {queue : List JobEvent} {event : JobEvent} (hevent : event ∈ queue)
    (hresult : isResult i event = true)
    (hchance : ¬ (EventBus.queueMaxsize ≤ queue.length ∧ resultIsOldest i queue = true))
    (new : JobEvent) :
  event ∈ EventBus.publish queue new
  := by
  apply EventBus.mem_publish hevent
  rintro ⟨hfull, hhead⟩
  apply hchance ⟨hfull, _⟩
  rw [resultIsOldest, hhead, Option.any_some, hresult]

/-- A lossless step keeps a result underway. -/
theorem underway_of_step {a : RegistrarLabel} (h : Underway i spec fsUuid s) (ha : s.Lossless i spec a)
    (hstep : machine.step s a = some s') :
  Underway i spec fsUuid s'
  := by
  cases a with
  | job a =>
      obtain ⟨agent, hagent, rfl⟩ := Option.map_eq_some_iff.mp hstep
      rcases h with ⟨event, hevent, hresult, hmessage⟩ | hvolume
      · left
        refine ⟨event, ?_, hresult, hmessage⟩
        obtain ⟨published, hevents, hlength, hnone⟩ := ReportingRunner.events_of_step hagent
        dsimp only
        rw [hevents, List.drop_left]
        by_cases hpublishes : s.agent.Publishes a
        · match published, hlength with
          | [], _ => apply hevent
          | [new], _ => apply mem_publish hevent hresult (ha.2 hpublishes)
        · rw [hnone hpublishes]
          apply hevent
      · right
        apply hvolume
  | other new =>
      obtain ⟨-, hstep⟩ := Option.ite_none_left_eq_some.mp hstep
      cases hstep
      rcases h with ⟨event, hevent, hresult, hmessage⟩ | hvolume
      · left
        exact ⟨event, mem_publish hevent hresult ha new, hresult, hmessage⟩
      · right
        apply hvolume
  | take refused =>
      simp only [machine] at hstep
      split at hstep
      · cases hstep
      · rename_i head queue hqueue
        cases hstep
        rcases h with ⟨event, hevent, hresult, hmessage⟩ | hvolume
        · rw [hqueue] at hevent
          rcases List.mem_cons.mp hevent with rfl | hevent
          · right
            have holdest : resultIsOldest i s.queue = true := by
              rw [hqueue, resultIsOldest, List.head?_cons, Option.any_some, hresult]
            obtain ⟨hrefused, hfree⟩ := ha holdest
            rw [hrefused]
            apply VolumeAutoRegistrar.mem_handle_result (of_decide_eq_true hresult).2 hmessage hfree
          · left
            exact ⟨event, hevent, hresult, hmessage⟩
        · right
          apply VolumeAutoRegistrar.mem_handle hvolume
  | manual name mountpoint filesystem =>
      cases hstep
      rcases h with hevent | hvolume
      · left
        apply hevent
      · right
        dsimp only
        rw [VolumesService.registerVolume]
        split
        · apply hvolume
        · apply List.mem_append_left _ hvolume

/-- What happens in the agent is a run of its runner. -/
theorem agent_of_run {labels : List RegistrarLabel} (hrun : machine.run s labels = some s') :
  ReportingRunner.machine.run s.agent (labels.filterMap RegistrarLabel.job?) = some s'.agent
  := by
  induction labels generalizing s with
  | nil =>
      cases hrun
      rfl
  | cons a labels ih =>
      obtain ⟨t, hstep, hrun⟩ := machine.run_cons_eq_some.mp hrun
      rw [← ih hrun]
      cases a with
      | job a =>
          obtain ⟨agent, hagent, rfl⟩ := Option.map_eq_some_iff.mp hstep
          have hjob : RegistrarLabel.job? (.job a) = some a := rfl
          rw [List.filterMap_cons_some hjob, ReportingRunner.machine.run_cons, hagent,
            Option.bind_some]
      | other new =>
          obtain ⟨-, hstep⟩ := Option.ite_none_left_eq_some.mp hstep
          cases hstep
          rfl
      | take refused =>
          simp only [machine] at hstep
          split at hstep
          · cases hstep
          · cases hstep
            rfl
      | manual name mountpoint filesystem =>
          cases hstep
          rfl

/-- The volume of a plan is the row that is looked for. -/
theorem Registered.of_mem (h : spec.volume fsUuid ∈ s.volumes) :
  s.Registered spec fsUuid
  := ⟨spec.volume fsUuid, h, rfl, rfl, rfl, rfl, rfl⟩

/-- When a body that carried out all its steps returns, its result is underway. -/
theorem underway_of_finish {settings : Settings} {params : StorageExecutePlanParams} {now : ℕ}
    {volumes : List Volume} {before : List RegistrarLabel}
    {h : List (Event StorageOp StorageOp.Answer)}
    (hrun : machine.run (start now volumes) before = some s)
    (hcarried : CarriedOut settings params i before s h)
    (hlossless : s.Lossless i params.spec (.job (.finish i none)))
    (hstep : machine.step s (.job (.finish i none)) = some s') :
  ∃ fsUuid, ExecutePlan.Identifies params.spec h fsUuid ∧ Underway i params.spec fsUuid s'
  := by
  obtain ⟨reported, fsUuid, rfl, answer, hanswer, huuid⟩ :=
    ExecutePlan.result_of_follows hcarried.follows
  refine ⟨fsUuid, ⟨answer, List.mem_append_left _ hanswer, huuid⟩, ?_⟩
  obtain ⟨agent, hagent, rfl⟩ := Option.map_eq_some_iff.mp hstep
  obtain ⟨job, hjob, hkind⟩ := hcarried.kind
  have hbody : job.stage = .body := by
    obtain ⟨-, runner, hadvance, -⟩ := ReportingRunner.step_eq_some.mp hagent
    obtain ⟨job', ended, hjob', hnext, -⟩ := JobRunner.step_eq_some.mp hadvance
    cases hjob.symm.trans hjob'
    exact (Option.ite_none_right_eq_some.mp hnext).1
  have hagentRun := agent_of_run hrun
  have hcancel : job.cancelRequested = false := by
    apply hlossless.1 _ job hjob
    simp [JobLabel.returns]
  obtain ⟨event, hevents, hid, heventKind, hstatus, hmessage⟩ :=
    ReportingRunner.finish_events hjob hcancel hagent
  rw [ReportingRunner.message_of_run hagentRun
      (ReportingRunner.not_finishes_of_run hagentRun hjob hbody),
    hcarried.reports, List.filterMap_append, List.foldl_append] at hmessage
  left
  refine ⟨event, ?_, ?_, ?_⟩
  · dsimp only
    rw [hevents, List.drop_left]
    apply EventBus.mem_publish_self
  · simp [isResult, VolumeAutoRegistrar.wants, hid, heventKind, hkind, hstatus]
  · rw [hmessage]
    exact if_neg (ExecutePlan.print_result_ne params.spec fsUuid)

/-- In every run in which a body carries out all the steps of a plan and no step loses its result, once
the registrar has emptied its queue the table has a managed row with the mountpoint, the device, the
UUID and the disks of the plan. -/
theorem registered_of_run {settings : Settings} {params : StorageExecutePlanParams} {now : ℕ}
    {volumes : List Volume} {before after : List RegistrarLabel} {s' : RegistrarWorld}
    {h : List (Event StorageOp StorageOp.Answer)}
    (hbefore : machine.run (start now volumes) before = some s)
    (hcarried : CarriedOut settings params i before s h)
    (hafter : machine.run s (.job (.finish i none) :: after) = some s')
    (hlossless : machine.Along (Lossless i params.spec) s (.job (.finish i none) :: after))
    (hempty : s'.queue = []) :
  ∃ fsUuid, ExecutePlan.Identifies params.spec h fsUuid ∧ s'.Registered params.spec fsUuid
  := by
  obtain ⟨t, hstep, hrun⟩ := machine.run_cons_eq_some.mp hafter
  obtain ⟨hfinish, hrest⟩ := hlossless
  obtain ⟨fsUuid, huuid, hunderway⟩ := underway_of_finish hbefore hcarried hfinish hstep
  have hlast : Underway i params.spec fsUuid s' := by
    apply Machine.run_invariant _ hunderway (hrest t hstep) hrun
    intro u a u' hu ha hstep
    apply underway_of_step hu ha hstep
  use fsUuid, huuid
  rcases hlast with ⟨event, hevent, -⟩ | hvolume
  · rw [hempty] at hevent
    cases hevent
  · apply Registered.of_mem hvolume

/-! ### A plan that is carried out -/

/-- A plan for a volume on one disk. -/
def volumePlan : StorageExecutePlanParams where
  spec := ⟨"volume1", .basic, .xfs, ["/dev/sdb"], ["S1"], "volume1", "nasos_volume1", "volume1",
    "/volume1"⟩
  expectedSizes := [("S1", 4000)]
  managedMountpoints := []

/-- What a system answers on which everything succeeds. -/
def volumeAnswer : (op : StorageOp) → op.Answer
  | .progress _ _ _ => .ok ()
  | .gather => .ok ⟨[StorageService.spareDisk "sdb" "S1"], [], []⟩
  | .run ("blkid" :: _) => .ok ⟨0, "4f1c-22\n", ""⟩
  | .run _ => .ok ⟨0, "volume1.mount\n", ""⟩
  | .writeAtomic _ _ => .ok false
  | .backup _ _ => .ok ()
  | .daemonReload => .ok ()
  | .enable _ => .ok ()
  | .start _ => .ok ()
  | .waitActive _ _ => .ok ()
  | .makedirs _ => .ok ()

/-- What the body of the plan does. -/
def volumeHistory : List (Event StorageOp StorageOp.Answer) :=
  (ExecutePlan.body StorageService.webSettings volumePlan).run.transcript volumeAnswer

/-- What the body of the plan reports. -/
def volumeReports : List String :=
  ["Re-checking device safety", "Wipe existing signatures on /dev/sdb",
    "Create partition table on /dev/sdb", "Initialize physical volume on /dev/sdb1",
    "Create volume group nasos_volume1", "Create logical volume volume1", "Create xfs filesystem",
    "Create mount unit for /volume1", "Ensure nasos-volumes.target exists",
    "Update service drop-ins (RequiresMountsFor)", "Reload systemd",
    "Enable and start mount for /volume1", "Apply SELinux context to /volume1",
    String.ofList (Json.print Json.dumps (ExecutePlan.result volumePlan.spec "4f1c-22"))]

/-- The body reports these. -/
theorem reported_volumeHistory :
  volumeHistory.filterMap StorageOp.reported = volumeReports
  := rfl

/-- The plan is submitted, and its body carries out all its steps. -/
def carryOut : List RegistrarLabel :=
  [.job (.submit VolumeAutoRegistrar.kind (some "storage")), .job (.acquire 0), .job (.begin 0)]
    ++ volumeReports.map fun message => .job (.progress 0 0 message)

/-- A run in which a body carries out the plan: the volumes there are at first, what happens before the
body returns, and what happens then. -/
structure Scenario where
  volumes : List Volume
  before : List RegistrarLabel
  after : List RegistrarLabel

/-- The registrar takes some events. -/
def takes (n : ℕ) : List RegistrarLabel :=
  List.replicate n (.take false)

/-- Nothing is in the way of the result. -/
def smoothScenario : Scenario :=
  ⟨[], carryOut, takes 2⟩

/-- The job is to be cancelled after its last report. -/
def cancelScenario : Scenario :=
  ⟨[], carryOut ++ [.job (.cancel 0)], takes 2⟩

/-- A copy of files reports its progress 64 times before the registrar reads its queue. -/
def busyScenario : Scenario :=
  ⟨[], carryOut, List.replicate 64 (.other ⟨0, "files.copy", none, .running, 0, ""⟩) ++ takes 64⟩

/-- There is a volume of the name, at another mountpoint. -/
def clashScenario : Scenario :=
  ⟨[⟨"volume1", "/mnt/old", "ext4", false, none, none, none, .null, .null⟩], carryOut, takes 2⟩

/-- The run of a scenario ends in a world that satisfies a test, and the reports of its job are those of
the body. -/
def Scenario.endsWith (scenario : Scenario) (test : RegistrarWorld → Bool) : Bool :=
  (machine.run (start 1 scenario.volumes) scenario.before).any fun s =>
    decide ((scenario.before.filterMap RegistrarLabel.job?).filterMap (JobLabel.reported 0)
        = volumeReports)
      && s.agent.runner.jobs[0]?.any (fun job => job.kind = VolumeAutoRegistrar.kind)
      && (machine.run s (.job (.finish 0 none) :: scenario.after)).any test

/-- A run of a scenario whose end is known. -/
theorem Scenario.run_of_endsWith {scenario : Scenario} {test : RegistrarWorld → Bool}
    (h : scenario.endsWith test = true) :
  ∃ s s', machine.run (start 1 scenario.volumes) scenario.before = some s
    ∧ CarriedOut StorageService.webSettings volumePlan 0 scenario.before s volumeHistory
    ∧ machine.run s (.job (.finish 0 none) :: scenario.after) = some s' ∧ test s' = true
  := by
  obtain ⟨s, hbefore, hs⟩ := (Option.any_eq_true _ _).mp h
  rw [Bool.and_eq_true, Bool.and_eq_true, decide_eq_true_eq] at hs
  obtain ⟨⟨hreports, hkind⟩, hafter⟩ := hs
  obtain ⟨job, hjob, hkind⟩ := (Option.any_eq_true _ _).mp hkind
  obtain ⟨s', hafter, htest⟩ := (Option.any_eq_true _ _).mp hafter
  exact ⟨s, s', hbefore, ⟨Coroutine.follows_transcript volumeAnswer _,
    hreports.trans reported_volumeHistory.symm, job, hjob, of_decide_eq_true hkind⟩, hafter, htest⟩

/-- The volume of a plan is registered. -/
theorem registered_smooth :
  ∃ (s' : RegistrarWorld) (fsUuid : String),
    ExecutePlan.Identifies volumePlan.spec volumeHistory fsUuid
      ∧ s'.Registered volumePlan.spec fsUuid
  := by
  have hends : smoothScenario.endsWith (fun s' => s'.queue.isEmpty) = true := by decide +kernel
  obtain ⟨s, s', hbefore, hcarried, hafter, hempty⟩ := Scenario.run_of_endsWith hends
  have hlossless : (machine.run (start 1 []) carryOut).all fun s => decide (machine.Along
      (Lossless 0 volumePlan.spec) s (.job (.finish 0 none) :: takes 2)) := by decide +kernel
  use s'
  apply registered_of_run hbefore hcarried hafter _ (List.isEmpty_iff.mp hempty)
  apply of_decide_eq_true ((Option.all_eq_true _ _).mp hlossless s hbefore)

/-- The plan was carried out, the registrar has read its queue, and the volume is not registered. -/
def Scenario.Loses (scenario : Scenario) : Prop :=
  ∃ s s', machine.run (start 1 scenario.volumes) scenario.before = some s
    ∧ CarriedOut StorageService.webSettings volumePlan 0 scenario.before s volumeHistory
    ∧ machine.run s (.job (.finish 0 none) :: scenario.after) = some s'
    ∧ s'.queue = [] ∧ ∀ fsUuid, ¬ s'.Registered volumePlan.spec fsUuid

/-- A run after which no volume is mounted where the plan has it. -/
theorem Scenario.loses_of_endsWith {scenario : Scenario}
    (h : scenario.endsWith (fun s' => s'.queue.isEmpty
      && s'.volumes.all fun volume => volume.mountpoint ≠ "/volume1") = true) :
  scenario.Loses
  := by
  obtain ⟨s, s', hbefore, hcarried, hafter, hs'⟩ := Scenario.run_of_endsWith h
  rw [Bool.and_eq_true, List.isEmpty_iff, List.all_eq_true] at hs'
  refine ⟨s, s', hbefore, hcarried, hafter, hs'.1, ?_⟩
  rintro fsUuid ⟨volume, hvolume, -, hmountpoint, -⟩
  exact of_decide_eq_true (hs'.2 volume hvolume) hmountpoint

/-- The result of a plan that was carried out is lost when the job was to be cancelled, when the registrar
reads its queue only after 64 more events, and when there is a volume of the name. -/
theorem not_registered :
  cancelScenario.Loses ∧ busyScenario.Loses ∧ clashScenario.Loses
  := by
  refine ⟨?_, ?_, ?_⟩
  · apply Scenario.loses_of_endsWith
    decide +kernel
  · apply Scenario.loses_of_endsWith
    decide +kernel
  · apply Scenario.loses_of_endsWith
    decide +kernel

end RegistrarWorld
