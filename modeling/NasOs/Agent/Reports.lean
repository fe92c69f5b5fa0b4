import Mathlib.Data.List.Induction
import Mathlib.Data.Rat.Defs
import Mathlib.Algebra.Order.Ring.Unbundled.Rat
import NasOs.Agent.Concurrency

/-!
# What jobs report

The runner with what it tells of its jobs: a job has a progress and a message, which its body may set,
the record of a job is published when the body begins and ends and, at most every half a second, when
it reports progress, and a job that is done, failed or cancelled is written to the log.

`Kept` is what the runner promises of every run.  Two of its clauses have a proviso: jobs whose
resource is the empty string have no lock, and a body that raises something that is not an `Exception`
leaves its record running, of which the log holds nothing.

Time is counted in nanoseconds, progress in rational numbers.
-/

/-- The status is one of those that the log holds. -/
def JobStatus.isFinal : JobStatus → Bool
  | .done => true
  | .failed => true
  | .cancelled => true
  | _ => false

/-- What `to_event` makes of a record, which is also a line of the log. -/
structure JobEvent where
  id : ℕ
  kind : String
  resource : Option String
  status : JobStatus
  progress : ℚ
  message : String
  deriving DecidableEq

/-- What a job tells of itself, and `_last_publish` of its handle. -/
structure Report where
  progress : ℚ
  message : String
  lastPublish : ℕ

/-- `JobRunner` with the reports of its jobs, the events it passed on, the log, and the clock. -/
structure ReportingRunner where
  runner : JobRunner
  reports : ℕ → Report
  events : List JobEvent
  log : List JobEvent
  now : ℕ

/-- What happens in a runner. -/
inductive JobLabel where
  /-- `submit`. -/
  | submit (kind : String) (resource : Option String)
  /-- `request_cancel`. -/
  | cancel (i : ℕ)
  /-- The task is given the semaphore. -/
  | acquire (i : ℕ)
  /-- The task is given the lock of its resource, if there is one, and begins the body. -/
  | begin (i : ℕ)
  /-- The body calls `progress`. -/
  | progress (i : ℕ) (fraction : ℚ) (message : String)
  /-- The body returns, or it raises an `Exception` with a text. -/
  | finish (i : ℕ) (error : Option String)
  /-- The body raises a `BaseException` that is not an `Exception`. -/
  | abort (i : ℕ)
  /-- Time passes. -/
  | elapse (duration : ℕ)

/-- The label begins the body of the job at place `i`. -/
def JobLabel.begins (i : ℕ) : JobLabel → Bool
  | .begin j => j = i
  | _ => false

/-- The label ends the body of the job at place `i`, which returns or raises an `Exception`. -/
def JobLabel.finishes (i : ℕ) : JobLabel → Bool
  | .finish j _ => j = i
  | _ => false

/-- The body of the job at place `i` returns at a label. -/
def JobLabel.returns (i : ℕ) : JobLabel → Bool
  | .finish j none => j = i
  | _ => false

/-- The message that the job at place `i` reports at a label. -/
def JobLabel.reported (i : ℕ) : JobLabel → Option String
  | .progress j _ message => if j = i then some message else none
  | _ => none

/-- What a label is for the runner. -/
def JobLabel.inner : JobLabel → Option JobRunner.Label
  | .submit kind resource => some (.submit kind resource)
  | .cancel i => some (.step (.cancel i))
  | .acquire i => some (.step (.acquire i))
  | .begin i => some (.step (.begin i))
  | .finish i error => some (.step (.finish i error.isSome))
  | .abort i => some (.abort i)
  | .progress _ _ _ => none
  | .elapse _ => none

namespace ReportingRunner

/-- `PROGRESS_THROTTLE_SECONDS`. -/
def progressThrottle : ℕ := 500000000

/-- A runner without jobs. -/
def start (now : ℕ) : ReportingRunner :=
  ⟨.empty, fun _ => ⟨0, "", 0⟩, [], [], now⟩

/-- `to_event` of a job. -/
def event (s : ReportingRunner) (i : ℕ) (job : Job) : JobEvent :=
  ⟨i, job.kind, job.resource, job.stage.status, (s.reports i).progress, (s.reports i).message⟩

/-- Change what a job tells of itself. -/
def report (s : ReportingRunner) (i : ℕ) (f : Report → Report) : ReportingRunner :=
  { s with reports := Function.update s.reports i (f (s.reports i)) }

/-- `_publish`. -/
def publish (s : ReportingRunner) (i : ℕ) : ReportingRunner :=
  match s.runner.jobs[i]? with
  | some job => { s with events := s.events ++ [s.event i job] }
  | none => s

/-- `_append_result`. -/
def appendResult (s : ReportingRunner) (i : ℕ) : ReportingRunner :=
  match s.runner.jobs[i]? with
  | some job => if job.stage.status.isFinal then { s with log := s.log ++ [s.event i job] } else s
  | none => s

/-- `JobHandle.progress`. -/
def progress (s : ReportingRunner) (i : ℕ) (fraction : ℚ) (message : String) : ReportingRunner :=
  let told := s.report i fun report =>
    { report with
      progress := max 0 (min 1 fraction)
      message := if message = "" then report.message else message }
  if (s.reports i).lastPublish + progressThrottle ≤ s.now then
    (told.report i fun report => { report with lastPublish := s.now }).publish i
  else told

/-- The status of a job that ended is known: set its progress or its message. -/
def settle (s : ReportingRunner) (i : ℕ) : Option String → ReportingRunner
  | some error => s.report i fun report => { report with message := error }
  | none =>
      match s.runner.jobs[i]? with
      | some job =>
          if job.stage.status = .done then s.report i fun report => { report with progress := 1 }
          else s
      | none => s

/-- What the reports, the events and the log become, after the runner made its step. -/
def tell (s : ReportingRunner) : JobLabel → ReportingRunner
  | .begin i => s.publish i
  | .progress i fraction message => s.progress i fraction message
  | .finish i error => ((s.settle i error).publish i).appendResult i
  | .abort i => (s.publish i).appendResult i
  | .elapse duration => { s with now := s.now + duration }
  | _ => s

/-- A body reports progress while it executes. -/
def Allows (s : ReportingRunner) : JobLabel → Prop
  | .progress i _ _ => s.runner.Executes i
  | _ => True

instance (s : ReportingRunner) (a : JobLabel) : Decidable (s.Allows a) :=
  match a with
  | .progress i _ _ =>
      decidable_of_iff (∃ job ∈ s.runner.jobs[i]?, job.stage = .body) Iff.rfl
  | .submit _ _ => isTrue trivial
  | .cancel _ => isTrue trivial
  | .acquire _ => isTrue trivial
  | .begin _ => isTrue trivial
  | .finish _ _ => isTrue trivial
  | .abort _ => isTrue trivial
  | .elapse _ => isTrue trivial

/-- The runner after a label. -/
def advance (s : ReportingRunner) (a : JobLabel) : Option JobRunner :=
  match a.inner with
  | some label => JobRunner.machine.step s.runner label
  | none => some s.runner

/-- The machine of a runner that reports. -/
def machine : Machine ReportingRunner JobLabel where
  step s a :=
    if s.Allows a then (s.advance a).map fun runner => { s with runner }.tell a
    else none

variable {s s' : ReportingRunner}

/-- A step of the runner, and what is told of it. -/
theorem step_eq_some {a : JobLabel} :
  machine.step s a = some s'
    ↔ s.Allows a ∧ ∃ runner, s.advance a = some runner ∧ s' = { s with runner }.tell a
  := by
  change (if s.Allows a then _ else none) = some s' ↔ _
  rw [Option.ite_none_right_eq_some, Option.map_eq_some_iff]
  simp only [eq_comm]

@[simp]
theorem runner_report (s : ReportingRunner) (i : ℕ) (f : Report → Report) :
  (s.report i f).runner = s.runner
  := rfl

@[simp]
theorem log_report (s : ReportingRunner) (i : ℕ) (f : Report → Report) :
  (s.report i f).log = s.log
  := rfl

@[simp]
theorem runner_publish (s : ReportingRunner) (i : ℕ) :
  (s.publish i).runner = s.runner
  := by
  rw [publish]
  cases s.runner.jobs[i]? with
  | none => rfl
  | some job => rfl

@[simp]
theorem log_publish (s : ReportingRunner) (i : ℕ) :
  (s.publish i).log = s.log
  := by
  rw [publish]
  cases s.runner.jobs[i]? with
  | none => rfl
  | some job => rfl

@[simp]
theorem runner_appendResult (s : ReportingRunner) (i : ℕ) :
  (s.appendResult i).runner = s.runner
  := by
  rw [appendResult]
  split
  · split
    · rfl
    · rfl
  · rfl

@[simp]
theorem runner_settle (s : ReportingRunner) (i : ℕ) (error : Option String) :
  (s.settle i error).runner = s.runner
  := by
  cases error with
  | some error => rfl
  | none =>
      rw [settle]
      split
      · split
        · rfl
        · rfl
      · rfl

@[simp]
theorem log_settle (s : ReportingRunner) (i : ℕ) (error : Option String) :
  (s.settle i error).log = s.log
  := by
  cases error with
  | some error => rfl
  | none =>
      rw [settle]
      split
      · split
        · rfl
        · rfl
      · rfl

@[simp]
theorem runner_progress (s : ReportingRunner) (i : ℕ) (fraction : ℚ) (message : String) :
  (s.progress i fraction message).runner = s.runner
  := by
  simp only [progress]
  split
  · simp
  · simp

@[simp]
theorem log_progress (s : ReportingRunner) (i : ℕ) (fraction : ℚ) (message : String) :
  (s.progress i fraction message).log = s.log
  := by
  simp only [progress]
  split
  · simp
  · simp

/-- What is told changes nothing in the runner. -/
theorem runner_tell (s : ReportingRunner) (a : JobLabel) :
  (s.tell a).runner = s.runner
  := by
  cases a with
  | _ => simp [tell]

/-- What a runner's jobs do is what the runner that tells nothing of them does. -/
theorem runner_of_run {now : ℕ} {labels : List JobLabel}
    (hrun : machine.run (start now) labels = some s) :
  JobRunner.machine.run .empty (labels.filterMap JobLabel.inner) = some s.runner
  := by
  induction labels using List.reverseRec generalizing s with
  | nil =>
      cases hrun
      rfl
  | append_singleton labels a ih =>
      rw [machine.run_append] at hrun
      obtain ⟨before, hbefore, hlast⟩ := Option.bind_eq_some_iff.mp hrun
      obtain ⟨after, hstep, hnil⟩ := machine.run_cons_eq_some.mp hlast
      cases hnil
      obtain ⟨-, runner, hadvance, rfl⟩ := step_eq_some.mp hstep
      rw [List.filterMap_append, JobRunner.machine.run_append, ih hbefore, runner_tell,
        Option.bind_some]
      rw [advance] at hadvance
      cases hinner : a.inner with
      | none =>
          rw [hinner] at hadvance
          cases hadvance
          rw [List.filterMap_cons_none hinner]
          rfl
      | some label =>
          rw [hinner] at hadvance
          rw [List.filterMap_cons_some hinner]
          exact JobRunner.machine.run_cons_eq_some.mpr ⟨runner, hadvance, rfl⟩

/-! ### The history of a job -/

/-- The lines of the log about a job. -/
def lines (s : ReportingRunner) (i : ℕ) : List JobEvent :=
  s.log.filter fun line => line.id = i

/-- The stage of the job at place `i`. -/
def stage? (s : ReportingRunner) (i : ℕ) : Option TaskStage :=
  s.runner.jobs[i]?.map Job.stage

/-- What is told changes no stage. -/
theorem stage?_tell (s : ReportingRunner) (runner : JobRunner) (a : JobLabel) (i : ℕ) :
  ({ s with runner }.tell a).stage? i = runner.jobs[i]?.map Job.stage
  := by
  rw [stage?, runner_tell]

/-- The body of a job at a stage has begun. -/
def begun : Option TaskStage → Bool
  | some .body => true
  | some (.ended _) => true
  | _ => false

/-- The statuses that the log holds of a job at a stage. -/
def logged : Option TaskStage → List JobStatus
  | some (.ended status) => if status.isFinal then [status] else []
  | _ => []

/-- What a label makes of the stage of a job. -/
inductive StageStep (i : ℕ) : JobLabel → Option TaskStage → Option TaskStage → Prop where
  /-- The label is not about the job, or it changes nothing of its stage. -/
  | same (a : JobLabel) (stage : Option TaskStage) (hbegins : a.begins i = false)
      (hfinishes : a.finishes i = false) : StageStep i a stage stage
  | submit (kind : String) (resource : Option String) :
      StageStep i (.submit kind resource) none (some .semaphore)
  | acquire : StageStep i (.acquire i) (some .semaphore) (some .lock)
  | begin : StageStep i (.begin i) (some .lock) (some .body)
  | finish (error : Option String) (status : JobStatus) (hfinal : status.isFinal = true) :
      StageStep i (.finish i error) (some .body) (some (.ended status))
  | abort : StageStep i (.abort i) (some .body) (some (.ended .running))

/-- The stage of a job after another was replaced. -/
theorem stage?_set {runner : JobRunner} {i : ℕ} {job job' : Job} (hjob : runner.jobs[i]? = some job) :
  (runner.jobs.set i job')[i]?.map Job.stage = some job'.stage
  := by
  obtain ⟨hi, -⟩ := List.getElem?_eq_some_iff.mp hjob
  rw [List.getElem?_set_self hi]
  rfl

/-- The status with which a body that ended leaves its job. -/
theorem isFinal_outcome (job : Job) (raised : Bool) :
  (job.outcome raised).isFinal = true
  := by
  rw [Job.outcome]
  split
  · rfl
  · split
    · rfl
    · rfl

/-- A step that is about one job takes that from stage to stage, and leaves the others. -/
theorem stageStep_of_set {a : JobLabel} {i j : ℕ} {job job' : Job}
    (hjob : s.runner.jobs[j]? = some job)
    (hself : StageStep j a (some job.stage) (some job'.stage))
    (hother : i ≠ j → a.begins i = false ∧ a.finishes i = false) :
  StageStep i a (s.stage? i) ((s.runner.jobs.set j job')[i]?.map Job.stage)
  := by
  by_cases hij : i = j
  · subst hij
    rw [stage?_set hjob, stage?, hjob]
    apply hself
  · rw [List.getElem?_set_ne (Ne.symm hij)]
    obtain ⟨hbegins, hfinishes⟩ := hother hij
    exact StageStep.same a _ hbegins hfinishes

/-- A step of a runner takes every job from stage to stage. -/
theorem stageStep_of_advance {a : JobLabel} {runner : JobRunner} (h : s.advance a = some runner)
    (i : ℕ) :
  StageStep i a (s.stage? i) (runner.jobs[i]?.map Job.stage)
  := by
  cases a with
  | submit kind resource =>
      cases h
      rw [stage?]
      rcases Nat.lt_trichotomy i s.runner.jobs.length with hlt | rfl | hgt
      · rw [JobRunner.submit, List.getElem?_append_left hlt]
        exact StageStep.same _ _ rfl rfl
      · rw [List.getElem?_eq_none (Nat.le_refl _), JobRunner.submit, List.getElem?_concat_length]
        exact StageStep.submit kind resource
      · rw [List.getElem?_eq_none (Nat.le_of_lt hgt), JobRunner.submit, List.getElem?_eq_none]
        · exact StageStep.same _ _ rfl rfl
        · rw [List.length_append, List.length_singleton]
          omega
  | cancel j =>
      obtain ⟨job, job', hjob, hnext, rfl⟩ := JobRunner.step_eq_some.mp h
      apply stageStep_of_set hjob
      · simp only [JobRunner.next] at hnext
        split at hnext
        · cases hnext
        · cases hnext
          exact StageStep.same _ _ rfl rfl
      · exact fun _ => ⟨rfl, rfl⟩
  | acquire j =>
      obtain ⟨job, job', hjob, hnext, rfl⟩ := JobRunner.step_eq_some.mp h
      obtain ⟨⟨hstage, -⟩, hnext⟩ := Option.ite_none_right_eq_some.mp hnext
      cases hnext
      apply stageStep_of_set hjob
      · rw [hstage]
        exact StageStep.acquire
      · exact fun _ => ⟨rfl, rfl⟩
  | begin j =>
      obtain ⟨job, job', hjob, hnext, rfl⟩ := JobRunner.step_eq_some.mp h
      obtain ⟨⟨hstage, -⟩, hnext⟩ := Option.ite_none_right_eq_some.mp hnext
      cases hnext
      apply stageStep_of_set hjob
      · rw [hstage]
        exact StageStep.begin
      · exact fun hne => ⟨decide_eq_false (Ne.symm hne), rfl⟩
  | finish j error =>
      obtain ⟨job, job', hjob, hnext, rfl⟩ := JobRunner.step_eq_some.mp h
      obtain ⟨hstage, hnext⟩ := Option.ite_none_right_eq_some.mp hnext
      cases hnext
      apply stageStep_of_set hjob
      · rw [hstage]
        exact StageStep.finish error _ (isFinal_outcome job _)
      · exact fun hne => ⟨rfl, decide_eq_false (Ne.symm hne)⟩
  | abort j =>
      obtain ⟨job, hjob, h⟩ := Option.bind_eq_some_iff.mp h
      obtain ⟨hstage, h⟩ := Option.ite_none_right_eq_some.mp h
      cases h
      apply stageStep_of_set hjob
      · rw [hstage]
        exact StageStep.abort
      · exact fun _ => ⟨rfl, rfl⟩
  | progress j fraction message =>
      cases h
      exact StageStep.same _ _ rfl rfl
  | elapse duration =>
      cases h
      exact StageStep.same _ _ rfl rfl

/-- `_append_result` writes a line about a job that is done, failed or cancelled. -/
theorem log_appendResult {i : ℕ} {job : Job} (hjob : s.runner.jobs[i]? = some job) :
  (s.appendResult i).log
    = s.log ++ if job.stage.status.isFinal then [s.event i job] else []
  := by
  rw [appendResult, hjob]
  dsimp only
  split
  · rfl
  · rw [List.append_nil]

/-- The lines that a label adds to the log are about the job whose body it ends. -/
theorem lines_tell {a : JobLabel} {runner : JobRunner} (h : s.advance a = some runner) (i : ℕ) :
  (({ s with runner }.tell a).lines i).map JobEvent.status
    = (s.lines i).map JobEvent.status
        ++ if a.finishes i then logged (runner.jobs[i]?.map Job.stage) else []
  := by
  cases a with
  | finish j error =>
      obtain ⟨job, job', hjob, hnext, rfl⟩ := JobRunner.step_eq_some.mp h
      obtain ⟨hstage, hnext⟩ := Option.ite_none_right_eq_some.mp hnext
      cases hnext
      obtain ⟨hj, -⟩ := List.getElem?_eq_some_iff.mp hjob
      have hfinal := isFinal_outcome job error.isSome
      rw [lines, tell, log_appendResult (by
        rw [runner_publish, runner_settle]
        apply List.getElem?_set_self hj)]
      simp only [TaskStage.status, hfinal, if_true, log_publish, log_settle, List.filter_append,
        List.map_append, lines, JobRunner.Step.index]
      congr 1
      by_cases hij : j = i
      · subst hij
        have hset := @stage?_set _ _ _ { job with stage := .ended (job.outcome error.isSome) } hjob
        simp only [JobRunner.Step.index] at hset
        simp [JobLabel.finishes, event, hset, logged, hfinal, TaskStage.status]
      · simp [JobLabel.finishes, event, hij]
  | abort j =>
      obtain ⟨job, hjob, h⟩ := Option.bind_eq_some_iff.mp h
      obtain ⟨hstage, h⟩ := Option.ite_none_right_eq_some.mp h
      cases h
      obtain ⟨hj, -⟩ := List.getElem?_eq_some_iff.mp hjob
      rw [lines, tell, log_appendResult (by
        rw [runner_publish]
        apply List.getElem?_set_self hj)]
      simp [TaskStage.status, JobStatus.isFinal, JobLabel.finishes, lines]
  | _ => simp [lines, tell, JobLabel.finishes]

/-- The history of a job: how often its body has begun, how often it has ended, and what the log
holds are told by its stage. -/
structure History (labels : List JobLabel) (s : ReportingRunner) (i : ℕ) : Prop where
  begins : labels.countP (JobLabel.begins i) = (begun (s.stage? i)).toNat
  finishes : labels.countP (JobLabel.finishes i) = (logged (s.stage? i)).length
  log : (s.lines i).map JobEvent.status = logged (s.stage? i)

/-- A step takes the history of a job on. -/
theorem History.of_step {labels : List JobLabel} {s' : ReportingRunner} {a : JobLabel} {i : ℕ}
    {old : Option TaskStage} (hstep : StageStep i a old (s'.stage? i))
    (hbegins : labels.countP (JobLabel.begins i)
      = (begun old).toNat + if a.begins i then 1 else 0)
    (hfinishes : labels.countP (JobLabel.finishes i)
      = (logged old).length + if a.finishes i then 1 else 0)
    (hlog : (s'.lines i).map JobEvent.status
      = logged old ++ if a.finishes i then logged (s'.stage? i) else []) :
  History labels s' i
  := by
  have hnew : ∀ new, StageStep i a old new →
      (begun old).toNat + (if a.begins i then 1 else 0) = (begun new).toNat
        ∧ (logged old).length + (if a.finishes i then 1 else 0) = (logged new).length
        ∧ (logged old ++ if a.finishes i then logged new else []) = logged new := by
    intro new hstep
    cases hstep with
    | same _ _ hbegins hfinishes => simp [hbegins, hfinishes]
    | finish error status hfinal => simp [JobLabel.begins, JobLabel.finishes, begun, logged, hfinal]
    | _ => simp [JobLabel.begins, JobLabel.finishes, begun, logged, JobStatus.isFinal]
  obtain ⟨hbegun, hlogged, hlines⟩ := hnew _ hstep
  constructor
  · rw [hbegins, hbegun]
  · rw [hfinishes, hlogged]
  · rw [hlog, hlines]

/-- Every job has its history. -/
theorem history_of_run {now : ℕ} {labels : List JobLabel}
    (hrun : machine.run (start now) labels = some s) (i : ℕ) :
  History labels s i
  := by
  induction labels using List.reverseRec generalizing s with
  | nil =>
      cases hrun
      exact ⟨rfl, rfl, rfl⟩
  | append_singleton labels a ih =>
      rw [machine.run_append] at hrun
      obtain ⟨before, hbefore, hlast⟩ := Option.bind_eq_some_iff.mp hrun
      obtain ⟨after, hstep, hnil⟩ := machine.run_cons_eq_some.mp hlast
      cases hnil
      obtain ⟨-, runner, hadvance, rfl⟩ := step_eq_some.mp hstep
      obtain ⟨hbegins, hfinishes, hlog⟩ := ih hbefore
      have hlines := lines_tell hadvance i
      have hstep := stageStep_of_advance hadvance i
      rw [hlog] at hlines
      rw [← stage?_tell before] at hlines hstep
      apply History.of_step hstep
      · rw [List.countP_append, hbegins, List.countP_singleton]
      · rw [List.countP_append, hfinishes, List.countP_singleton]
      · exact hlines

/-! ### What is published -/

/-- The label has the record of a job published. -/
def Publishes (s : ReportingRunner) : JobLabel → Prop
  | .begin _ => True
  | .progress i _ _ => (s.reports i).lastPublish + progressThrottle ≤ s.now
  | .finish _ _ => True
  | .abort _ => True
  | _ => False

instance (s : ReportingRunner) (a : JobLabel) : Decidable (s.Publishes a) :=
  match a with
  | .submit _ _ => isFalse id
  | .cancel _ => isFalse id
  | .acquire _ => isFalse id
  | .begin _ => isTrue trivial
  | .progress i _ _ =>
      inferInstanceAs (Decidable ((s.reports i).lastPublish + progressThrottle ≤ s.now))
  | .finish _ _ => isTrue trivial
  | .abort _ => isTrue trivial
  | .elapse _ => isFalse id

/-- At most one event is published at a time. -/
theorem events_publish (s : ReportingRunner) (i : ℕ) :
  ∃ published, (s.publish i).events = s.events ++ published ∧ published.length ≤ 1
  := by
  rw [publish]
  cases s.runner.jobs[i]? with
  | none => exact ⟨[], (List.append_nil _).symm, Nat.zero_le 1⟩
  | some job => exact ⟨[s.event i job], rfl, Nat.le_refl 1⟩

@[simp]
theorem events_settle (s : ReportingRunner) (i : ℕ) (error : Option String) :
  (s.settle i error).events = s.events
  := by
  cases error with
  | some error => rfl
  | none =>
      rw [settle]
      split
      · split
        · rfl
        · rfl
      · rfl

@[simp]
theorem events_appendResult (s : ReportingRunner) (i : ℕ) :
  (s.appendResult i).events = s.events
  := by
  rw [appendResult]
  split
  · split
    · rfl
    · rfl
  · rfl

/-- A step that publishes has one more event, and another has none. -/
theorem events_of_step {a : JobLabel} (h : machine.step s a = some s') :
  ∃ published, s'.events = s.events ++ published ∧ published.length ≤ 1
    ∧ (¬ s.Publishes a → published = [])
  := by
  obtain ⟨-, runner, -, rfl⟩ := step_eq_some.mp h
  cases a with
  | begin i =>
      obtain ⟨published, hevents, hlength⟩ := events_publish { s with runner } i
      exact ⟨published, hevents, hlength, fun hnot => absurd trivial hnot⟩
  | finish i error =>
      obtain ⟨published, hevents, hlength⟩ := events_publish ({ s with runner }.settle i error) i
      refine ⟨published, ?_, hlength, fun hnot => absurd trivial hnot⟩
      rw [tell, events_appendResult, hevents, events_settle]
  | abort i =>
      obtain ⟨published, hevents, hlength⟩ := events_publish { s with runner } i
      refine ⟨published, ?_, hlength, fun hnot => absurd trivial hnot⟩
      rw [tell, events_appendResult, hevents]
  | progress i fraction message =>
      simp only [tell, progress]
      split
      · rename_i hpublishes
        obtain ⟨published, hevents, hlength⟩ := events_publish _ i
        exact ⟨published, hevents, hlength, fun hnot => absurd hpublishes hnot⟩
      · exact ⟨[], (List.append_nil _).symm, Nat.zero_le 1, fun _ => rfl⟩
  | _ => exact ⟨[], (List.append_nil _).symm, Nat.zero_le 1, fun _ => rfl⟩

/-- The message of a job whose body returned stays. -/
theorem message_settle (s : ReportingRunner) (i : ℕ) :
  ((s.settle i none).reports i).message = (s.reports i).message
  := by
  rw [settle]
  split
  · split
    · simp [report]
    · rfl
  · rfl

/-- A body that returns and is not to be cancelled has its job published as done, with its last
message. -/
theorem finish_events {i : ℕ} {job : Job} (hjob : s.runner.jobs[i]? = some job)
    (hcancel : job.cancelRequested = false) (h : machine.step s (.finish i none) = some s') :
  ∃ event, s'.events = s.events ++ [event] ∧ event.id = i ∧ event.kind = job.kind
    ∧ event.status = .done ∧ event.message = (s.reports i).message
  := by
  obtain ⟨-, runner, hadvance, rfl⟩ := step_eq_some.mp h
  obtain ⟨job', ended, hjob', hnext, rfl⟩ := JobRunner.step_eq_some.mp hadvance
  cases hjob.symm.trans hjob'
  obtain ⟨-, hended⟩ := Option.ite_none_right_eq_some.mp hnext
  cases hended
  obtain ⟨hi, -⟩ := List.getElem?_eq_some_iff.mp hjob
  have hset : (s.runner.jobs.set i { job with stage := .ended (job.outcome false) })[i]?
      = some { job with stage := .ended (job.outcome false) } := List.getElem?_set_self hi
  have hdone : job.outcome false = .done := by
    rw [Job.outcome, hcancel]
    rfl
  rw [tell, events_appendResult, publish, runner_settle]
  simp only [JobRunner.Step.index, Option.isSome_none, hset, events_settle]
  refine ⟨_, rfl, rfl, rfl, ?_, ?_⟩
  · rw [event, hdone]
    rfl
  · apply message_settle

/-- The reports of a job after a label that does not end it. -/
theorem message_of_step {a : JobLabel} {i : ℕ} (h : machine.step s a = some s')
    (hfinishes : a.finishes i = false) :
  (s'.reports i).message
    = match a.reported i with
      | some message => if message = "" then (s.reports i).message else message
      | none => (s.reports i).message
  := by
  obtain ⟨-, runner, -, rfl⟩ := step_eq_some.mp h
  have hpublish : ∀ (t : ReportingRunner) (j : ℕ), (t.publish j).reports = t.reports := by
    intro t j
    rw [publish]
    cases t.runner.jobs[j]? with
    | none => rfl
    | some job => rfl
  have happend : ∀ (t : ReportingRunner) (j : ℕ), (t.appendResult j).reports = t.reports := by
    intro t j
    rw [appendResult]
    split
    · split
      · rfl
      · rfl
    · rfl
  cases a with
  | begin j => simp only [tell, hpublish, JobLabel.reported]
  | abort j => simp only [tell, happend, hpublish, JobLabel.reported]
  | finish j error =>
      have hne : i ≠ j := by
        rintro rfl
        simp [JobLabel.finishes] at hfinishes
      simp only [tell, happend, hpublish, JobLabel.reported]
      rw [settle.eq_def]
      split
      · simp [report, hne]
      · split
        · split
          · simp [report, hne]
          · rfl
        · rfl
  | progress j fraction message =>
      simp only [tell, progress, JobLabel.reported]
      by_cases hij : j = i
      · subst hij
        split
        · simp [hpublish, report]
        · simp [report]
      · split
        · simp [hpublish, report, Ne.symm hij]
        · simp [report, Ne.symm hij]
  | _ => rfl

/-- The message of a job that has not ended is the last one that it reported. -/
theorem message_of_run {now : ℕ} {labels : List JobLabel} {i : ℕ}
    (hrun : machine.run (start now) labels = some s)
    (hfinishes : ∀ a ∈ labels, a.finishes i = false) :
  (s.reports i).message
    = (labels.filterMap (JobLabel.reported i)).foldl
        (fun message new => if new = "" then message else new) ""
  := by
  induction labels using List.reverseRec generalizing s with
  | nil =>
      cases hrun
      rfl
  | append_singleton labels a ih =>
      rw [machine.run_append] at hrun
      obtain ⟨before, hbefore, hlast⟩ := Option.bind_eq_some_iff.mp hrun
      obtain ⟨after, hstep, hnil⟩ := machine.run_cons_eq_some.mp hlast
      cases hnil
      rw [message_of_step hstep (hfinishes a (List.mem_append_right _ List.mem_cons_self)),
        ih hbefore fun b hb => hfinishes b (List.mem_append_left _ hb), List.filterMap_append,
        List.foldl_append]
      cases hreported : a.reported i with
      | none => rw [List.filterMap_cons_none hreported]; rfl
      | some message => rw [List.filterMap_cons_some hreported]; rfl

/-- A body that ends has not ended before. -/
theorem not_finishes_of_run {now : ℕ} {labels : List JobLabel} {i : ℕ} {job : Job}
    (hrun : machine.run (start now) labels = some s) (hjob : s.runner.jobs[i]? = some job)
    (hbody : job.stage = .body) :
  ∀ a ∈ labels, a.finishes i = false
  := by
  have hstage : s.stage? i = some .body := by
    rw [stage?, hjob, Option.map_some, hbody]
  have hzero : labels.countP (JobLabel.finishes i) = 0 := by
    rw [(history_of_run hrun i).finishes, hstage]
    rfl
  rw [List.countP_eq_zero] at hzero
  intro a ha
  simpa using hzero a ha

/-! ### What the runner promises -/

/-- The status in the record of the job at place `i`. -/
def status? (s : ReportingRunner) (i : ℕ) : Option JobStatus :=
  s.runner.jobs[i]?.map fun job => job.stage.status

/-- How the status of a record moves. -/
inductive Moves : Option JobStatus → Option JobStatus → Prop where
  | stays (status : Option JobStatus) : Moves status status
  | submitted : Moves none (some .queued)
  | starts : Moves (some .queued) (some .running)
  | ends (status : JobStatus) (hfinal : status.isFinal = true) :
      Moves (some .running) (some status)

/-- What the runner promises of the state after some labels. -/
structure Kept (labels : List JobLabel) (s : ReportingRunner) : Prop where
  bounded : s.runner.bodies ≤ JobRunner.maxConcurrency
  exclusive : ∀ (i j : ℕ) (job other : Job) (resource : String),
    s.runner.jobs[i]? = some job → s.runner.jobs[j]? = some other →
    job.stage = .body → other.stage = .body →
    job.resource = some resource → other.resource = some resource → resource ≠ "" → i = j
  once : ∀ i, labels.countP (JobLabel.begins i) ≤ 1
  logged : ∀ i error, .finish i error ∈ labels →
    ∃ status line, status.isFinal = true ∧ s.status? i = some status ∧ s.lines i = [line]
      ∧ line.status = status
  unlogged : ∀ i, (∀ error, .finish i error ∉ labels) → s.lines i = []

/-- A job that goes from stage to stage has its status move. -/
theorem moves_of_stageStep {a : JobLabel} {i : ℕ} {old new : Option TaskStage}
    (h : StageStep i a old new) :
  Moves (old.map TaskStage.status) (new.map TaskStage.status)
  := by
  cases h with
  | same => exact Moves.stays _
  | submit => exact Moves.submitted
  | acquire => exact Moves.stays _
  | begin => exact Moves.starts
  | finish error status hfinal => exact Moves.ends status hfinal
  | abort => exact Moves.stays _

/-- The status of a job is that of its stage. -/
theorem status?_eq (s : ReportingRunner) (i : ℕ) :
  s.status? i = (s.stage? i).map TaskStage.status
  := by
  rw [status?, stage?, Option.map_map]
  rfl

/-- Every step has the statuses move. -/
theorem moves_of_step {a : JobLabel} (h : machine.step s a = some s') (i : ℕ) :
  Moves (s.status? i) (s'.status? i)
  := by
  obtain ⟨-, runner, hadvance, rfl⟩ := step_eq_some.mp h
  rw [status?_eq, status?_eq, stage?_tell]
  apply moves_of_stageStep (stageStep_of_advance hadvance i)

/-- No more bodies execute than jobs have the semaphore. -/
theorem bodies_le_admitted (runner : JobRunner) :
  runner.bodies ≤ runner.admitted
  := by
  apply List.countP_mono_left
  intro job _ hbody
  simp only [decide_eq_true_eq] at hbody ⊢
  right
  apply hbody

/-- A job whose body ended has one line. -/
theorem History.line {labels : List JobLabel} {i : ℕ} {error : Option String}
    (h : History labels s i) (hmem : .finish i error ∈ labels) :
  ∃ status line, status.isFinal = true ∧ s.status? i = some status ∧ s.lines i = [line]
    ∧ line.status = status
  := by
  have hpos : 0 < labels.countP (JobLabel.finishes i) := by
    apply List.countP_pos_iff.mpr ⟨_, hmem, _⟩
    simp [JobLabel.finishes]
  rw [h.finishes] at hpos
  have hlog := h.log
  rw [status?_eq]
  match hstage : s.stage? i with
  | some (.ended status) =>
      rw [hstage, ReportingRunner.logged] at hpos hlog
      split at hpos
      · rename_i hfinal
        rw [if_pos hfinal] at hlog
        obtain ⟨line, hlines, hstatus⟩ := List.map_eq_singleton_iff.mp hlog
        exact ⟨status, line, hfinal, rfl, hlines, hstatus⟩
      · apply absurd hpos (Nat.lt_irrefl 0)
  | none =>
      rw [hstage] at hpos
      apply absurd hpos (Nat.lt_irrefl 0)
  | some .semaphore =>
      rw [hstage] at hpos
      apply absurd hpos (Nat.lt_irrefl 0)
  | some .lock =>
      rw [hstage] at hpos
      apply absurd hpos (Nat.lt_irrefl 0)
  | some .body =>
      rw [hstage] at hpos
      apply absurd hpos (Nat.lt_irrefl 0)

/-- A job whose body has not ended has no line. -/
theorem History.no_line {labels : List JobLabel} {i : ℕ} (h : History labels s i)
    (hmem : ∀ error, .finish i error ∉ labels) :
  s.lines i = []
  := by
  have hzero : labels.countP (JobLabel.finishes i) = 0 := by
    apply List.countP_eq_zero.mpr
    intro a ha hfinishes
    cases a with
    | finish j error =>
        cases of_decide_eq_true hfinishes
        apply hmem error ha
    | _ => cases hfinishes
  rw [h.finishes, List.length_eq_zero_iff, ← h.log, List.map_eq_nil_iff] at hzero
  apply hzero

/-- In every run of a runner, no more than `MAX_CONCURRENCY` bodies execute at once, no two of the same
resource unless that is empty; every body begins at most once, the statuses move from queued to running
to a final one, and each job whose body returned or raised an `Exception`, and no other, has one line in
the log, with its final status. -/
theorem kept_of_run {now : ℕ} {labels : List JobLabel} {s : ReportingRunner}
    (hrun : machine.run (start now) labels = some s) :
  Kept labels s
    ∧ machine.Along (fun s a => ∀ s', machine.step s a = some s' →
        ∀ i, Moves (s.status? i) (s'.status? i)) (start now) labels
  := by
  have hordered := JobRunner.jobsOrdered_of_run (runner_of_run hrun)
  constructor
  · constructor
    · apply Nat.le_trans (bodies_le_admitted s.runner) hordered.bounded
    · intro i j job other resource hjob hother hbody hbody' hresource hresource' hne
      apply hordered.exclusive i j job other resource hjob hother hbody hbody'
      · simp [Job.lock, hresource, hne]
      · simp [Job.lock, hresource', hne]
    · intro i
      rw [(history_of_run hrun i).begins]
      apply Bool.toNat_le
    · intro i error
      apply (history_of_run hrun i).line
    · intro i
      apply (history_of_run hrun i).no_line
  · apply Machine.along_of_forall
    intro s a s' hstep i
    apply moves_of_step hstep i

/-- A job that runs and reports progress. -/
def wholeJob : List JobLabel :=
  [.submit "test.noop" (some "share:media"), .acquire 0, .begin 0, .progress 0 (1 / 2) "halfway",
    .finish 0 none]

/-- The job is done and has a line in the log. -/
theorem kept_wholeJob :
  ∃ s, machine.run (start 1) wholeJob = some s ∧ Kept wholeJob s
  := by
  have hsome : (machine.run (start 1) wholeJob).isSome = true := by decide +kernel
  obtain ⟨s, hrun⟩ := Option.isSome_iff_exists.mp hsome
  exact ⟨s, hrun, (kept_of_run hrun).1⟩

/-- Two jobs whose resource is the empty string, and one whose body is cancelled from outside. -/
def emptyResources : List JobLabel :=
  [.submit "test.hold" (some ""), .submit "test.hold" (some ""), .submit "test.hold" none,
    .acquire 0, .acquire 1, .acquire 2, .begin 0, .begin 1, .begin 2, .abort 2]

/-- Bodies of the same resource execute at once if that is empty, and a job whose body was cancelled has
no line. -/
theorem emptyResources_overlap :
  ∃ s, machine.run (start 1) emptyResources = some s
    ∧ (∃ (i j : ℕ) (job other : Job) (resource : String),
        s.runner.jobs[i]? = some job ∧ s.runner.jobs[j]? = some other ∧ job.stage = .body
        ∧ other.stage = .body ∧ job.resource = some resource ∧ other.resource = some resource ∧ i ≠ j)
    ∧ (∃ i, s.stage? i = some (.ended .running) ∧ s.lines i = [])
  := by
  refine ⟨_, rfl, ⟨0, 1, _, _, "", rfl, rfl, rfl, rfl, rfl, rfl, by decide⟩, 2, rfl, rfl⟩

end ReportingRunner
