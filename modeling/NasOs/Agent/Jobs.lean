import Mathlib.Data.List.Basic
import NasOs.Library.Machine

/-!
# The job runner

A job that was submitted waits for the semaphore of the runner, then for the lock of its resource,
and then its body runs; what the body does is left open, but it returns or raises in the end.  The
semaphore and the locks of `asyncio` serve those who wait for them in order, which is the order in
which the jobs were submitted.

A job is named by its place among the jobs that were submitted; the runner names it by a random
string.  The log, the events and the progress of the jobs are left out.
-/

/-- `JobStatus`. -/
inductive JobStatus where
  | queued
  | running
  | done
  | failed
  | cancelled
  deriving DecidableEq

/-- Where the task of a job is in `_run`. -/
inductive TaskStage where
  /-- It waits for the semaphore. -/
  | semaphore
  /-- It has the semaphore and waits for the lock of its resource. -/
  | lock
  /-- It has both and runs the body. -/
  | body
  /-- It is over. -/
  | ended (status : JobStatus)
  deriving DecidableEq

/-- The status in the record of a job at a stage. -/
def TaskStage.status : TaskStage → JobStatus
  | .semaphore => .queued
  | .lock => .queued
  | .body => .running
  | .ended status => status

/-- `JobRecord` and `JobHandle`. -/
structure Job where
  kind : String
  resource : Option String
  cancelRequested : Bool
  stage : TaskStage
  deriving DecidableEq

/-- The lock of a job: one of its resource, unless that is absent or the empty string. -/
def Job.lock (job : Job) : Option String :=
  job.resource.filter fun resource => resource ≠ ""

/-- A job that is not over. -/
def Job.Unfinished (job : Job) : Prop :=
  job.stage.status = .queued ∨ job.stage.status = .running

instance (job : Job) : Decidable job.Unfinished :=
  inferInstanceAs (Decidable (_ ∨ _))

/-- The status with which a job ends. -/
def Job.outcome (job : Job) (raised : Bool) : JobStatus :=
  if raised then .failed
  else if job.cancelRequested then .cancelled
  else .done

/-- `JobRunner`: the jobs, in the order in which they were submitted. -/
structure JobRunner where
  jobs : List Job

namespace JobRunner

/-- `MAX_CONCURRENCY`. -/
def maxConcurrency : ℕ := 4

/-- A runner without jobs. -/
def empty : JobRunner := ⟨[]⟩

/-- `submit`. -/
def submit (runner : JobRunner) (kind : String) (resource : Option String) : JobRunner :=
  ⟨runner.jobs ++ [⟨kind, resource, false, .semaphore⟩]⟩

/-- The number of jobs that have the semaphore. -/
def admitted (runner : JobRunner) : ℕ :=
  runner.jobs.countP fun job => job.stage = .lock ∨ job.stage = .body

/-- A step of a task, or a request to cancel a job. -/
inductive Step where
  /-- `request_cancel`. -/
  | cancel (i : ℕ)
  /-- The task is given the semaphore. -/
  | acquire (i : ℕ)
  /-- The task is given the lock of its resource, if there is one, and runs the body. -/
  | begin (i : ℕ)
  /-- The body returns, or it raises. -/
  | finish (i : ℕ) (raised : Bool)

/-- The job a step is about. -/
def Step.index : Step → ℕ
  | .cancel i => i
  | .acquire i => i
  | .begin i => i
  | .finish i _ => i

/-- What a step makes of its job, if it is allowed. -/
def next (runner : JobRunner) (job : Job) : Step → Option Job
  | .cancel _ =>
      match job.stage with
      | .ended _ => none
      | _ => some { job with cancelRequested := true }
  | .acquire i =>
      if job.stage = .semaphore ∧ runner.admitted < maxConcurrency
          ∧ ∀ earlier ∈ runner.jobs.take i, earlier.stage ≠ .semaphore then
        some { job with stage := .lock }
      else none
  | .begin i =>
      if job.stage = .lock
          ∧ (∀ lock ∈ job.lock, ∀ other ∈ runner.jobs, other.stage = .body → other.lock ≠ some lock)
          ∧ (∀ lock ∈ job.lock, ∀ earlier ∈ runner.jobs.take i, earlier.stage = .lock →
              earlier.lock ≠ some lock) then
        some { job with stage := .body }
      else none
  | .finish _ raised =>
      if job.stage = .body then
        some { job with stage := .ended (job.outcome raised) }
      else none

/-- A step of the runner. -/
def step (runner : JobRunner) (s : Step) : Option JobRunner := do
  let job ← runner.jobs[s.index]?
  let job ← runner.next job s
  pure ⟨runner.jobs.set s.index job⟩

/-- A step changes one job. -/
theorem step_eq_some {runner runner' : JobRunner} {s : Step} :
  runner.step s = some runner'
    ↔ ∃ job job', runner.jobs[s.index]? = some job ∧ runner.next job s = some job'
        ∧ runner' = ⟨runner.jobs.set s.index job'⟩
  := by
  simp only [step, bind, Option.bind_eq_some_iff, pure, Option.some.injEq]
  constructor
  · rintro ⟨job, hjob, job', hnext, rfl⟩
    exact ⟨job, job', hjob, hnext, rfl⟩
  · rintro ⟨job, job', hjob, hnext, rfl⟩
    exact ⟨job, hjob, job', hnext, rfl⟩

/-- Some job is queued or running. -/
def Busy (runner : JobRunner) : Prop :=
  ∃ job ∈ runner.jobs, job.Unfinished

instance (runner : JobRunner) : Decidable runner.Busy :=
  inferInstanceAs (Decidable (∃ job ∈ runner.jobs, job.Unfinished))

/-- A job that was just submitted is not over. -/
theorem busy_submit (runner : JobRunner) (kind : String) (resource : Option String) :
  (runner.submit kind resource).Busy
  := by
  use ⟨kind, resource, false, .semaphore⟩
  constructor
  · apply List.mem_append_right _ List.mem_cons_self
  · left
    rfl

/-- Only a job that is not over takes a step. -/
theorem unfinished_of_next {runner : JobRunner} {job job' : Job} {s : Step}
    (h : runner.next job s = some job') :
  job.Unfinished
  := by
  have hstage : ∀ stage, job.stage = stage → (∀ status, stage ≠ .ended status) → job.Unfinished := by
    rintro (_ | _ | _ | status) hjob hover
    · left
      rw [hjob]
      rfl
    · left
      rw [hjob]
      rfl
    · right
      rw [hjob]
      rfl
    · apply absurd rfl (hover status)
  cases s with
  | cancel i =>
      simp only [next] at h
      split at h
      · cases h
      · rename_i hover
        apply hstage _ rfl hover
  | acquire i =>
      obtain ⟨⟨hjob, -⟩, -⟩ := Option.ite_none_right_eq_some.mp h
      apply hstage _ hjob
      rintro _ ⟨⟩
  | begin i =>
      obtain ⟨⟨hjob, -⟩, -⟩ := Option.ite_none_right_eq_some.mp h
      apply hstage _ hjob
      rintro _ ⟨⟩
  | finish i raised =>
      obtain ⟨hjob, -⟩ := Option.ite_none_right_eq_some.mp h
      apply hstage _ hjob
      rintro _ ⟨⟩

/-- A runner whose jobs are all over takes no step, so that only a submission makes it busy. -/
theorem busy_of_step {runner runner' : JobRunner} {s : Step} (h : runner.step s = some runner') :
  runner.Busy
  := by
  obtain ⟨job, job', hjob, hnext, -⟩ := step_eq_some.mp h
  use job, List.mem_of_getElem? hjob
  apply unfinished_of_next hnext

end JobRunner
