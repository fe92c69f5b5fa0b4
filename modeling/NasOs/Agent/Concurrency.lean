import Mathlib.Data.Nat.Find
import NasOs.Agent.Jobs

/-!
# Which jobs run at once

The runner as a machine: jobs are submitted, their tasks take steps, and a body may raise something
that is not an `Exception`, which leaves its record as it was.

The semaphore serves the jobs in the order of submission.  So the jobs that have it come before those
that wait for it (`Ordered`), and as a job waits for the lock of its resource only when it has the
semaphore, jobs whose resource is busy keep the semaphore from the others.
-/

/-- The task of the job is over. -/
def TaskStage.isOver : TaskStage → Bool
  | .ended _ => true
  | _ => false

namespace JobRunner

/-- What happens in a runner. -/
inductive Label where
  | submit (kind : String) (resource : Option String)
  | step (step : Step)
  /-- A body raises a `BaseException` that is not an `Exception`. -/
  | abort (i : ℕ)

/-- A body raises a `BaseException` that is not an `Exception`: its record stays as it is. -/
def abort (runner : JobRunner) (i : ℕ) : Option JobRunner := do
  let job ← runner.jobs[i]?
  if job.stage = .body then
    some ⟨runner.jobs.set i { job with stage := .ended .running }⟩
  else none

/-- The machine of a runner. -/
def machine : Machine JobRunner Label where
  step runner
    | .submit kind resource => some (runner.submit kind resource)
    | .step step => runner.step step
    | .abort i => runner.abort i

/-- The label ends a body. -/
def Label.Ends : Label → Prop
  | .step (.finish _ _) => True
  | .abort _ => True
  | _ => False

/-- What happens to a job that is at place `i` among those of a runner. -/
inductive Moved (runner : JobRunner) (i : ℕ) (job : Job) : Job → Prop where
  | cancel (hstage : job.stage.isOver = false) :
      Moved runner i job { job with cancelRequested := true }
  | acquire (hstage : job.stage = .semaphore) (hadmitted : runner.admitted < maxConcurrency)
      (hfirst : ∀ earlier ∈ runner.jobs.take i, earlier.stage ≠ .semaphore) :
      Moved runner i job { job with stage := .lock }
  | begin (hstage : job.stage = .lock)
      (hfree : ∀ lock ∈ job.lock, ∀ other ∈ runner.jobs,
        other.stage = .body → other.lock ≠ some lock)
      (hfirst : ∀ lock ∈ job.lock, ∀ earlier ∈ runner.jobs.take i,
        earlier.stage = .lock → earlier.lock ≠ some lock) :
      Moved runner i job { job with stage := .body }
  | finish (hstage : job.stage = .body) (status : JobStatus) :
      Moved runner i job { job with stage := .ended status }

/-- A label submits a job or moves one. -/
theorem step_cases {runner runner' : JobRunner} {a : Label}
    (h : machine.step runner a = some runner') :
  (∃ kind resource, runner' = runner.submit kind resource)
    ∨ ∃ i job job', runner.jobs[i]? = some job ∧ Moved runner i job job'
        ∧ (job'.stage.isOver = true → a.Ends) ∧ runner' = ⟨runner.jobs.set i job'⟩
  := by
  cases a with
  | submit kind resource =>
      left
      use kind, resource
      apply (Option.some.inj h).symm
  | step step =>
      right
      obtain ⟨job, job', hjob, hnext, rfl⟩ := step_eq_some.mp h
      cases step with
      | cancel i =>
          simp only [next] at hnext
          split at hnext
          · cases hnext
          · rename_i hover
            cases hnext
            have hstage : job.stage.isOver = false := by
              cases hstage : job.stage with
              | ended status => apply absurd hstage (hover status)
              | _ => rfl
            refine ⟨i, job, _, hjob, Moved.cancel hstage, ?_, rfl⟩
            intro hover
            cases hstage.symm.trans hover
      | acquire i =>
          obtain ⟨⟨hstage, hadmitted, hfirst⟩, hnext⟩ := Option.ite_none_right_eq_some.mp hnext
          cases hnext
          refine ⟨i, job, _, hjob, Moved.acquire hstage hadmitted hfirst, ?_, rfl⟩
          rintro ⟨⟩
      | begin i =>
          obtain ⟨⟨hstage, hfree, hfirst⟩, hnext⟩ := Option.ite_none_right_eq_some.mp hnext
          cases hnext
          refine ⟨i, job, _, hjob, Moved.begin hstage hfree hfirst, ?_, rfl⟩
          rintro ⟨⟩
      | finish i raised =>
          obtain ⟨hstage, hnext⟩ := Option.ite_none_right_eq_some.mp hnext
          cases hnext
          exact ⟨i, job, _, hjob, Moved.finish hstage _, fun _ => trivial, rfl⟩
  | abort i =>
      right
      obtain ⟨job, hjob, h⟩ := Option.bind_eq_some_iff.mp h
      obtain ⟨hstage, h⟩ := Option.ite_none_right_eq_some.mp h
      cases h
      exact ⟨i, job, _, hjob, Moved.finish hstage _, fun _ => trivial, rfl⟩

/-- A job that moved keeps its kind and its resource. -/
theorem Moved.resource {runner : JobRunner} {i : ℕ} {job job' : Job} (h : Moved runner i job job') :
  job'.resource = job.resource
  := by
  cases h with
  | _ => rfl

/-- A job that moved keeps its kind. -/
theorem Moved.kind {runner : JobRunner} {i : ℕ} {job job' : Job} (h : Moved runner i job job') :
  job'.kind = job.kind
  := by
  cases h with
  | _ => rfl

/-- The lock of a job is given by its resource. -/
theorem Moved.lock {runner : JobRunner} {i : ℕ} {job job' : Job} (h : Moved runner i job job') :
  job'.lock = job.lock
  := by
  rw [Job.lock, Job.lock, h.resource]

/-- What a runner's jobs are after one of them was replaced. -/
theorem getElem?_set {jobs : List Job} {i j : ℕ} {job job' other : Job} (hjob : jobs[i]? = some job)
    (hother : (jobs.set i job')[j]? = some other) :
  (i = j ∧ other = job') ∨ (i ≠ j ∧ jobs[j]? = some other)
  := by
  by_cases hij : i = j
  · left
    subst hij
    obtain ⟨hi, -⟩ := List.getElem?_eq_some_iff.mp hjob
    rw [List.getElem?_set_self hi] at hother
    exact ⟨rfl, (Option.some.inj hother).symm⟩
  · right
    rw [List.getElem?_set_ne hij] at hother
    exact ⟨hij, hother⟩

/-- What a runner's jobs are after another was submitted. -/
theorem getElem?_submit {runner : JobRunner} {kind : String} {resource : Option String} {j : ℕ}
    {job : Job} (hjob : (runner.submit kind resource).jobs[j]? = some job) :
  runner.jobs[j]? = some job ∨ (j = runner.jobs.length ∧ job = ⟨kind, resource, false, .semaphore⟩)
  := by
  rw [submit, List.getElem?_append] at hjob
  split at hjob
  · left
    apply hjob
  · right
    rename_i hj
    obtain ⟨hlength, hjob⟩ := List.getElem?_eq_some_iff.mp hjob
    rw [List.length_singleton] at hlength
    constructor
    · omega
    · rw [List.getElem_singleton] at hjob
      apply hjob.symm

/-! ### Invariants of the runner -/

/-- The invariant of a runner: the jobs that wait for the semaphore come last, no more than
`MAX_CONCURRENCY` jobs have it, and no two bodies have the same lock. -/
structure Ordered (runner : JobRunner) : Prop where
  waiting : ∀ (i j : ℕ) (earlier later : Job), i < j → runner.jobs[i]? = some earlier →
    runner.jobs[j]? = some later → earlier.stage = .semaphore → later.stage = .semaphore
  bounded : runner.admitted ≤ maxConcurrency
  exclusive : ∀ (i j : ℕ) (job other : Job) (lock : String), runner.jobs[i]? = some job →
    runner.jobs[j]? = some other → job.stage = .body → other.stage = .body →
    job.lock = some lock → other.lock = some lock → i = j

/-- The jobs that have the semaphore, after a job was replaced. -/
theorem admitted_set {runner : JobRunner} {i : ℕ} {job : Job} (job' : Job)
    (hjob : runner.jobs[i]? = some job) :
  (⟨runner.jobs.set i job'⟩ : JobRunner).admitted
    = runner.admitted - (if job.stage = .lock ∨ job.stage = .body then 1 else 0)
        + (if job'.stage = .lock ∨ job'.stage = .body then 1 else 0)
  := by
  obtain ⟨hi, hget⟩ := List.getElem?_eq_some_iff.mp hjob
  rw [admitted, List.countP_set hi, hget]
  simp only [decide_eq_true_eq]
  rfl

/-- A job that has the semaphore is counted. -/
theorem admitted_pos {runner : JobRunner} {i : ℕ} {job : Job} (hjob : runner.jobs[i]? = some job)
    (hstage : job.stage = .lock ∨ job.stage = .body) :
  0 < runner.admitted
  := by
  rw [admitted, List.countP_pos_iff]
  exact ⟨job, List.mem_of_getElem? hjob, by simpa using hstage⟩

/-- Moving a job keeps no more than `MAX_CONCURRENCY` jobs with the semaphore. -/
theorem admitted_le_of_moved {runner : JobRunner} {i : ℕ} {job job' : Job}
    (h : runner.admitted ≤ maxConcurrency) (hjob : runner.jobs[i]? = some job)
    (hmoved : Moved runner i job job') :
  (⟨runner.jobs.set i job'⟩ : JobRunner).admitted ≤ maxConcurrency
  := by
  rw [admitted_set job' hjob]
  cases hmoved with
  | cancel hstage =>
      have hpos := @admitted_pos runner i job hjob
      dsimp only
      split
      · rename_i hadmitted
        have := hpos hadmitted
        omega
      · omega
  | acquire hstage hadmitted hfirst =>
      simp only [hstage]
      exact hadmitted
  | begin hstage hfree hfirst =>
      have hpos := @admitted_pos runner i job hjob (Or.inl hstage)
      simp only [hstage, true_or, or_true, if_true]
      omega
  | finish hstage status =>
      simp only [hstage, or_true, if_true, reduceCtorEq, or_false, if_false]
      omega

/-- Moving a job keeps the invariant. -/
theorem Ordered.moved {runner : JobRunner} {i : ℕ} {job job' : Job} (h : runner.Ordered)
    (hjob : runner.jobs[i]? = some job) (hmoved : Moved runner i job job') :
  (⟨runner.jobs.set i job'⟩ : JobRunner).Ordered
  := by
  constructor
  · intro k l earlier later hkl hk hl hstage
    rcases getElem?_set hjob hk with ⟨rfl, rfl⟩ | ⟨hik, hother⟩
    · -- the job that moved still waits, so it was asked to stop
      cases hmoved with
      | cancel =>
          rcases getElem?_set hjob hl with ⟨rfl, rfl⟩ | ⟨hil, hlater⟩
          · apply hstage
          · apply h.waiting _ _ _ _ hkl hjob hlater hstage
      | acquire => cases hstage
      | begin => cases hstage
      | finish => cases hstage
    · rcases getElem?_set hjob hl with ⟨rfl, rfl⟩ | ⟨hil, hlater⟩
      · -- nothing but a request to stop moves a job behind one that waits
        have hwaits := h.waiting _ _ _ _ hkl hother hjob hstage
        cases hmoved with
        | cancel => apply hwaits
        | acquire _ _ hfirst =>
            apply absurd hstage
            apply hfirst
            apply List.mem_of_getElem? (i := k)
            rw [List.getElem?_take_of_lt hkl]
            apply hother
        | begin hlock => cases hwaits.symm.trans hlock
        | finish hbody => cases hwaits.symm.trans hbody
      · apply h.waiting _ _ _ _ hkl hother hlater hstage
  · apply admitted_le_of_moved h.bounded hjob hmoved
  · intro k l first second lock hk hl hfirst hsecond hfirstLock hsecondLock
    -- a body that begins finds its lock free
    have hfree : ∀ (m : ℕ) (other : Job), m ≠ i → runner.jobs[m]? = some other →
        other.stage = .body → other.lock = some lock → job'.stage = .body →
        job'.lock = some lock → m = i := by
      intro m other hm hother hstage hlock hbody hlock'
      cases hmoved with
      | cancel => apply h.exclusive _ _ _ _ _ hother hjob hstage hbody hlock hlock'
      | acquire => cases hbody
      | begin _ hfree =>
          apply absurd hlock (hfree lock hlock' other (List.mem_of_getElem? hother) hstage)
      | finish => cases hbody
    rcases getElem?_set hjob hk with ⟨rfl, rfl⟩ | ⟨hik, hother⟩
    · rcases getElem?_set hjob hl with ⟨rfl, -⟩ | ⟨hil, hl⟩
      · rfl
      · apply (hfree l second (Ne.symm hil) hl hsecond hsecondLock hfirst hfirstLock).symm
    · rcases getElem?_set hjob hl with ⟨rfl, rfl⟩ | ⟨hil, hlater⟩
      · apply hfree k first (Ne.symm hik) hother hfirst hfirstLock hsecond hsecondLock
      · apply h.exclusive _ _ _ _ _ hother hlater hfirst hsecond hfirstLock hsecondLock

/-- Submitting a job keeps the invariant: the job comes last. -/
theorem Ordered.submit {runner : JobRunner} (h : runner.Ordered) (kind : String)
    (resource : Option String) :
  (runner.submit kind resource).Ordered
  := by
  constructor
  · intro i j earlier later hij hi hj hstage
    rcases getElem?_submit hj with hj | ⟨-, rfl⟩
    · rcases getElem?_submit hi with hi | ⟨rfl, -⟩
      · apply h.waiting _ _ _ _ hij hi hj hstage
      · obtain ⟨hlength, -⟩ := List.getElem?_eq_some_iff.mp hj
        omega
    · rfl
  · rw [admitted, JobRunner.submit, List.countP_append]
    apply h.bounded
  · intro i j job other lock hi hj hjob hother hlock hlock'
    rcases getElem?_submit hi with hi | ⟨-, rfl⟩
    · rcases getElem?_submit hj with hj | ⟨-, rfl⟩
      · apply h.exclusive _ _ _ _ _ hi hj hjob hother hlock hlock'
      · cases hother
    · cases hjob

/-- Every step keeps the invariant. -/
theorem Ordered.step {runner runner' : JobRunner} {a : Label} (h : runner.Ordered)
    (hstep : machine.step runner a = some runner') :
  runner'.Ordered
  := by
  rcases step_cases hstep with ⟨kind, resource, rfl⟩ | ⟨i, job, job', hjob, hmoved, -, rfl⟩
  · apply h.submit
  · apply h.moved hjob hmoved

/-- The invariant holds of every runner that is reached. -/
theorem jobsOrdered_of_run {runner : JobRunner} {labels : List Label}
    (hrun : machine.run empty labels = some runner) :
  runner.Ordered
  := by
  apply Machine.run_invariant_of_step (I := Ordered) _ _ hrun
  · intro runner a runner' h hstep
    apply h.step hstep
  · constructor
    · rintro i j earlier later - hi
      cases hi
    · apply Nat.zero_le
    · rintro i j job other lock hi
      cases hi

/-! ### Jobs that are kept from running -/

/-- The number of bodies that execute. -/
def bodies (runner : JobRunner) : ℕ :=
  runner.jobs.countP fun job => job.stage = .body

/-- The job at place `i` has not started, and no body has the lock of its resource. -/
def Eligible (runner : JobRunner) (i : ℕ) : Prop :=
  ∃ job ∈ runner.jobs[i]?, (job.stage = .semaphore ∨ job.stage = .lock)
    ∧ ∀ lock ∈ job.lock, ∀ other ∈ runner.jobs, other.stage = .body → other.lock ≠ some lock

instance (runner : JobRunner) (i : ℕ) : Decidable (runner.Eligible i) :=
  inferInstanceAs (Decidable (∃ job ∈ runner.jobs[i]?, _))

/-- The number of unfinished jobs that were submitted before the one at place `i`. -/
def unfinishedBefore (runner : JobRunner) (i : ℕ) : ℕ :=
  (runner.jobs.take i).countP fun job => !job.stage.isOver

/-- No more jobs are unfinished than were submitted. -/
theorem unfinishedBefore_le (runner : JobRunner) (i : ℕ) :
  runner.unfinishedBefore i ≤ i
  := by
  apply Nat.le_trans List.countP_le_length
  rw [List.length_take]
  apply Nat.min_le_left

/-- The body of the job at place `i` executes. -/
def Executes (runner : JobRunner) (i : ℕ) : Prop :=
  ∃ job, runner.jobs[i]? = some job ∧ job.stage = .body

/-- The job at place `i` can start while no body ends. -/
def CanStart (runner : JobRunner) (i : ℕ) : Prop :=
  ∃ labels runner', machine.run runner labels = some runner' ∧ (∀ a ∈ labels, ¬ a.Ends)
    ∧ runner'.Executes i

/-- The job at place `i` is the oldest that is eligible. -/
def OldestEligible (runner : JobRunner) (i : ℕ) : Prop :=
  runner.Eligible i ∧ ∀ j < i, ¬ runner.Eligible j

/-- An eligible job was submitted. -/
theorem Eligible.lt_length {runner : JobRunner} {i : ℕ} (h : runner.Eligible i) :
  i < runner.jobs.length
  := by
  obtain ⟨job, hjob, -⟩ := h
  obtain ⟨hi, -⟩ := List.getElem?_eq_some_iff.mp hjob
  apply hi

/-- Of the eligible jobs, one is the oldest. -/
theorem exists_oldestEligible {runner : JobRunner} {i : ℕ} (h : runner.Eligible i) :
  ∃ j ≤ i, runner.OldestEligible j
  := by
  have hexists : ∃ j, runner.Eligible j := ⟨i, h⟩
  use Nat.find hexists, Nat.find_min' hexists h
  constructor
  · apply Nat.find_spec hexists
  · intro j hj
    apply Nat.find_min hexists hj

/-- Before a job that waits no longer for the semaphore, all unfinished jobs have it. -/
theorem unfinishedBefore_eq {runner : JobRunner} {i : ℕ}
    (hfirst : ∀ earlier ∈ runner.jobs.take i, earlier.stage ≠ .semaphore) :
  runner.unfinishedBefore i
    = (runner.jobs.take i).countP fun job => job.stage = .lock ∨ job.stage = .body
  := by
  apply List.countP_congr
  intro job hjob
  cases hstage : job.stage with
  | semaphore => apply absurd hstage (hfirst job hjob)
  | _ => simp [TaskStage.isOver]

/-- The place of a job among the first ones. -/
theorem exists_of_mem_take {jobs : List Job} {i : ℕ} {job : Job} (h : job ∈ jobs.take i) :
  ∃ k < i, jobs[k]? = some job
  := by
  obtain ⟨k, hk⟩ := List.getElem?_of_mem h
  rw [List.getElem?_take] at hk
  split at hk
  · rename_i hlt
    exact ⟨k, hlt, hk⟩
  · cases hk

/-- Before a job that is not waiting for the semaphore none is. -/
theorem Ordered.not_semaphore_before {runner : JobRunner} (h : runner.Ordered) {i : ℕ} {job : Job}
    (hjob : runner.jobs[i]? = some job) (hstage : job.stage ≠ .semaphore) :
  ∀ earlier ∈ runner.jobs.take i, earlier.stage ≠ .semaphore
  := by
  intro earlier hearlier hwaits
  obtain ⟨k, hk, hget⟩ := exists_of_mem_take hearlier
  apply hstage
  apply h.waiting k i earlier job hk hget hjob hwaits

/-- A job whose body executes was submitted after fewer than `MAX_CONCURRENCY` unfinished jobs. -/
theorem Ordered.unfinishedBefore_lt {runner : JobRunner} (h : runner.Ordered) {i : ℕ}
    (hi : runner.Executes i) :
  runner.unfinishedBefore i < maxConcurrency
  := by
  obtain ⟨job, hjob, hstage⟩ := hi
  have hfirst := h.not_semaphore_before hjob (by rw [hstage]; rintro ⟨⟩)
  obtain ⟨hlength, hget⟩ := List.getElem?_eq_some_iff.mp hjob
  have hsplit : runner.jobs = runner.jobs.take i ++ job :: runner.jobs.drop (i + 1) := by
    rw [← hget, List.getElem_cons_drop, List.take_append_drop]
  have hbounded := h.bounded
  rw [admitted, hsplit, List.countP_append, List.countP_cons, hstage] at hbounded
  rw [unfinishedBefore_eq hfirst]
  simp only [reduceCtorEq, or_true, decide_true, if_true] at hbounded
  omega

/-- Replacing a job by another one that looks the same changes nothing that is seen. -/
theorem map_set_eq {α : Type} {jobs : List Job} {i : ℕ} {job job' : Job} (f : Job → α)
    (hjob : jobs[i]? = some job) (h : f job' = f job) :
  (jobs.set i job').map f = jobs.map f
  := by
  obtain ⟨hi, rfl⟩ := List.getElem?_eq_some_iff.mp hjob
  rw [List.map_set, h]
  apply List.ext_getElem
  · simp
  · intro j hj _
    by_cases hij : i = j
    · subst hij
      simp
    · simp [List.getElem_set_ne hij]

/-- A job can move when it is not over. -/
theorem Moved.isOver {runner : JobRunner} {i : ℕ} {job job' : Job} (h : Moved runner i job job') :
  job.stage.isOver = false
  := by
  cases h with
  | cancel hstage => apply hstage
  | acquire hstage => rw [hstage]; rfl
  | begin hstage => rw [hstage]; rfl
  | finish hstage => rw [hstage]; rfl

/-- While no body ends, the same jobs are unfinished. -/
theorem unfinishedBefore_of_step {runner runner' : JobRunner} {a : Label} (ha : ¬ a.Ends)
    (h : machine.step runner a = some runner') {i : ℕ} (hi : i ≤ runner.jobs.length) :
  runner'.unfinishedBefore i = runner.unfinishedBefore i ∧ i ≤ runner'.jobs.length
  := by
  rcases step_cases h with ⟨kind, resource, rfl⟩ | ⟨k, job, job', hjob, hmoved, hends, rfl⟩
  · rw [unfinishedBefore, submit, List.take_append_of_le_length hi, List.length_append]
    constructor
    · rfl
    · omega
  · have hover : job'.stage.isOver = job.stage.isOver := by
      rw [hmoved.isOver, ← Bool.not_eq_true]
      apply mt hends ha
    have hsame := map_set_eq (fun job => !job.stage.isOver) hjob (congrArg not hover)
    constructor
    · have hcount : ∀ jobs : List Job, (jobs.take i).countP (fun job => !job.stage.isOver)
          = ((jobs.map fun job => !job.stage.isOver).take i).countP id := by
        intro jobs
        rw [← List.map_take, List.countP_map]
        rfl
      rw [unfinishedBefore, unfinishedBefore, hcount, hcount, hsame]
    · rw [List.length_set]
      apply hi

/-- A job that can start was submitted after fewer than `MAX_CONCURRENCY` unfinished jobs. -/
theorem unfinishedBefore_lt_of_canStart {runner : JobRunner} (h : runner.Ordered) {i : ℕ}
    (hi : i ≤ runner.jobs.length) (hstart : runner.CanStart i) :
  runner.unfinishedBefore i < maxConcurrency
  := by
  obtain ⟨labels, runner', hrun, hends, hexecutes⟩ := hstart
  induction labels generalizing runner with
  | nil =>
      cases hrun
      apply h.unfinishedBefore_lt hexecutes
  | cons a labels ih =>
      obtain ⟨next, hstep, hrun⟩ := machine.run_cons_eq_some.mp hrun
      obtain ⟨hsame, hlength⟩ := unfinishedBefore_of_step (hends a List.mem_cons_self) hstep hi
      rw [← hsame]
      apply ih (h.step hstep) hlength hrun
      intro b hb
      apply hends b (List.mem_cons_of_mem _ hb)

/-- What decides whether a job is eligible: whether it waits, whether it executes, and its lock. -/
def seen (job : Job) : Bool × Bool × Option String :=
  (decide (job.stage = .semaphore ∨ job.stage = .lock), decide (job.stage = .body), job.lock)

/-- The same jobs are eligible in runners that look the same. -/
theorem eligible_congr {runner runner' : JobRunner}
    (h : runner'.jobs.map seen = runner.jobs.map seen) (i : ℕ) :
  runner'.Eligible i ↔ runner.Eligible i
  := by
  have hseen : ∀ r : JobRunner, r.Eligible i ↔ ∃ job ∈ (r.jobs.map seen)[i]?, job.1 = true
      ∧ ∀ lock ∈ job.2.2, ∀ other ∈ r.jobs.map seen, other.2.1 = true → other.2.2 ≠ some lock := by
    intro r
    simp [Eligible, List.getElem?_map, seen]
  rw [hseen, hseen, h]

/-- The first of the jobs that wait for the semaphore. -/
theorem exists_first_semaphore {runner : JobRunner} {i : ℕ} {job : Job}
    (hjob : runner.jobs[i]? = some job) (hstage : job.stage = .semaphore) :
  ∃ k ≤ i, ∃ first, runner.jobs[k]? = some first ∧ first.stage = .semaphore
    ∧ ∀ earlier ∈ runner.jobs.take k, earlier.stage ≠ .semaphore
  := by
  have hexists : ∃ k : ℕ, ∃ first ∈ runner.jobs[k]?, first.stage = .semaphore :=
    ⟨i, job, hjob, hstage⟩
  obtain ⟨first, hfirst, hwaits⟩ := Nat.find_spec hexists
  refine ⟨Nat.find hexists, Nat.find_min' hexists ⟨job, hjob, hstage⟩, first, hfirst, hwaits, ?_⟩
  intro earlier hearlier hsemaphore
  obtain ⟨m, hm, hget⟩ := exists_of_mem_take hearlier
  apply Nat.find_min hexists hm ⟨earlier, hget, hsemaphore⟩

/-- The jobs that have the semaphore were all submitted before one that waits for it. -/
theorem Ordered.admitted_eq {runner : JobRunner} (h : runner.Ordered) {k : ℕ} {first : Job}
    (hfirst : runner.jobs[k]? = some first) (hstage : first.stage = .semaphore)
    (hbefore : ∀ earlier ∈ runner.jobs.take k, earlier.stage ≠ .semaphore) :
  runner.admitted = runner.unfinishedBefore k
  := by
  rw [unfinishedBefore_eq hbefore, admitted]
  conv_lhs => rw [← List.take_append_drop k runner.jobs, List.countP_append]
  rw [Nat.add_eq_left, List.countP_eq_zero]
  intro job hjob
  obtain ⟨m, hm⟩ := List.getElem?_of_mem hjob
  rw [List.getElem?_drop] at hm
  have hwaits : job.stage = .semaphore := by
    by_cases hzero : m = 0
    · subst hzero
      cases hfirst.symm.trans hm
      apply hstage
    · apply h.waiting k (k + m) first job (by omega) hfirst hm hstage
  simp [hwaits]

/-- The first of the jobs that wait for the semaphore gets it when it is free. -/
theorem step_acquire {runner : JobRunner} {k : ℕ} {first : Job} (hfirst : runner.jobs[k]? = some first)
    (hstage : first.stage = .semaphore) (hadmitted : runner.admitted < maxConcurrency)
    (hbefore : ∀ earlier ∈ runner.jobs.take k, earlier.stage ≠ .semaphore) :
  machine.step runner (.step (.acquire k)) = some ⟨runner.jobs.set k { first with stage := .lock }⟩
  := by
  apply step_eq_some.mpr
  use first, { first with stage := .lock }, hfirst
  constructor
  · exact if_pos ⟨hstage, hadmitted, hbefore⟩
  · rfl

/-- The oldest eligible job gets the lock of its resource when it has the semaphore. -/
theorem step_begin {runner : JobRunner} {i : ℕ} {job : Job} (hjob : runner.jobs[i]? = some job)
    (hstage : job.stage = .lock) (holdest : runner.OldestEligible i) :
  machine.step runner (.step (.begin i)) = some ⟨runner.jobs.set i { job with stage := .body }⟩
  := by
  obtain ⟨⟨job', hjob', -, hfree⟩, hyounger⟩ := holdest
  cases hjob.symm.trans hjob'
  apply step_eq_some.mpr
  use job, { job with stage := .body }, hjob
  constructor
  · refine if_pos ⟨hstage, hfree, ?_⟩
    intro lock hlock earlier hearlier hwaits hsame
    obtain ⟨k, hk, hget⟩ := exists_of_mem_take hearlier
    apply hyounger k hk
    refine ⟨earlier, hget, Or.inr hwaits, ?_⟩
    intro lock' hlock'
    cases hsame.symm.trans hlock'
    apply hfree lock hlock
  · rfl

/-- The oldest eligible job can start if fewer than `MAX_CONCURRENCY` unfinished jobs were submitted
before it: those that wait for the semaphore get it one after the other. -/
theorem canStart_of_unfinishedBefore_lt {runner : JobRunner} (h : runner.Ordered) {i : ℕ}
    (holdest : runner.OldestEligible i) (hbefore : runner.unfinishedBefore i < maxConcurrency) :
  runner.CanStart i
  := by
  -- by induction on the number of jobs up to this one that wait for the semaphore
  induction hn : (runner.jobs.take (i + 1)).countP (fun job => job.stage = .semaphore)
      using Nat.strong_induction_on generalizing runner with
  | _ n ih =>
      obtain ⟨job, hjob, hstage, -⟩ := holdest.1
      rcases hstage with hstage | hstage
      · obtain ⟨k, hk, first, hfirst, hwaits, hnone⟩ := exists_first_semaphore hjob hstage
        have hadmitted : runner.admitted < maxConcurrency := by
          rw [h.admitted_eq hfirst hwaits hnone]
          apply Nat.lt_of_le_of_lt _ hbefore
          apply (List.take_sublist_take_left hk).countP_le
        have hstep := step_acquire hfirst hwaits hadmitted hnone
        have hends : ¬ (Label.step (.acquire k)).Ends := fun h => h
        obtain ⟨hi, -⟩ := List.getElem?_eq_some_iff.mp hjob
        have hseen : (runner.jobs.set k { first with stage := .lock }).map seen
            = runner.jobs.map seen := map_set_eq seen hfirst (by simp [seen, hwaits, Job.lock])
        have hsame := (unfinishedBefore_of_step hends hstep (Nat.le_of_lt hi)).1
        have holdest' : OldestEligible ⟨runner.jobs.set k { first with stage := .lock }⟩ i := by
          constructor
          · apply (eligible_congr hseen i).mpr holdest.1
          · intro j hj heligible
            apply holdest.2 j hj ((eligible_congr hseen j).mp heligible)
        have hfewer : ((runner.jobs.set k { first with stage := .lock }).take (i + 1)).countP
            (fun job => job.stage = .semaphore) < n := by
          rw [← hn, List.take_set]
          have hget : (runner.jobs.take (i + 1))[k]? = some first := by
            rw [List.getElem?_take_of_lt (by omega)]
            apply hfirst
          obtain ⟨hlength, hget⟩ := List.getElem?_eq_some_iff.mp hget
          have hpos : 0 < (runner.jobs.take (i + 1)).countP fun job => job.stage = .semaphore := by
            apply List.countP_pos_iff.mpr
            use job
            constructor
            · apply List.mem_of_getElem? (i := i)
              rw [List.getElem?_take_of_lt (by omega)]
              apply hjob
            · simpa using hstage
          rw [List.countP_set hlength, hget]
          simp only [hwaits, decide_true, if_true, reduceCtorEq, decide_false, if_false,
            Bool.false_eq_true]
          omega
        obtain ⟨labels, runner', hrun, hlabels, hexecutes⟩ :=
          ih _ hfewer (h.step hstep) holdest' (hsame ▸ hbefore) rfl
        refine ⟨_ :: labels, runner', machine.run_cons_eq_some.mpr ⟨_, hstep, hrun⟩, ?_, hexecutes⟩
        intro a ha
        rcases List.mem_cons.mp ha with rfl | ha
        · apply hends
        · apply hlabels a ha
      · have hstep := step_begin hjob hstage holdest
        refine ⟨[.step (.begin i)], _, machine.run_cons_eq_some.mpr ⟨_, hstep, rfl⟩, ?_, ?_⟩
        · intro a ha
          cases List.mem_singleton.mp ha
          exact fun h => h
        · obtain ⟨hi, -⟩ := List.getElem?_eq_some_iff.mp hjob
          exact ⟨_, List.getElem?_set_self hi, rfl⟩

/-- While fewer than `MAX_CONCURRENCY` bodies execute and a job is eligible, some eligible job can
start. -/
def Unblocked (runner : JobRunner) : Prop :=
  runner.bodies < maxConcurrency → (∃ i, runner.Eligible i) →
    ∃ i, runner.Eligible i ∧ runner.CanStart i

/-- In every state that is reached, an eligible job can start while fewer than `MAX_CONCURRENCY` bodies
execute, if and only if then the oldest eligible job has fewer than `MAX_CONCURRENCY` unfinished jobs
before it. -/
theorem unblocked_iff {labels : List Label} {runner : JobRunner}
    (hrun : machine.run empty labels = some runner) :
  runner.Unblocked
    ↔ (runner.bodies < maxConcurrency → ∀ i, runner.OldestEligible i →
        runner.unfinishedBefore i < maxConcurrency)
  := by
  have hordered := jobsOrdered_of_run hrun
  constructor
  · intro h hbodies i holdest
    obtain ⟨j, heligible, hstart⟩ := h hbodies ⟨i, holdest.1⟩
    have hj := heligible.lt_length
    have hij : i ≤ j := by
      by_contra hlt
      apply holdest.2 j (by omega) heligible
    have hbefore := unfinishedBefore_lt_of_canStart hordered (Nat.le_of_lt hj) hstart
    apply Nat.lt_of_le_of_lt _ hbefore
    apply (List.take_sublist_take_left hij).countP_le
  · intro h hbodies ⟨i, heligible⟩
    obtain ⟨j, -, holdest⟩ := exists_oldestEligible heligible
    use j, holdest.1
    apply canStart_of_unfinishedBefore_lt hordered holdest (h hbodies j holdest)

/-- Two jobs of one share and a third job: the third starts beside the first. -/
def twoOfAShare : List Label :=
  [.submit "shares.apply_permissions" (some "share:media"),
    .submit "shares.apply_permissions" (some "share:media"), .submit "files.copy" none,
    .step (.acquire 0), .step (.begin 0)]

/-- Four jobs of one share and a fifth job. -/
def fourOfAShare : List Label :=
  List.replicate 4 (.submit "shares.apply_permissions" (some "share:media"))
    ++ [.submit "files.copy" none, .step (.acquire 0), .step (.acquire 1), .step (.acquire 2),
      .step (.acquire 3), .step (.begin 0)]

/-- While the first of two jobs of a share runs, another job can start. -/
theorem unblocked_twoOfAShare :
  ∃ runner, machine.run empty twoOfAShare = some runner ∧ runner.Unblocked
  := by
  refine ⟨_, rfl, ?_⟩
  rw [@unblocked_iff twoOfAShare _ rfl]
  intro _ i holdest
  have hlength : i < 3 := holdest.1.lt_length
  apply Nat.lt_of_le_of_lt (unfinishedBefore_le _ i)
  apply Nat.lt_trans hlength
  decide

/-- While the first of four jobs of a share runs, a job of no resource waits for it. -/
theorem not_unblocked_fourOfAShare :
  ∃ runner, machine.run empty fourOfAShare = some runner ∧ ¬ runner.Unblocked
  := by
  have hrun : (machine.run empty fourOfAShare).any (fun runner => decide (runner.bodies = 1)
      && decide (runner.Eligible 4) && decide (∀ i ∈ List.range 4, ¬ runner.Eligible i)
      && decide (runner.unfinishedBefore 4 = 4) && decide (runner.jobs.length = 5)) = true := by
    decide
  obtain ⟨runner, hrun, hrunner⟩ := (Option.any_eq_true _ _).mp hrun
  simp only [Bool.and_eq_true, decide_eq_true_eq] at hrunner
  obtain ⟨⟨⟨⟨hbodies, heligible⟩, holdest⟩, hbefore⟩, hlength⟩ := hrunner
  use runner, hrun
  intro h
  obtain ⟨i, hi, hstart⟩ := h (by rw [hbodies]; decide) ⟨4, heligible⟩
  have hlt := hi.lt_length
  have hfour : i = 4 := by
    by_contra hne
    apply holdest i (List.mem_range.mpr (by omega)) hi
  have hless := unfinishedBefore_lt_of_canStart (jobsOrdered_of_run hrun) (Nat.le_of_lt hlt) hstart
  rw [hfour, hbefore] at hless
  apply absurd hless (Nat.lt_irrefl 4)

end JobRunner
