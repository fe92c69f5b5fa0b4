import Mathlib
import NasOs.Agent.Concurrency

/-!
# Every job gets its turn

A job takes three steps, in which it is given the semaphore, is given the lock of its resource and begins,
and ends.  Jobs that hold the semaphore wait for the locks of others, and the semaphore is full of jobs that
may all wait for the lock of one, so it is to be shown that they do not block each other.

No job is overtaken by one that was submitted later and has the same resource (`InOrder`).  So as long as a
job is not over, one of the steps of the jobs that were submitted before it, or of itself, can be taken;
and only three of these are left for each of them (`progress_of_run`).  When the bodies end, every job does,
whatever is submitted later.
-/

/-- How many steps are left of a task. -/
def TaskStage.left : TaskStage → ℕ
  | .semaphore => 3
  | .lock => 2
  | .body => 1
  | .ended _ => 0

/-- Nothing is left of a task that is over. -/
theorem TaskStage.left_eq_zero_iff {stage : TaskStage} :
  stage.left = 0 ↔ stage.isOver = true
  := by
  cases stage with
  | _ => simp [left, isOver]

namespace JobRunner

/-- The place of the job whose task takes a step at a label. -/
def Label.task : Label → Option ℕ
  | .step (.acquire i) => some i
  | .step (.begin i) => some i
  | .step (.finish i _) => some i
  | .abort i => some i
  | _ => none

/-- The label is a step of one of the jobs up to the one at place `i`. -/
def Label.within (i : ℕ) (a : Label) : Bool :=
  a.task.any fun j => j ≤ i

/-- How many steps are left of the jobs up to the one at place `i`. -/
def left (runner : JobRunner) (i : ℕ) : ℕ :=
  ((runner.jobs.take (i + 1)).map fun job => job.stage.left).sum

/-! ### The steps that are left -/

section

variable {runner runner' : JobRunner} {i j : ℕ} {job job' : Job}

/-- The sum of some numbers when one of them was replaced. -/
theorem sum_set_add {l : List ℕ} {x y : ℕ} (h : l[j]? = some y) :
  (l.set j x).sum + y = l.sum + x
  := by
  induction l generalizing j with
  | nil => cases h
  | cons z l ih =>
      cases j with
      | zero =>
          cases h
          rw [List.set_cons_zero, List.sum_cons, List.sum_cons]
          omega
      | succ j =>
          have hrest := ih h
          rw [List.set_cons_succ, List.sum_cons, List.sum_cons]
          omega

/-- The steps that are left when a job was replaced. -/
theorem left_set (job' : Job) (hjob : runner.jobs[j]? = some job) :
  (⟨runner.jobs.set j job'⟩ : JobRunner).left i + (if j ≤ i then job.stage.left else 0)
    = runner.left i + (if j ≤ i then job'.stage.left else 0)
  := by
  rw [left, left, List.take_set, List.map_set]
  split
  · rename_i hji
    apply sum_set_add
    rw [List.getElem?_map, List.getElem?_take_of_lt (by omega), hjob]
    rfl
  · rename_i hji
    rw [List.set_eq_of_length_le]
    rw [List.length_map, List.length_take]
    omega

/-- The steps that are left when a job was submitted. -/
theorem left_submit (kind : String) (resource : Option String) :
  (runner.submit kind resource).left i
    = runner.left i + (if runner.jobs.length ≤ i then 3 else 0)
  := by
  rw [left, left, submit, List.take_append, List.map_append, List.sum_append]
  congr 1
  split
  · rename_i hlength
    rw [List.take_of_length_le (by simp; omega)]
    rfl
  · rename_i hlength
    have hzero : i + 1 - runner.jobs.length = 0 := by omega
    rw [hzero]
    rfl

/-- A step of a task is one of those that are left of it. -/
theorem step_of_task {a : Label} (htask : a.task = some j) (h : machine.step runner a = some runner') :
  ∃ job job', runner.jobs[j]? = some job ∧ job'.stage.left + 1 = job.stage.left
    ∧ runner' = ⟨runner.jobs.set j job'⟩
  := by
  cases a with
  | submit kind resource => cases htask
  | step step =>
      obtain ⟨job, job', hjob, hnext, rfl⟩ := step_eq_some.mp h
      cases step with
      | cancel k => cases htask
      | acquire k =>
          cases htask
          obtain ⟨⟨hstage, -⟩, hnext⟩ := Option.ite_none_right_eq_some.mp hnext
          cases hnext
          refine ⟨job, _, hjob, ?_, rfl⟩
          rw [hstage]
          rfl
      | begin k =>
          cases htask
          obtain ⟨⟨hstage, -⟩, hnext⟩ := Option.ite_none_right_eq_some.mp hnext
          cases hnext
          refine ⟨job, _, hjob, ?_, rfl⟩
          rw [hstage]
          rfl
      | finish k raised =>
          cases htask
          obtain ⟨hstage, hnext⟩ := Option.ite_none_right_eq_some.mp hnext
          cases hnext
          refine ⟨job, _, hjob, ?_, rfl⟩
          rw [hstage]
          rfl
  | abort k =>
      cases htask
      obtain ⟨job, hjob, h⟩ := Option.bind_eq_some_iff.mp h
      obtain ⟨hstage, h⟩ := Option.ite_none_right_eq_some.mp h
      cases h
      refine ⟨job, _, hjob, ?_, rfl⟩
      rw [hstage]
      rfl

/-- What is no step of a task submits a job, or asks for the end of one. -/
theorem step_of_no_task {a : Label} (htask : a.task = none) (h : machine.step runner a = some runner') :
  (∃ kind resource, runner' = runner.submit kind resource)
    ∨ ∃ j job, runner.jobs[j]? = some job
        ∧ runner' = ⟨runner.jobs.set j { job with cancelRequested := true }⟩
  := by
  cases a with
  | submit kind resource =>
      left
      use kind, resource
      apply (Option.some.inj h).symm
  | abort k => cases htask
  | step step =>
      right
      obtain ⟨job, job', hjob, hnext, rfl⟩ := step_eq_some.mp h
      cases step with
      | cancel k =>
          simp only [next] at hnext
          split at hnext
          · cases hnext
          · cases hnext
            exact ⟨k, job, hjob, rfl⟩
      | acquire k => cases htask
      | begin k => cases htask
      | finish k raised => cases htask

/-- Each step of the jobs up to a place is one of those that were left of them. -/
theorem left_of_step {a : Label} (h : machine.step runner a = some runner') :
  runner'.left i + (if a.within i = true then 1 else 0) + 3 * min (i + 1) runner.jobs.length
    = runner.left i + 3 * min (i + 1) runner'.jobs.length
  := by
  cases htask : a.task with
  | some j =>
      obtain ⟨job, job', hjob, hleft, rfl⟩ := step_of_task htask h
      have hset := left_set (i := i) job' hjob
      rw [Label.within, htask, Option.any_some, List.length_set]
      by_cases hji : j ≤ i
      · rw [if_pos hji, if_pos hji] at hset
        rw [if_pos (decide_eq_true hji)]
        omega
      · rw [if_neg hji, if_neg hji] at hset
        rw [if_neg (by simpa using hji)]
        omega
  | none =>
      rw [Label.within, htask, Option.any_none, if_neg Bool.false_ne_true]
      rcases step_of_no_task htask h with ⟨kind, resource, rfl⟩ | ⟨j, job, hjob, rfl⟩
      · rw [left_submit]
        have hlength : (runner.submit kind resource).jobs.length = runner.jobs.length + 1 := by
          rw [submit, List.length_append, List.length_singleton]
        rw [hlength]
        split
        · omega
        · omega
      · have hset := left_set (i := i) { job with cancelRequested := true } hjob
        rw [List.length_set]
        dsimp only at hset
        omega

/-! ### The order of the jobs -/

/-- No job was overtaken by one that was submitted later and has the same lock. -/
def InOrder (runner : JobRunner) : Prop :=
  ∀ (j k : ℕ) (waits runs : Job), j < k → runner.jobs[j]? = some waits → runner.jobs[k]? = some runs →
    waits.stage = .semaphore ∨ waits.stage = .lock → runs.stage = .body →
    ∀ lock ∈ waits.lock, runs.lock ≠ some lock

/-- The job of a place lies among those before a later one. -/
theorem mem_take {k : ℕ} (hjk : j < k) (hjob : runner.jobs[j]? = some job) :
  job ∈ runner.jobs.take k
  := by
  apply List.mem_of_getElem? (i := j)
  rw [List.getElem?_take_of_lt hjk, hjob]

/-- Moving a job keeps the order. -/
theorem InOrder.moved (h : runner.InOrder) (hordered : runner.Ordered) (hjob : runner.jobs[i]? = some job)
    (hmoved : Moved runner i job job') :
  (⟨runner.jobs.set i job'⟩ : JobRunner).InOrder
  := by
  intro j k waits runs hjk hwaits hruns hwaiting hbody lock hlock
  rcases getElem?_set hjob hruns with ⟨rfl, rfl⟩ | ⟨hik, hruns'⟩
  · rcases getElem?_set hjob hwaits with ⟨rfl, -⟩ | ⟨-, hwaits'⟩
    · omega
    · cases hmoved with
      | cancel hstage => apply h j i waits job hjk hwaits' hjob hwaiting hbody lock hlock
      | acquire hstage hadmitted hfirst => cases hbody
      | begin hstage hfree hfirst =>
          intro hsame
          rcases hwaiting with hsemaphore | hwaiting
          · have hlater := hordered.waiting j i waits job hjk hwaits' hjob hsemaphore
            rw [hstage] at hlater
            cases hlater
          · apply hfirst lock hsame waits (mem_take hjk hwaits') hwaiting hlock
      | finish hstage status => cases hbody
  · rcases getElem?_set hjob hwaits with ⟨rfl, rfl⟩ | ⟨hij, hwaits'⟩
    · rw [hmoved.lock] at hlock
      cases hmoved with
      | cancel hstage => apply h i k job runs hjk hjob hruns' hwaiting hbody lock hlock
      | acquire hstage hadmitted hfirst =>
          apply h i k job runs hjk hjob hruns' (.inl hstage) hbody lock hlock
      | begin hstage hfree hfirst =>
          rcases hwaiting with hwaiting | hwaiting
          · cases hwaiting
          · cases hwaiting
      | finish hstage status =>
          rcases hwaiting with hwaiting | hwaiting
          · cases hwaiting
          · cases hwaiting
    · apply h j k waits runs hjk hwaits' hruns' hwaiting hbody lock hlock

/-- A label keeps the order. -/
theorem InOrder.step (h : runner.InOrder) (hordered : runner.Ordered) {a : Label}
    (hstep : machine.step runner a = some runner') :
  runner'.InOrder
  := by
  rcases step_cases hstep with ⟨kind, resource, rfl⟩ | ⟨i, job, job', hjob, hmoved, -, rfl⟩
  · intro j k waits runs hjk hwaits hruns hwaiting hbody
    rcases getElem?_submit hruns with hruns | ⟨rfl, rfl⟩
    · rcases getElem?_submit hwaits with hwaits | ⟨rfl, -⟩
      · apply h j k waits runs hjk hwaits hruns hwaiting hbody
      · obtain ⟨hk, -⟩ := List.getElem?_eq_some_iff.mp hruns
        omega
    · cases hbody
  · apply h.moved hordered hjob hmoved

/-- While a job is not over, one of the jobs up to it can take a step. -/
theorem exists_step (hordered : runner.Ordered) (h : runner.InOrder) (hjob : runner.jobs[i]? = some job)
    (hleft : job.stage.isOver = false) :
  ∃ a runner', a.within i = true ∧ machine.step runner a = some runner'
  := by
  have hwithin : ∀ {j : ℕ} {a : Label}, j ≤ i → a.task = some j → a.within i = true := by
    intro j a hj ha
    rw [Label.within, ha]
    exact decide_eq_true hj
  by_cases hbody : ∃ j ≤ i, ∃ runs, runner.jobs[j]? = some runs ∧ runs.stage = .body
  · -- the body of one of them can end
    obtain ⟨j, hj, runs, hruns, hstage⟩ := hbody
    have hnext : runner.next runs (.finish j false)
        = some { runs with stage := .ended (runs.outcome false) } := if_pos hstage
    exact ⟨.step (.finish j false), _, hwithin hj rfl, step_eq_some.mpr ⟨runs, _, hruns, hnext, rfl⟩⟩
  · by_cases hlock : ∃ j, j ≤ i ∧ ∃ waits, runner.jobs[j]? = some waits ∧ waits.stage = .lock
    · -- the first that waits for a lock can have it
      obtain ⟨j, ⟨hj, waits, hwaits, hstage⟩, hfirst⟩ := WellFounded.has_min Nat.lt_wfRel.wf
        {j | j ≤ i ∧ ∃ waits, runner.jobs[j]? = some waits ∧ waits.stage = .lock} hlock
      have hfree : ∀ lock ∈ waits.lock, ∀ other ∈ runner.jobs,
          other.stage = .body → other.lock ≠ some lock := by
        intro lock hmem other hother hbody'
        obtain ⟨k, hk⟩ := List.getElem?_of_mem hother
        have hik : i < k := by
          by_contra hki
          apply hbody ⟨k, by omega, other, hk, hbody'⟩
        apply h j k waits other (by omega) hwaits hk (.inr hstage) hbody' lock hmem
      have hearlier : ∀ lock ∈ waits.lock, ∀ earlier ∈ runner.jobs.take j,
          earlier.stage = .lock → earlier.lock ≠ some lock := by
        intro lock hmem earlier hmem' hstage'
        obtain ⟨k, hk, hearlier⟩ := exists_of_mem_take hmem'
        exact absurd hk (hfirst k ⟨by omega, earlier, hearlier, hstage'⟩)
      have hnext : runner.next waits (.begin j) = some { waits with stage := .body } :=
        if_pos ⟨hstage, hfree, hearlier⟩
      exact ⟨.step (.begin j), _, hwithin hj rfl, step_eq_some.mpr ⟨waits, _, hwaits, hnext, rfl⟩⟩
    · -- none has the semaphore, so that the first that waits for it can have it
      have hsemaphore : job.stage = .semaphore := by
        cases hstage : job.stage with
        | semaphore => rfl
        | lock => exact absurd ⟨i, le_rfl, job, hjob, hstage⟩ hlock
        | body => exact absurd ⟨i, le_rfl, job, hjob, hstage⟩ hbody
        | ended status =>
            rw [hstage] at hleft
            cases hleft
      obtain ⟨k, hk, first, hfirst, hstage, hbefore⟩ := exists_first_semaphore hjob hsemaphore
      have hzero : runner.admitted = 0 := by
        rw [hordered.admitted_eq hfirst hstage hbefore, unfinishedBefore_eq hbefore,
          List.countP_eq_zero]
        intro earlier hearlier hhas
        obtain ⟨m, hm, hearlier⟩ := exists_of_mem_take hearlier
        rcases of_decide_eq_true hhas with hhas | hhas
        · apply hlock ⟨m, by omega, earlier, hearlier, hhas⟩
        · apply hbody ⟨m, by omega, earlier, hearlier, hhas⟩
      have hadmitted : runner.admitted < maxConcurrency := by
        rw [hzero]
        decide
      exact ⟨.step (.acquire k), _, hwithin hk rfl, step_acquire hfirst hstage hadmitted hbefore⟩

end

/-- Over a run the order is kept, and each step of the jobs up to a place is one that was left of them;
three are added when one of them is submitted. -/
theorem steps_of_run {labels : List Label} {before after : JobRunner} (i : ℕ)
    (hrun : machine.run before labels = some after) (hordered : before.Ordered) (h : before.InOrder) :
  after.Ordered ∧ after.InOrder
    ∧ labels.countP (Label.within i) + after.left i + 3 * min (i + 1) before.jobs.length
      = before.left i + 3 * min (i + 1) after.jobs.length
  := by
  induction labels generalizing before with
  | nil =>
      cases hrun
      use hordered
      use h
      rw [List.countP_nil]
      omega
  | cons a labels ih =>
      obtain ⟨next, hstep, hrun⟩ := machine.run_cons_eq_some.mp hrun
      obtain ⟨hordered', h', hcount⟩ := ih hrun (hordered.step hstep) (h.step hordered hstep)
      have hleft := left_of_step (i := i) hstep
      use hordered'
      use h'
      rw [List.countP_cons]
      omega

/-- In every state that is reached, whatever was submitted: the jobs up to a place have taken and will take
three steps each, however the others are served; and as long as the job at the place is not over, one of
these steps can be taken.  So every job is over after these steps. -/
theorem progress_of_run {labels : List Label} {runner : JobRunner}
    (hrun : machine.run empty labels = some runner) {i : ℕ} {job : Job}
    (hjob : runner.jobs[i]? = some job) :
  labels.countP (Label.within i) + runner.left i = 3 * (i + 1)
    ∧ (job.stage.isOver = false →
      ∃ a runner', a.within i = true ∧ machine.step runner a = some runner')
  := by
  have hempty : empty.Ordered := jobsOrdered_of_run (machine.run_nil empty)
  have hinOrder : empty.InOrder := by
    intro j k waits runs hjk hwaits
    cases hwaits
  obtain ⟨hordered, h, hcount⟩ := steps_of_run i hrun hempty hinOrder
  obtain ⟨hi, -⟩ := List.getElem?_eq_some_iff.mp hjob
  constructor
  · have hnone : empty.left i = 0 := by
      rw [left, empty, List.take_nil]
      rfl
    have hlength : empty.jobs.length = 0 := rfl
    rw [hnone, hlength] at hcount
    omega
  · apply exists_step hordered h hjob

/-- The last of five jobs, four of which want the same lock. -/
theorem progress_fourOfAShare :
  ∃ runner job, machine.run empty fourOfAShare = some runner ∧ runner.jobs[4]? = some job
    ∧ fourOfAShare.countP (Label.within 4) + runner.left 4 = 3 * (4 + 1)
    ∧ (job.stage.isOver = false →
      ∃ a runner', a.within 4 = true ∧ machine.step runner a = some runner')
  := by
  refine ⟨_, _, rfl, rfl, ?_⟩
  exact @progress_of_run fourOfAShare _ rfl 4 _ rfl

end JobRunner
