import Mathlib.Data.List.Induction
import NasOs.Library.Coroutine
import NasOs.Library.Machine

/-!
# Pools of coroutines

A pool is a list of coroutines over one world.  A step of the pool picks one of them,
answers the operation it awaits from the world, and resumes it; the world may also change
by itself.  `Effects` says how the world answers each operation, a choice standing for
what the operation itself leaves open, such as whether it fails.

Each task of a pool follows its own part of the pool's history, in every run
(`Pool.traces_of_run`), so that what a task has done is found by inverting one coroutine.
-/

universe u v w

/-- How a world in `σ` answers operations, by a choice in `χ`, and how it changes by
itself, by an event in `ε`. -/
structure Effects (Op : Type u) (Res : Op → Type u) (σ : Type v) (χ ε : Type w) where
  perform : σ → (op : Op) → χ → Option (Res op × σ)
  environment : σ → ε → Option σ

/-- Coroutines over one world, with the operations answered so far and whose they were. -/
structure Pool (Op : Type u) (Res : Op → Type u) (σ : Type v) (α : Type u) where
  world : σ
  tasks : List (Coroutine Op Res α)
  history : List (ℕ × Event Op Res)

namespace Pool

variable {Op : Type u} {Res : Op → Type u} {σ : Type v} {χ ε : Type w} {α : Type u}

/-- A step of a pool: the task `i` is answered by a choice, or the world changes. -/
inductive Label (χ ε : Type w) where
  | task (i : ℕ) (choice : χ)
  | environment (e : ε)

/-- The pool of unstarted tasks over a world. -/
def start (world : σ) (tasks : List (Coroutine Op Res α)) : Pool Op Res σ α :=
  ⟨world, tasks, []⟩

/-- The operations of the task `i` answered so far. -/
def historyOf (p : Pool Op Res σ α) (i : ℕ) : List (Event Op Res) :=
  (p.history.filter fun e => e.1 = i).map Prod.snd

/-- The operation the task `i` awaits, if there is such a task and it is not done. -/
def pendingOf (p : Pool Op Res σ α) (i : ℕ) : Option Op :=
  p.tasks[i]?.bind Coroutine.pending

/-- The pool after the task `i` was given the answer `r`. -/
def resumed (p : Pool Op Res σ α) (i : ℕ) (op : Op) (resume : Res op → Coroutine Op Res α)
    (r : Res op) (world : σ) : Pool Op Res σ α :=
  ⟨world, p.tasks.set i (resume r), p.history ++ [(i, ⟨op, r⟩)]⟩

/-- The step of a label, if it has one. -/
def step (E : Effects Op Res σ χ ε) (p : Pool Op Res σ α) : Label χ ε → Option (Pool Op Res σ α)
  | .task i choice =>
      match p.tasks[i]? with
      | some (.await op resume) =>
          (E.perform p.world op choice).map fun a => p.resumed i op resume a.1 a.2
      | _ => none
  | .environment e => (E.environment p.world e).map fun world => { p with world }

/-- The machine of a pool. -/
def machine (E : Effects Op Res σ χ ε) : Machine (Pool Op Res σ α) (Label χ ε) :=
  ⟨step E⟩

variable {E : Effects Op Res σ χ ε} {p p' : Pool Op Res σ α}

/-- A task steps when it awaits an operation and the world answers it. -/
theorem step_task {i : ℕ} {choice : χ} :
  (machine E).step p (.task i choice) = some p'
    ↔ ∃ op resume r world, p.tasks[i]? = some (.await op resume)
        ∧ E.perform p.world op choice = some (r, world)
        ∧ p' = p.resumed i op resume r world
  := by
  simp only [machine, step]
  constructor
  · intro h
    split at h
    · rename_i op resume htask
      obtain ⟨⟨r, world⟩, hperform, rfl⟩ := Option.map_eq_some_iff.mp h
      exact ⟨op, resume, r, world, htask, hperform, rfl⟩
    · cases h
  · rintro ⟨op, resume, r, world, htask, hperform, rfl⟩
    simp only [htask, hperform, Option.map_some]

/-- A step of the world changes nothing else. -/
theorem step_environment {e : ε} :
  (machine E).step p (.environment e) = some p'
    ↔ ∃ world, E.environment p.world e = some world ∧ p' = { p with world }
  := by
  simp only [machine, step, Option.map_eq_some_iff]
  constructor
  · rintro ⟨world, h, rfl⟩
    exact ⟨world, h, rfl⟩
  · rintro ⟨world, h, rfl⟩
    exact ⟨world, h, rfl⟩

/-- What a task awaits. -/
theorem pendingOf_eq {i : ℕ} {c : Coroutine Op Res α} (h : p.tasks[i]? = some c) :
  p.pendingOf i = c.pending
  := by
  rw [pendingOf, h, Option.bind_some]

@[simp]
theorem historyOf_start (world : σ) (tasks : List (Coroutine Op Res α)) (i : ℕ) :
  (start world tasks).historyOf i = []
  := rfl

@[simp]
theorem historyOf_resumed_self (i : ℕ) (op : Op) (resume : Res op → Coroutine Op Res α)
    (r : Res op) (world : σ) :
  (p.resumed i op resume r world).historyOf i = p.historyOf i ++ [⟨op, r⟩]
  := by
  simp [historyOf, resumed]

/-- An answer to one task leaves the histories of the others. -/
theorem historyOf_resumed_of_ne {i j : ℕ} (h : i ≠ j) (op : Op)
    (resume : Res op → Coroutine Op Res α) (r : Res op) (world : σ) :
  (p.resumed i op resume r world).historyOf j = p.historyOf j
  := by
  simp [historyOf, resumed, h]

/-- The task answered resumes. -/
theorem tasks_resumed_self {i : ℕ} {op : Op} {resume : Res op → Coroutine Op Res α}
    (h : p.tasks[i]? = some (.await op resume)) (r : Res op) (world : σ) :
  (p.resumed i op resume r world).tasks[i]? = some (resume r)
  := by
  obtain ⟨hi, -⟩ := List.getElem?_eq_some_iff.mp h
  simp [resumed, hi]

/-- The other tasks stay where they were. -/
theorem tasks_resumed_of_ne {i j : ℕ} (h : i ≠ j) (op : Op)
    (resume : Res op → Coroutine Op Res α) (r : Res op) (world : σ) :
  (p.resumed i op resume r world).tasks[j]? = p.tasks[j]?
  := List.getElem?_set_ne h

theorem pendingOf_resumed_of_ne {i j : ℕ} (h : i ≠ j) (op : Op)
    (resume : Res op → Coroutine Op Res α) (r : Res op) (world : σ) :
  (p.resumed i op resume r world).pendingOf j = p.pendingOf j
  := by
  rw [pendingOf, pendingOf, tasks_resumed_of_ne h]

/-! ### Every task follows its own history -/

/-- Each of the coroutines `tasks` follows its history in `p` to the task it is there. -/
def Traces (tasks : List (Coroutine Op Res α)) (p : Pool Op Res σ α) : Prop :=
  p.tasks.length = tasks.length
    ∧ ∀ (i : ℕ) (c : Coroutine Op Res α), tasks[i]? = some c →
        ∃ c', p.tasks[i]? = some c' ∧ c.Follows (p.historyOf i) c'

theorem traces_start (world : σ) (tasks : List (Coroutine Op Res α)) :
  Traces tasks (start world tasks)
  := by
  use rfl
  intro i c h
  exact ⟨c, h, Coroutine.Follows.nil c⟩

/-- Answering a task extends its history, and no other's. -/
theorem Traces.resumed {tasks : List (Coroutine Op Res α)} (h : Traces tasks p) {i : ℕ} {op : Op}
    {resume : Res op → Coroutine Op Res α} (htask : p.tasks[i]? = some (.await op resume))
    (r : Res op) (world : σ) :
  Traces tasks (p.resumed i op resume r world)
  := by
  constructor
  · apply Eq.trans List.length_set h.1
  · intro j c hj
    obtain ⟨c', hc', hf⟩ := h.2 j c hj
    by_cases hij : i = j
    · subst hij
      rw [htask] at hc'
      cases hc'
      use resume r, tasks_resumed_self htask r world
      rw [historyOf_resumed_self]
      apply hf.snoc
    · use c'
      rw [tasks_resumed_of_ne hij, historyOf_resumed_of_ne hij]
      exact ⟨hc', hf⟩

/-- The step lemma of `Traces`. -/
theorem Traces.step {tasks : List (Coroutine Op Res α)} (h : Traces tasks p) {l : Label χ ε}
    (hstep : (machine E).step p l = some p') :
  Traces tasks p'
  := by
  cases l with
  | task i choice =>
      obtain ⟨op, resume, r, world, htask, -, rfl⟩ := step_task.mp hstep
      apply h.resumed htask
  | environment e =>
      obtain ⟨world, -, rfl⟩ := step_environment.mp hstep
      apply h

/-- In every run of a pool, each task follows its own part of the history. -/
theorem traces_of_run {tasks : List (Coroutine Op Res α)} {world : σ} {l : List (Label χ ε)}
    (hrun : (machine E).run (start world tasks) l = some p) :
  Traces tasks p
  := Machine.run_invariant_of_step (fun _ _ _ h hstep => h.step hstep) (traces_start world tasks)
    hrun

/-- Everything in the history of a run was answered at some step of it, by the world as it was
there. -/
theorem performed_of_run {tasks : List (Coroutine Op Res α)} {world : σ} {l : List (Label χ ε)}
    (hrun : (machine E).run (start world tasks) l = some p) {i : ℕ} {e : Event Op Res}
    (he : (i, e) ∈ p.history) :
  ∃ before choice after q world', l = before ++ .task i choice :: after
    ∧ (machine E).run (start world tasks) before = some q
    ∧ E.perform q.world e.1 choice = some (e.2, world')
  := by
  induction l using List.reverseRecOn generalizing p with
  | nil =>
      cases hrun
      cases he
  | append_singleton l label ih =>
      rw [Machine.run_append] at hrun
      obtain ⟨q, hq, hlast⟩ := Option.bind_eq_some_iff.mp hrun
      obtain ⟨p', hstep, hp'⟩ := (Machine.run_cons_eq_some _).mp hlast
      cases hp'
      have hearlier (hmem : (i, e) ∈ q.history) :
          ∃ before choice after q world', l ++ [label] = before ++ .task i choice :: after
            ∧ (machine E).run (start world tasks) before = some q
            ∧ E.perform q.world e.1 choice = some (e.2, world') := by
        obtain ⟨before, choice, after, q', world', rfl, hbefore, hperform⟩ := ih hq hmem
        refine ⟨before, choice, after ++ [label], q', world', ?_, hbefore, hperform⟩
        simp
      cases label with
      | task j choice =>
          obtain ⟨op, resume, r, world', -, hperform, rfl⟩ := step_task.mp hstep
          rcases List.mem_append.mp he with he | he
          · apply hearlier he
          · cases List.mem_singleton.mp he
            exact ⟨l, choice, [], q, world', rfl, hq, hperform⟩
      | environment event =>
          obtain ⟨world', -, rfl⟩ := step_environment.mp hstep
          apply hearlier he

end Pool
