import NasOs.Agent.Children

/-!
# The file workers of the supervisor

The supervisor keeps the worker of each user in one table and the user of each worker in another.  A
worker is in the tables from the moment it is spawned until `reap` collects it, so that its number is in
use all the while, the tables are inverse to each other, and no user has two workers.

A worker that exited is still in the process table until then.  `_process_alive` takes it for alive, and
`ensure` returns its socket.
-/

namespace AgentChildren

/-- No user has two workers that run. -/
def OneEach (s : AgentChildren) : Prop :=
  ∀ uid pid pid', s.processes.lookup pid = some (.child (.supervisor uid) none) →
    s.processes.lookup pid' = some (.child (.supervisor uid) none) → pid = pid'

/-- The number of every worker in the one table leads back to its user in the other. -/
def Mapped (s : AgentChildren) : Prop :=
  ∀ uid pid, s.workers uid = some pid → s.pidToUid pid = some uid

/-- `reap` drops no worker that runs. -/
def ReapSpares (s s' : AgentChildren) (a : ChildLabel) : Prop :=
  ∀ pids, a = .reap pids → ∀ uid pid spawner, s.workers uid = some pid →
    s.processes.lookup pid = some (.child spawner none) → s'.workers uid = some pid

/-- `ensure` returns the socket of a worker of the user that runs. -/
def EnsureReturns (s' : AgentChildren) (a : ChildLabel) : Prop :=
  ∀ uid pid, a = .ensure uid pid → ∃ worker, s'.workers uid = some worker
    ∧ s'.processes.lookup worker = some (.child (.supervisor uid) none)

/-- What is said of the supervisor holds of a step. -/
def Supervised (s : AgentChildren) (a : ChildLabel) : Prop :=
  ∀ s', machine.step s a = some s' →
    s'.OneEach ∧ s'.Mapped ∧ ReapSpares s s' a ∧ EnsureReturns s' a

/-- If `ensure` runs, the worker of the user, if there is one, has not exited. -/
def EnsuresRunning (s : AgentChildren) : ChildLabel → Prop
  | .ensure uid _ => ∀ pid ∈ s.workers uid, s.status pid = none
  | _ => True

instance decidableEnsuresRunning (s : AgentChildren) : (a : ChildLabel) → Decidable (s.EnsuresRunning a)
  | .ensure uid _ => inferInstanceAs (Decidable (∀ pid ∈ s.workers uid, s.status pid = none))
  | .run _ => isTrue trivial
  | .exit _ _ => isTrue trivial
  | .reap _ => isTrue trivial
  | .wait _ => isTrue trivial
  | .otherStarts _ => isTrue trivial
  | .otherExits _ => isTrue trivial

/-! ### The tables and the processes -/

/-- The tables hold the workers that were not collected, and they are inverse to each other. -/
structure Supervises (s : AgentChildren) : Prop where
  child : ∀ uid pid, s.workers uid = some pid →
    ∃ exited, s.processes.lookup pid = some (.child (.supervisor uid) exited)
  tracked : ∀ uid pid exited, s.processes.lookup pid = some (.child (.supervisor uid) exited) →
    s.workers uid = some pid
  mapped : ∀ uid pid, s.pidToUid pid = some uid ↔ s.workers uid = some pid

variable {s s' : AgentChildren}

namespace Supervises

/-- The tables say the same when the workers are the same processes as before. -/
theorem congr (h : Supervises s) (hworkers : s'.workers = s.workers) (hpids : s'.pidToUid = s.pidToUid)
    (hchildren : ∀ uid pid, (∃ exited, s'.processes.lookup pid = some (.child (.supervisor uid) exited))
      ↔ ∃ exited, s.processes.lookup pid = some (.child (.supervisor uid) exited)) :
  Supervises s'
  := by
  constructor
  · intro uid pid hworker
    rw [hworkers] at hworker
    apply (hchildren uid pid).mpr (h.child uid pid hworker)
  · intro uid pid exited hlookup
    obtain ⟨exited', hlookup'⟩ := (hchildren uid pid).mp ⟨exited, hlookup⟩
    rw [hworkers]
    apply h.tracked uid pid exited' hlookup'
  · rw [hworkers, hpids]
    apply h.mapped

/-- A process that is no worker starts. -/
theorem insert (h : Supervises s) {pid : ℕ} {process : Process}
    (hfree : s.processes.lookup pid = none)
    (hprocess : ∀ uid exited, process ≠ .child (.supervisor uid) exited) {commands : List CommandRun} :
  Supervises { s with processes := s.processes.insert pid process, commands }
  := by
  apply h.congr
  · rfl
  · rfl
  intro uid pid'
  change (∃ exited, AList.lookup pid' (s.processes.insert pid process) = _) ↔ _
  by_cases hsame : pid' = pid
  · subst hsame
    rw [AList.lookup_insert, hfree]
    constructor
    · rintro ⟨exited, heq⟩
      apply absurd (Option.some.inj heq) (hprocess uid exited)
    · rintro ⟨exited, ⟨⟩⟩
  · rw [AList.lookup_insert_ne hsame]

/-- A process that is no worker is gone. -/
theorem erase (h : Supervises s) {pid : ℕ}
    (hprocess : ∀ uid exited, s.processes.lookup pid ≠ some (.child (.supervisor uid) exited)) :
  Supervises { s with processes := s.processes.erase pid }
  := by
  apply h.congr
  · rfl
  · rfl
  intro uid pid'
  change (∃ exited, AList.lookup pid' (s.processes.erase pid) = _) ↔ _
  by_cases hsame : pid' = pid
  · subst hsame
    rw [AList.lookup_erase]
    constructor
    · rintro ⟨exited, ⟨⟩⟩
    · rintro ⟨exited, heq⟩
      apply absurd heq (hprocess uid exited)
  · rw [AList.lookup_erase_ne hsame]

/-- A worker is spawned for a user that has none. -/
theorem spawnWorker (h : Supervises s) {uid pid : ℕ} (hfree : s.processes.lookup pid = none)
    (hnone : s.workers uid = none) :
  Supervises (s.spawnWorker uid pid)
  := by
  have hnew : ∀ uid', s.workers uid' ≠ some pid := by
    intro uid' hworker
    obtain ⟨exited, hlookup⟩ := h.child uid' pid hworker
    rw [hfree] at hlookup
    cases hlookup
  constructor
  · intro uid' pid' hworker
    change Function.update s.workers uid (some pid) uid' = _ at hworker
    change ∃ exited, AList.lookup pid' (s.processes.insert pid _) = _
    by_cases huid : uid' = uid
    · subst huid
      rw [Function.update_self, Option.some.injEq] at hworker
      subst hworker
      use none
      apply AList.lookup_insert
    · rw [Function.update_of_ne huid] at hworker
      have hpid : pid' ≠ pid := by
        rintro rfl
        apply hnew uid' hworker
      rw [AList.lookup_insert_ne hpid]
      apply h.child uid' pid' hworker
  · intro uid' pid' exited hlookup
    change AList.lookup pid' (s.processes.insert pid _) = _ at hlookup
    change Function.update s.workers uid (some pid) uid' = _
    by_cases hpid : pid' = pid
    · subst hpid
      rw [AList.lookup_insert] at hlookup
      cases hlookup
      apply Function.update_self
    · rw [AList.lookup_insert_ne hpid] at hlookup
      have hworker := h.tracked uid' pid' exited hlookup
      rw [Function.update_of_ne]
      · apply hworker
      · rintro rfl
        rw [hnone] at hworker
        cases hworker
  · intro uid' pid'
    change Function.update s.pidToUid pid (some uid) pid' = _
      ↔ Function.update s.workers uid (some pid) uid' = _
    by_cases hpid : pid' = pid
    · subst hpid
      rw [Function.update_self]
      by_cases huid : uid' = uid
      · subst huid
        simp
      · rw [Function.update_of_ne huid]
        simp [hnew uid', Ne.symm huid]
    · rw [Function.update_of_ne hpid, h.mapped uid' pid']
      by_cases huid : uid' = uid
      · subst huid
        simp [hnone, Ne.symm hpid]
      · rw [Function.update_of_ne huid]

/-- A child exits: a worker stays a worker. -/
theorem exited (h : Supervises s) {pid : ℕ} {spawner : Spawner} {status : ℤ}
    (hchild : s.processes.lookup pid = some (.child spawner none)) :
  Supervises (s.exited pid spawner status)
  := by
  apply h.congr
  · rfl
  · rfl
  intro uid pid'
  change (∃ exited, AList.lookup pid' (s.processes.insert pid _) = _) ↔ _
  by_cases hsame : pid' = pid
  · subst hsame
    rw [AList.lookup_insert, hchild]
    constructor
    · rintro ⟨exited, ⟨⟩⟩
      use none
    · rintro ⟨exited, ⟨⟩⟩
      use some status
  · rw [AList.lookup_insert_ne hsame]

/-- `reap` collects a child: a worker is dropped from both tables. -/
theorem collect (h : Supervises s) {pid : ℕ} {status : ℤ} (hstatus : s.status pid = some status) :
  Supervises (s.collect pid)
  := by
  obtain ⟨spawner, hlookup⟩ := status_eq_some.mp hstatus
  cases spawner with
  | runner i =>
      have hnone : s.pidToUid pid = none := by
        rw [Option.eq_none_iff_forall_ne_some]
        intro uid huid
        obtain ⟨exited, hworker⟩ := h.child uid pid ((h.mapped uid pid).mp huid)
        rw [hlookup] at hworker
        cases hworker
      rw [AgentChildren.collect, hnone]
      apply h.erase
      intro uid exited hworker
      rw [hlookup] at hworker
      cases hworker
  | supervisor uid =>
      have hworker := h.tracked uid pid (some status) hlookup
      rw [AgentChildren.collect, (h.mapped uid pid).mpr hworker]
      simp only [hworker, if_true]
      constructor
      · intro uid' pid' hworker'
        change Function.update s.workers uid none uid' = _ at hworker'
        change ∃ exited, AList.lookup pid' (s.processes.erase pid) = _
        have huid : uid' ≠ uid := by
          rintro rfl
          rw [Function.update_self] at hworker'
          cases hworker'
        rw [Function.update_of_ne huid] at hworker'
        obtain ⟨exited, hlookup'⟩ := h.child uid' pid' hworker'
        use exited
        rw [AList.lookup_erase_ne]
        · apply hlookup'
        · rintro rfl
          rw [hlookup] at hlookup'
          cases hlookup'
          apply huid rfl
      · intro uid' pid' exited hlookup'
        change AList.lookup pid' (s.processes.erase pid) = _ at hlookup'
        change Function.update s.workers uid none uid' = _
        have hpid : pid' ≠ pid := by
          rintro rfl
          rw [AList.lookup_erase] at hlookup'
          cases hlookup'
        rw [AList.lookup_erase_ne hpid] at hlookup'
        have hworker' := h.tracked uid' pid' exited hlookup'
        rw [Function.update_of_ne]
        · apply hworker'
        · rintro rfl
          rw [hworker, Option.some.injEq] at hworker'
          apply hpid hworker'.symm
      · intro uid' pid'
        change Function.update s.pidToUid pid none pid' = _ ↔ Function.update s.workers uid none uid' = _
        by_cases hpid : pid' = pid
        · subst hpid
          rw [Function.update_self]
          by_cases huid : uid' = uid
          · subst huid
            simp
          · rw [Function.update_of_ne huid, ← h.mapped uid' pid', (h.mapped uid pid').mpr hworker]
            simp [Ne.symm huid]
        · rw [Function.update_of_ne hpid, h.mapped uid' pid']
          by_cases huid : uid' = uid
          · subst huid
            simp [hworker, Ne.symm hpid]
          · rw [Function.update_of_ne huid]

/-- `reap` collects one child after the other. -/
theorem reap (h : Supervises s) {pids : List ℕ} (hstep : s.reap pids = some s') :
  Supervises s'
  := by
  induction pids generalizing s with
  | nil =>
      obtain ⟨-, hstep⟩ := Option.ite_none_right_eq_some.mp hstep
      cases hstep
      apply h
  | cons pid pids ih =>
      rw [AgentChildren.reap] at hstep
      obtain ⟨hstatus, hstep⟩ := Option.ite_none_left_eq_some.mp hstep
      obtain ⟨status, hstatus⟩ := Option.ne_none_iff_exists'.mp hstatus
      apply ih (h.collect hstatus) hstep

/-- The number of a worker in the tables is that of a process. -/
theorem any_processAlive (h : Supervises s) (uid : ℕ) :
  (s.workers uid).any s.processAlive = (s.workers uid).isSome
  := by
  cases hworker : s.workers uid with
  | none => rfl
  | some pid =>
      obtain ⟨exited, hlookup⟩ := h.child uid pid hworker
      rw [Option.any_some, processAlive, hlookup]
      rfl

/-- Every step but a wait of the child watcher keeps the tables together. -/
theorem step (h : Supervises s) {a : ChildLabel} (hwatcher : ∀ i, a ≠ .wait i)
    (hstep : machine.step s a = some s') :
  Supervises s'
  := by
  have hfree : ∀ pid, ¬ s.processAlive pid = true → s.processes.lookup pid = none := by
    intro pid halive
    rw [processAlive, Option.not_isSome_iff_eq_none] at halive
    apply halive
  simp only [machine] at hstep
  cases a with
  | ensure uid pid =>
      simp only [h.any_processAlive] at hstep
      split at hstep
      · cases hstep
        apply h
      · rename_i hnone
        obtain ⟨halive, hstep⟩ := Option.ite_none_left_eq_some.mp hstep
        cases hstep
        apply h.spawnWorker (hfree pid halive) (Option.not_isSome_iff_eq_none.mp hnone)
  | run pid =>
      obtain ⟨halive, hstep⟩ := Option.ite_none_left_eq_some.mp hstep
      cases hstep
      apply h.insert (hfree pid halive)
      rintro uid exited ⟨⟩
  | exit pid status =>
      simp only at hstep
      split at hstep
      · rename_i spawner hchild
        cases hstep
        apply h.exited hchild
      · cases hstep
  | reap pids => apply h.reap hstep
  | wait i => apply absurd rfl (hwatcher i)
  | otherStarts pid =>
      obtain ⟨halive, hstep⟩ := Option.ite_none_left_eq_some.mp hstep
      cases hstep
      apply h.insert (hfree pid halive)
      rintro uid exited ⟨⟩
  | otherExits pid =>
      simp only at hstep
      split at hstep
      · rename_i hother
        cases hstep
        apply h.erase
        intro uid exited hworker
        rw [hother] at hworker
        cases hworker
      · cases hstep

end Supervises

/-! ### What is said of the supervisor -/

/-- The tables have one worker for each user. -/
theorem Supervises.oneEach (h : Supervises s) :
  s.OneEach
  := by
  intro uid pid pid' hpid hpid'
  have hworker := h.tracked uid pid none hpid
  rw [h.tracked uid pid' none hpid', Option.some.injEq] at hworker
  apply hworker.symm

/-- `reap` collects no process that runs. -/
theorem Supervises.reapSpares (h : Supervises s) {a : ChildLabel} (hs' : Supervises s')
    (hstep : machine.step s a = some s') :
  ReapSpares s s' a
  := by
  rintro pids rfl uid pid spawner hworker hruns
  obtain ⟨exited, hlookup⟩ := h.child uid pid hworker
  rw [hlookup] at hruns
  cases hruns
  apply hs'.tracked uid pid none
  apply (reap_spares_iff hstep hlookup).mpr
  rw [status, hlookup]

/-- `ensure` returns the socket of a worker that runs exactly if there is no worker that exited. -/
theorem Supervises.ensureReturns_iff (h : Supervises s) {a : ChildLabel}
    (hstep : machine.step s a = some s') :
  EnsureReturns s' a ↔ s.EnsuresRunning a
  := by
  cases a with
  | ensure uid pid =>
      simp only [machine, h.any_processAlive] at hstep
      have hreturns : EnsureReturns s' (.ensure uid pid) ↔ ∃ worker, s'.workers uid = some worker
          ∧ s'.processes.lookup worker = some (.child (.supervisor uid) none) := by
        constructor
        · intro hreturns
          apply hreturns uid pid rfl
        · rintro hworker uid' pid' heq
          cases heq
          apply hworker
      rw [hreturns]
      change _ ↔ ∀ worker ∈ s.workers uid, s.status worker = none
      split at hstep
      · rename_i hsome
        cases hstep
        obtain ⟨worker, hworker⟩ := Option.isSome_iff_exists.mp hsome
        obtain ⟨exited, hlookup⟩ := h.child uid worker hworker
        simp only [hworker, Option.some.injEq, Option.mem_def, forall_eq', exists_eq_left', status,
          hlookup, Process.child.injEq, true_and]
      · rename_i hnone
        rw [Option.not_isSome_iff_eq_none] at hnone
        obtain ⟨-, hstep⟩ := Option.ite_none_left_eq_some.mp hstep
        cases hstep
        constructor
        · intro _ worker hworker
          rw [hnone] at hworker
          cases hworker
        · intro _
          use pid
          constructor
          · apply Function.update_self
          · apply AList.lookup_insert
  | _ =>
      constructor
      · intro _
        trivial
      · rintro _ uid pid ⟨⟩

/-- An `ensure` for a user whose worker exited takes a step. -/
theorem Supervises.exists_of_not_ensuresRunning (h : Supervises s) {a : ChildLabel}
    (hnot : ¬ s.EnsuresRunning a) :
  ∃ s', machine.step s a = some s'
  := by
  cases a with
  | ensure uid pid =>
      use s
      simp only [machine, h.any_processAlive]
      rw [if_pos]
      by_contra hnone
      rw [Option.not_isSome_iff_eq_none] at hnone
      apply hnot
      intro worker hworker
      rw [hnone] at hworker
      cases hworker
  | _ => apply absurd trivial hnot

/-- What is said of the supervisor holds of a step exactly if `ensure` meets no worker that exited. -/
theorem Supervises.supervised_iff (h : Supervises s) {a : ChildLabel} (hwatcher : ∀ i, a ≠ .wait i) :
  Supervised s a ↔ s.EnsuresRunning a
  := by
  constructor
  · intro hsupervised
    by_contra hnot
    obtain ⟨s', hstep⟩ := h.exists_of_not_ensuresRunning hnot
    apply hnot
    apply (h.ensureReturns_iff hstep).mp (hsupervised s' hstep).2.2.2
  · intro hruns s' hstep
    have hs' := h.step hwatcher hstep
    refine ⟨hs'.oneEach, ?_, h.reapSpares hs' hstep, (h.ensureReturns_iff hstep).mpr hruns⟩
    intro uid pid hworker
    apply (hs'.mapped uid pid).mpr hworker

/-- Before the first worker is spawned the tables are empty. -/
theorem supervises_start (others : List ℕ) :
  Supervises (start others)
  := by
  have hother : ∀ pid process, (start others).processes.lookup pid = some process → process = .other := by
    intro pid process hlookup
    induction others with
    | nil => cases hlookup
    | cons other others ih =>
        change AList.lookup pid (AList.insert other _ _) = _ at hlookup
        by_cases hsame : pid = other
        · subst hsame
          rw [AList.lookup_insert] at hlookup
          cases hlookup
          rfl
        · rw [AList.lookup_insert_ne hsame] at hlookup
          apply ih hlookup
  constructor
  · rintro uid pid ⟨⟩
  · intro uid pid exited hlookup
    cases hother pid _ hlookup
  · intro uid pid
    constructor
    · rintro ⟨⟩
    · rintro ⟨⟩

/-- In every run of calls of `ensure`, exits and runs of `reap`, in which processes of all kinds start and
get the numbers of those that were collected: no user has two workers that run, the tables agree, `reap`
drops no worker that runs, and `ensure` returns the socket of a worker that runs, if and only if `ensure`
is never called between the exit of the worker of its user and the next `reap`. -/
theorem supervised_iff_ensuresRunning (others : List ℕ) {labels : List ChildLabel}
    (hwatcher : ∀ i, .wait i ∉ labels) :
  machine.Along Supervised (start others) labels ↔ machine.Along EnsuresRunning (start others) labels
  := by
  have hwaits : machine.Along (fun _ a => ∀ i, a ≠ .wait i) (start others) labels := by
    apply machine.along_of_mem
    rintro a ha - i rfl
    apply hwatcher i ha
  have hkeeps : ∀ s a s', Supervises s → (∀ i, a ≠ .wait i) → machine.step s a = some s' →
      Supervises s' := fun s a s' hs hwait hstep => hs.step hwait hstep
  constructor
  · intro h
    apply Machine.along_of_invariant (I := Supervises) _ _ (supervises_start others)
      (machine.along_and hwaits h)
    · intro s a s' hs ha hstep
      apply hkeeps s a s' hs ha.1 hstep
    · intro s a hs ha
      apply (hs.supervised_iff ha.1).mp ha.2
  · intro h
    apply Machine.along_of_invariant (I := Supervises) _ _ (supervises_start others)
      (machine.along_and hwaits h)
    · intro s a s' hs ha hstep
      apply hkeeps s a s' hs ha.1 hstep
    · intro s a hs ha
      apply (hs.supervised_iff ha.1).mpr ha.2

/-- The worker of a user exits and is collected, and another process gets its number before the next worker
is spawned. -/
def respawned : List ChildLabel :=
  [.ensure 6001 500, .exit 500 0, .reap [500], .otherStarts 500, .ensure 6001 501]

theorem supervised_respawned :
  machine.Along Supervised (start []) respawned
  := by
  apply (supervised_iff_ensuresRunning [] (by simp [respawned])).mpr
  decide +kernel

/-- The worker of a user exits, and is asked for before the handler of `SIGCHLD` runs. -/
def askedBeforeReap : List ChildLabel :=
  [.ensure 6001 500, .exit 500 0, .ensure 6001 501]

/-- `ensure` returned the socket of a worker that exited. -/
theorem not_supervised_askedBeforeReap :
  ¬ ∀ (others : List ℕ) (labels : List ChildLabel), (∀ i, .wait i ∉ labels) →
    machine.Along Supervised (start others) labels
  := by
  intro h
  have hsupervised := machine.along_iff.mp (h [] askedBeforeReap (by simp [askedBeforeReap]))
    [.ensure 6001 500, .exit 500 0] (.ensure 6001 501) [] rfl
  have hrun : (machine.run (start []) [.ensure 6001 500, .exit 500 0]).any (fun s =>
      (machine.step s (.ensure 6001 501)).any fun s' => s'.workers 6001 = some 500
        && s'.processes.lookup 500 = some (.child (.supervisor 6001) (some 0))) = true := by
    decide +kernel
  obtain ⟨s, hs, hstep⟩ := (Option.any_eq_true _ _).mp hrun
  obtain ⟨s', hs', hexited⟩ := (Option.any_eq_true _ _).mp hstep
  rw [Bool.and_eq_true, decide_eq_true_eq, decide_eq_true_eq] at hexited
  obtain ⟨-, -, -, hreturns⟩ := hsupervised s hs s' hs'
  obtain ⟨worker, hworker, hruns⟩ := hreturns 6001 501 rfl
  rw [hexited.1, Option.some.injEq] at hworker
  subst hworker
  rw [hexited.2] at hruns
  cases hruns

end AgentChildren
