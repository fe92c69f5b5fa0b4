import Mathlib.Data.List.AList
import NasOs.Library.Machine

/-!
# The children of the agent

The agent starts the file workers, which its supervisor keeps track of, and the commands of its
runner.  The status of a child that exited can be collected once: by `reap`, which the agent runs on
`SIGCHLD` and which collects that of every child that exited, or by the child watcher of `asyncio`,
which waits for the process of a command and reports 255 when its status is gone.  The kernel is free
to reuse the number of a process whose status was collected.

Hence every command is reported with its own status, and `reap` collects only the statuses of file
workers, exactly in the runs in which `reap` never runs while the status of a command that exited is
still there.
-/

/-- Who started a child: the supervisor, for a user, or the runner, for a command. -/
inductive Spawner where
  | supervisor (uid : ℕ)
  | runner (command : ℕ)
  deriving DecidableEq

/-- A process: a child of the agent with its exit status, if it exited, or any other process. -/
inductive Process where
  | child (spawner : Spawner) (exited : Option ℤ)
  | other
  deriving DecidableEq

/-- A call of `SubprocessRunner.run`: the number of its process, the status with which the process
exited, and the status that was reported. -/
structure CommandRun where
  pid : ℕ
  ended : Option ℤ
  reported : Option ℤ
  deriving DecidableEq

/-- The processes of the system, the commands of the runner, and the tables of the
`FileWorkerSupervisor`: the worker of each user and the user of each worker. -/
structure AgentChildren where
  processes : AList fun _ : ℕ => Process
  commands : List CommandRun
  workers : ℕ → Option ℕ
  pidToUid : ℕ → Option ℕ

/-- What the agent, its children and the kernel do. -/
inductive ChildLabel where
  /-- `ensure`, with the number that the kernel gives to a process it spawns. -/
  | ensure (uid pid : ℕ)
  /-- The runner starts the process of a command. -/
  | run (pid : ℕ)
  /-- A child exits. -/
  | exit (pid : ℕ) (status : ℤ)
  /-- `reap`, with the children that `waitpid` returns. -/
  | reap (pids : List ℕ)
  /-- The child watcher waits for the process of a command. -/
  | wait (command : ℕ)
  /-- Some other process of the system starts or exits. -/
  | otherStarts (pid : ℕ)
  | otherExits (pid : ℕ)

/-- The status that `asyncio` reports when that of its child is gone. -/
def lostStatus : ℤ := 255

namespace AgentChildren

/-- No worker was spawned and no command was run; the processes are not children of the agent. -/
def start (others : List ℕ) : AgentChildren :=
  ⟨others.foldr (fun pid processes => processes.insert pid .other) ∅, [], fun _ => none,
    fun _ => none⟩

/-- `_process_alive`: the number is that of some process, which may be one that exited. -/
def processAlive (s : AgentChildren) (pid : ℕ) : Bool :=
  (s.processes.lookup pid).isSome

/-- The supervisor spawns a worker and keeps track of it. -/
def spawnWorker (s : AgentChildren) (uid pid : ℕ) : AgentChildren :=
  { s with
    processes := s.processes.insert pid (.child (.supervisor uid) none)
    workers := Function.update s.workers uid (some pid)
    pidToUid := Function.update s.pidToUid pid (some uid) }

/-- The runner starts the process of its next command. -/
def spawnCommand (s : AgentChildren) (pid : ℕ) : AgentChildren :=
  { s with
    processes := s.processes.insert pid (.child (.runner s.commands.length) none)
    commands := s.commands ++ [⟨pid, none, none⟩] }

/-- A child exits. -/
def exited (s : AgentChildren) (pid : ℕ) (spawner : Spawner) (status : ℤ) : AgentChildren :=
  { s with
    processes := s.processes.insert pid (.child spawner (some status))
    commands :=
      match spawner with
      | .supervisor _ => s.commands
      | .runner i => s.commands.modify i fun command => { command with ended := some status } }

/-- `reap` collects a child and drops it from its tables. -/
def collect (s : AgentChildren) (pid : ℕ) : AgentChildren :=
  match s.pidToUid pid with
  | none => { s with processes := s.processes.erase pid }
  | some uid =>
      { s with
        processes := s.processes.erase pid
        pidToUid := Function.update s.pidToUid pid none
        workers := if s.workers uid = some pid then Function.update s.workers uid none
          else s.workers }

/-- The exit status that `waitpid` finds. -/
def status (s : AgentChildren) (pid : ℕ) : Option ℤ :=
  match s.processes.lookup pid with
  | some (.child _ exited) => exited
  | _ => none

/-- No child exited whose status is still there. -/
def NoneExited (s : AgentChildren) : Prop :=
  ∀ pid ∈ s.processes.keys, s.status pid = none

instance (s : AgentChildren) : Decidable s.NoneExited :=
  inferInstanceAs (Decidable (∀ pid ∈ s.processes.keys, s.status pid = none))

/-- `reap`: the loop goes on until no child is left that exited. -/
def reap (s : AgentChildren) : List ℕ → Option AgentChildren
  | [] => if s.NoneExited then some s else none
  | pid :: pids => if s.status pid = none then none else (s.collect pid).reap pids

/-- The result of a command is reported. -/
def report (s : AgentChildren) (i : ℕ) (status : ℤ) : AgentChildren :=
  { s with commands := s.commands.modify i fun command => { command with reported := some status } }

/-- The child watcher waits for a process that exited.  It collects what has the number of the process
by then: the wait does not end if that is a child that runs, and fails if it is no child. -/
def wait (s : AgentChildren) (i pid : ℕ) : Option AgentChildren :=
  match s.processes.lookup pid with
  | some (.child _ (some status)) => some ({ s with processes := s.processes.erase pid }.report i status)
  | some (.child _ none) => none
  | _ => some (s.report i lostStatus)

/-- The machine of the agent and its children. -/
def machine : Machine AgentChildren ChildLabel where
  step s
    | .ensure uid pid =>
        if (s.workers uid).any s.processAlive then some s
        else if s.processAlive pid then none
        else some (s.spawnWorker uid pid)
    | .run pid => if s.processAlive pid then none else some (s.spawnCommand pid)
    | .exit pid status =>
        match s.processes.lookup pid with
        | some (.child spawner none) => some (s.exited pid spawner status)
        | _ => none
    | .reap pids => s.reap pids
    | .wait i =>
        match s.commands[i]? with
        | some ⟨pid, some _, none⟩ => s.wait i pid
        | _ => none
    | .otherStarts pid =>
        if s.processAlive pid then none
        else some { s with processes := s.processes.insert pid .other }
    | .otherExits pid =>
        match s.processes.lookup pid with
        | some .other => some { s with processes := s.processes.erase pid }
        | _ => none

/-- Every command that was reported was reported with its own status. -/
def Honest (s : AgentChildren) : Prop :=
  ∀ (i : ℕ) (command : CommandRun), s.commands[i]? = some command →
    ∀ status, command.reported = some status → command.ended = some status

/-- A step reports only own statuses, and if it is `reap` it leaves the children of the runner. -/
def ReportsOwn (s : AgentChildren) (a : ChildLabel) : Prop :=
  ∀ s', machine.step s a = some s' →
    s'.Honest ∧ ∀ pids, a = .reap pids → ∀ pid i exited,
      s.processes.lookup pid = some (.child (.runner i) exited) →
        s'.processes.lookup pid = some (.child (.runner i) exited)

/-- If `reap` runs, the status of every command that exited has been collected. -/
def ReapsLast (s : AgentChildren) (a : ChildLabel) : Prop :=
  ∀ s', machine.step s a = some s' → ∀ pids, a = .reap pids → ∀ pid i status,
    s.processes.lookup pid ≠ some (.child (.runner i) (some status))

variable {s s' : AgentChildren}

/-! ### What `reap` collects -/

@[simp]
theorem collect_processes (s : AgentChildren) (pid : ℕ) :
  (s.collect pid).processes = s.processes.erase pid
  := by
  rw [collect]
  split
  · rfl
  · rfl

@[simp]
theorem collect_commands (s : AgentChildren) (pid : ℕ) :
  (s.collect pid).commands = s.commands
  := by
  rw [collect]
  split
  · rfl
  · rfl

/-- A child that exited, by its number. -/
theorem status_eq_some {pid : ℕ} {code : ℤ} :
  s.status pid = some code ↔ ∃ spawner, s.processes.lookup pid = some (.child spawner (some code))
  := by
  rw [status]
  split
  · rename_i spawner exited heq
    constructor
    · rintro rfl
      exact ⟨spawner, heq⟩
    · rintro ⟨spawner', h⟩
      cases heq.symm.trans h
      rfl
  · rename_i hchild
    constructor
    · rintro ⟨⟩
    · rintro ⟨spawner, h⟩
      apply absurd h (hchild spawner (some code))

/-- A collected number is that of no process. -/
theorem status_collect_self (s : AgentChildren) (pid : ℕ) :
  (s.collect pid).status pid = none
  := by
  rw [status, collect_processes, AList.lookup_erase]

/-- The other processes stay. -/
theorem status_collect_of_ne {pid pid' : ℕ} (h : pid' ≠ pid) :
  (s.collect pid).status pid' = s.status pid'
  := by
  rw [status, status, collect_processes, AList.lookup_erase_ne h]

/-- `reap` collects the status of every child that exited, and no other. -/
theorem of_reap {pids : List ℕ} (h : s.reap pids = some s') :
  s'.commands = s.commands
    ∧ ∀ pid, s'.processes.lookup pid
      = if s.status pid = none then s.processes.lookup pid else none
  := by
  induction pids generalizing s with
  | nil =>
      obtain ⟨hnone, h⟩ := Option.ite_none_right_eq_some.mp h
      rw [Option.some.injEq] at h
      subst h
      use rfl
      intro pid
      by_cases hstatus : s.status pid = none
      · rw [if_pos hstatus]
      · obtain ⟨code, hcode⟩ := Option.ne_none_iff_exists'.mp hstatus
        obtain ⟨spawner, hlookup⟩ := status_eq_some.mp hcode
        apply absurd (hnone pid _) hstatus
        apply AList.mem_keys.mp
        by_contra hmem
        rw [AList.lookup_eq_none.mpr hmem] at hlookup
        cases hlookup
  | cons pid₀ pids ih =>
      rw [reap] at h
      obtain ⟨hstatus, h⟩ := Option.ite_none_left_eq_some.mp h
      obtain ⟨hcommands, hlookup⟩ := ih h
      rw [collect_commands] at hcommands
      use hcommands
      intro pid
      rw [hlookup pid]
      by_cases hsame : pid = pid₀
      · subst hsame
        rw [if_pos (status_collect_self s pid), if_neg hstatus, collect_processes, AList.lookup_erase]
      · rw [status_collect_of_ne hsame, collect_processes, AList.lookup_erase_ne hsame]

/-- The processes that have not exited are not touched by `reap`. -/
theorem reap_spares_iff {pids : List ℕ} (h : s.reap pids = some s') {pid : ℕ} {process : Process}
    (hlookup : s.processes.lookup pid = some process) :
  s'.processes.lookup pid = some process ↔ s.status pid = none
  := by
  rw [(of_reap h).2 pid]
  split
  · rename_i hstatus
    rw [hlookup]
    simp [hstatus]
  · rename_i hstatus
    simp [hstatus]

/-! ### The commands and their children -/

/-- The children of the runner are those of the commands that were not reported, and the reports are
the own statuses of the commands. -/
structure Tracked (s : AgentChildren) : Prop where
  children : ∀ pid i exited, s.processes.lookup pid = some (.child (.runner i) exited) →
    s.commands[i]? = some ⟨pid, exited, none⟩
  unreported : ∀ (i : ℕ) (command : CommandRun), s.commands[i]? = some command →
    command.reported = none →
      s.processes.lookup command.pid = some (.child (.runner i) command.ended)
  honest : s.Honest

/-- A new process that is not a child of the runner changes nothing for the commands. -/
theorem Tracked.insert (h : Tracked s) {pid : ℕ} {process : Process}
    (hfree : s.processes.lookup pid = none) (hprocess : ∀ i exited, process ≠ .child (.runner i) exited)
    {workers pidToUid : ℕ → Option ℕ} :
  Tracked ⟨s.processes.insert pid process, s.commands, workers, pidToUid⟩
  := by
  constructor
  · intro pid' i exited hlookup
    change AList.lookup pid' (s.processes.insert pid process) = _ at hlookup
    by_cases hsame : pid' = pid
    · subst hsame
      rw [AList.lookup_insert, Option.some.injEq] at hlookup
      apply absurd hlookup (hprocess i exited)
    · rw [AList.lookup_insert_ne hsame] at hlookup
      apply h.children pid' i exited hlookup
  · intro i command hcommand hreported
    have hlookup := h.unreported i command hcommand hreported
    change AList.lookup command.pid (s.processes.insert pid process) = _
    rw [AList.lookup_insert_ne]
    · apply hlookup
    · intro hsame
      rw [hsame, hfree] at hlookup
      cases hlookup
  · apply h.honest

/-- The runner starts a command. -/
theorem Tracked.spawnCommand (h : Tracked s) {pid : ℕ} (hfree : s.processes.lookup pid = none) :
  Tracked (s.spawnCommand pid)
  := by
  have hold : ∀ (i : ℕ) (command : CommandRun), (s.commands ++ [⟨pid, none, none⟩])[i]? = some command →
      s.commands[i]? = some command ∨ i = s.commands.length ∧ command = ⟨pid, none, none⟩ := by
    intro i command hcommand
    rw [List.getElem?_append] at hcommand
    split at hcommand
    · left
      apply hcommand
    · right
      rw [List.getElem?_singleton] at hcommand
      obtain ⟨hi, hcommand⟩ := Option.ite_none_right_eq_some.mp hcommand
      cases hcommand
      constructor
      · omega
      · rfl
  constructor
  · intro pid' i exited hlookup
    change AList.lookup pid' (s.processes.insert pid _) = _ at hlookup
    change (s.commands ++ [⟨pid, none, none⟩])[i]? = _
    by_cases hsame : pid' = pid
    · subst hsame
      rw [AList.lookup_insert] at hlookup
      cases hlookup
      simp
    · rw [AList.lookup_insert_ne hsame] at hlookup
      have hcommand := h.children pid' i exited hlookup
      obtain ⟨hi, -⟩ := List.getElem?_eq_some_iff.mp hcommand
      rw [List.getElem?_append_left hi]
      apply hcommand
  · intro i command hcommand hreported
    change AList.lookup command.pid (s.processes.insert pid _) = _
    rcases hold i command hcommand with hcommand | ⟨rfl, rfl⟩
    · have hlookup := h.unreported i command hcommand hreported
      rw [AList.lookup_insert_ne]
      · apply hlookup
      · intro hsame
        rw [hsame, hfree] at hlookup
        cases hlookup
    · rw [AList.lookup_insert]
  · intro i command hcommand status hreported
    rcases hold i command hcommand with hcommand | ⟨rfl, rfl⟩
    · apply h.honest i command hcommand status hreported
    · cases hreported

/-- Changing a command leaves the others. -/
theorem getElem?_modify_of_ne {commands : List CommandRun} {i j : ℕ} (h : i ≠ j)
    (f : CommandRun → CommandRun) :
  (commands.modify i f)[j]? = commands[j]?
  := by
  rw [List.getElem?_modify]
  simp [h]

/-- Changing a command. -/
theorem getElem?_modify_self {commands : List CommandRun} {i : ℕ} {command : CommandRun}
    (h : commands[i]? = some command) (f : CommandRun → CommandRun) :
  (commands.modify i f)[i]? = some (f command)
  := by
  rw [List.getElem?_modify, h]
  simp

/-- A child exits. -/
theorem Tracked.exited (h : Tracked s) {pid : ℕ} {spawner : Spawner} {status : ℤ}
    (hchild : s.processes.lookup pid = some (.child spawner none)) :
  Tracked (s.exited pid spawner status)
  := by
  cases spawner with
  | supervisor uid =>
      constructor
      · intro pid' i exited hlookup
        change AList.lookup pid' (s.processes.insert pid _) = _ at hlookup
        by_cases hsame : pid' = pid
        · subst hsame
          rw [AList.lookup_insert] at hlookup
          cases hlookup
        · rw [AList.lookup_insert_ne hsame] at hlookup
          apply h.children pid' i exited hlookup
      · intro i command hcommand hreported
        have hlookup := h.unreported i command hcommand hreported
        change AList.lookup command.pid (s.processes.insert pid _) = _
        rw [AList.lookup_insert_ne]
        · apply hlookup
        · intro hsame
          rw [hsame, hchild] at hlookup
          cases hlookup
      · apply h.honest
  | runner i =>
      have hown := h.children pid i none hchild
      have hmodified := getElem?_modify_self hown fun command => { command with ended := some status }
      constructor
      · intro pid' j exited hlookup
        change AList.lookup pid' (s.processes.insert pid _) = _ at hlookup
        change (s.commands.modify i _)[j]? = _
        by_cases hsame : pid' = pid
        · subst hsame
          rw [AList.lookup_insert] at hlookup
          cases hlookup
          apply hmodified
        · rw [AList.lookup_insert_ne hsame] at hlookup
          have hcommand := h.children pid' j exited hlookup
          rw [getElem?_modify_of_ne]
          · apply hcommand
          · rintro rfl
            cases hown.symm.trans hcommand
            apply hsame rfl
      · intro j command hcommand hreported
        change (s.commands.modify i _)[j]? = _ at hcommand
        change AList.lookup command.pid (s.processes.insert pid _) = _
        by_cases hsame : i = j
        · subst hsame
          cases hmodified.symm.trans hcommand
          rw [AList.lookup_insert]
        · rw [getElem?_modify_of_ne hsame] at hcommand
          have hlookup := h.unreported j command hcommand hreported
          rw [AList.lookup_insert_ne]
          · apply hlookup
          · intro hpid
            rw [hpid, hchild, Option.some.injEq, Process.child.injEq, Spawner.runner.injEq] at hlookup
            apply hsame hlookup.1
      · intro j command hcommand code hreported
        change (s.commands.modify i _)[j]? = _ at hcommand
        by_cases hsame : i = j
        · subst hsame
          cases hmodified.symm.trans hcommand
          cases hreported
        · rw [getElem?_modify_of_ne hsame] at hcommand
          apply h.honest j command hcommand code hreported

/-- The child watcher collects the status of its own process. -/
theorem Tracked.wait (h : Tracked s) {i pid : ℕ} {status : ℤ}
    (hcommand : s.commands[i]? = some ⟨pid, some status, none⟩) (hstep : s.wait i pid = some s') :
  Tracked s'
  := by
  have hown := h.unreported i _ hcommand rfl
  have hmodified := getElem?_modify_self hcommand fun command =>
    { command with reported := some status }
  simp only [AgentChildren.wait, hown, Option.some.injEq] at hstep
  subst hstep
  constructor
  · intro pid' j exited hlookup
    change AList.lookup pid' (s.processes.erase pid) = _ at hlookup
    change (s.commands.modify i _)[j]? = _
    have hsame : pid' ≠ pid := by
      rintro rfl
      rw [AList.lookup_erase] at hlookup
      cases hlookup
    rw [AList.lookup_erase_ne hsame] at hlookup
    have hother := h.children pid' j exited hlookup
    rw [getElem?_modify_of_ne]
    · apply hother
    · rintro rfl
      cases hcommand.symm.trans hother
      apply hsame rfl
  · intro j command hother hreported
    change (s.commands.modify i _)[j]? = _ at hother
    change AList.lookup command.pid (s.processes.erase pid) = _
    by_cases hsame : i = j
    · subst hsame
      cases hmodified.symm.trans hother
      cases hreported
    · rw [getElem?_modify_of_ne hsame] at hother
      have hlookup := h.unreported j command hother hreported
      rw [AList.lookup_erase_ne]
      · apply hlookup
      · intro hpid
        rw [hpid, hown, Option.some.injEq, Process.child.injEq, Spawner.runner.injEq] at hlookup
        apply hsame hlookup.1
  · intro j command hother code hreported
    change (s.commands.modify i _)[j]? = _ at hother
    by_cases hsame : i = j
    · subst hsame
      cases hmodified.symm.trans hother
      apply hreported
    · rw [getElem?_modify_of_ne hsame] at hother
      apply h.honest j command hother code hreported

/-- `reap` leaves the children of the runner if none of them exited. -/
theorem Tracked.reap (h : Tracked s) {pids : List ℕ} (hstep : s.reap pids = some s')
    (hlast : ∀ pid i status, s.processes.lookup pid ≠ some (.child (.runner i) (some status))) :
  Tracked s'
  := by
  obtain ⟨hcommands, hlookups⟩ := of_reap hstep
  constructor
  · intro pid i exited hlookup
    rw [hlookups pid] at hlookup
    rw [hcommands]
    split at hlookup
    · apply h.children pid i exited hlookup
    · cases hlookup
  · intro i command hcommand hreported
    rw [hcommands] at hcommand
    have hlookup := h.unreported i command hcommand hreported
    rw [reap_spares_iff hstep hlookup, status, hlookup]
    cases hended : command.ended with
    | none => rfl
    | some status =>
        rw [hended] at hlookup
        apply absurd hlookup (hlast command.pid i status)
  · intro i command hcommand
    rw [hcommands] at hcommand
    apply h.honest i command hcommand

/-- Another process exits. -/
theorem Tracked.otherExits (h : Tracked s) {pid : ℕ}
    (hother : s.processes.lookup pid = some .other) :
  Tracked { s with processes := s.processes.erase pid }
  := by
  constructor
  · intro pid' i exited hlookup
    change AList.lookup pid' (s.processes.erase pid) = _ at hlookup
    have hsame : pid' ≠ pid := by
      rintro rfl
      rw [AList.lookup_erase] at hlookup
      cases hlookup
    rw [AList.lookup_erase_ne hsame] at hlookup
    apply h.children pid' i exited hlookup
  · intro i command hcommand hreported
    have hlookup := h.unreported i command hcommand hreported
    change AList.lookup command.pid (s.processes.erase pid) = _
    rw [AList.lookup_erase_ne]
    · apply hlookup
    · intro hsame
      rw [hsame, hother] at hlookup
      cases hlookup
  · apply h.honest

/-- Every step in which `reap` comes last keeps the commands and their children together. -/
theorem Tracked.step (h : Tracked s) {a : ChildLabel} (hlast : ReapsLast s a)
    (hstep : machine.step s a = some s') :
  Tracked s'
  := by
  have hfree : ∀ pid, ¬ s.processAlive pid = true → s.processes.lookup pid = none := by
    intro pid halive
    rw [processAlive, Option.not_isSome_iff_eq_none] at halive
    apply halive
  have hreaps := hlast s' hstep
  simp only [machine] at hstep
  cases a with
  | ensure uid pid =>
      simp only at hstep
      split at hstep
      · cases hstep
        apply h
      · obtain ⟨halive, hstep⟩ := Option.ite_none_left_eq_some.mp hstep
        cases hstep
        apply h.insert (hfree pid halive)
        rintro i exited ⟨⟩
  | run pid =>
      obtain ⟨halive, hstep⟩ := Option.ite_none_left_eq_some.mp hstep
      cases hstep
      apply h.spawnCommand (hfree pid halive)
  | exit pid status =>
      simp only at hstep
      split at hstep
      · rename_i spawner hchild
        cases hstep
        apply h.exited hchild
      · cases hstep
  | reap pids => apply h.reap hstep (hreaps pids rfl)
  | wait i =>
      simp only at hstep
      split at hstep
      · rename_i pid status hcommand
        apply h.wait hcommand hstep
      · cases hstep
  | otherStarts pid =>
      obtain ⟨halive, hstep⟩ := Option.ite_none_left_eq_some.mp hstep
      cases hstep
      apply h.insert (hfree pid halive)
      rintro i exited ⟨⟩
  | otherExits pid =>
      simp only at hstep
      split at hstep
      · rename_i hother
        cases hstep
        apply h.otherExits hother
      · cases hstep

/-- Before the agent has children, its commands and their children are together. -/
theorem tracked_start (others : List ℕ) :
  Tracked (start others)
  := by
  induction others with
  | nil =>
      constructor
      · rintro pid i exited ⟨⟩
      · rintro i command ⟨⟩
      · rintro i command ⟨⟩
  | cons pid others ih =>
      constructor
      · intro pid' i exited hlookup
        change AList.lookup pid' (AList.insert pid _ _) = _ at hlookup
        by_cases hsame : pid' = pid
        · subst hsame
          rw [AList.lookup_insert] at hlookup
          cases hlookup
        · rw [AList.lookup_insert_ne hsame] at hlookup
          apply ih.children pid' i exited hlookup
      · rintro i command ⟨⟩
      · rintro i command ⟨⟩

/-! ### When every command is reported with its own status -/

/-- A `reap` that leaves the children of the runner comes after the waits for those that exited. -/
theorem ReportsOwn.reapsLast {a : ChildLabel} (h : ReportsOwn s a) :
  ReapsLast s a
  := by
  rintro s' hstep pids rfl pid i status hlookup
  have hspared := (h s' hstep).2 pids rfl pid i (some status) hlookup
  rw [reap_spares_iff hstep hlookup] at hspared
  have hstatus : s.status pid = some status := status_eq_some.mpr ⟨_, hlookup⟩
  cases hstatus.symm.trans hspared

/-- A `reap` after the waits reports nothing and leaves the children of the runner. -/
theorem Tracked.reportsOwn (h : Tracked s) {a : ChildLabel} (hlast : ReapsLast s a) :
  ReportsOwn s a
  := by
  intro s' hstep
  use (h.step hlast hstep).honest
  rintro pids rfl pid i exited hlookup
  rw [reap_spares_iff hstep hlookup, status, hlookup]
  cases exited with
  | none => rfl
  | some status => apply absurd hlookup (hlast s' hstep pids rfl pid i status)

/-- In every run of the agent and its children, each command is reported with its own status and
`reap` leaves the children of the runner, if and only if `reap` never runs while the status of a
command that exited has not been collected. -/
theorem reports_own_iff (others : List ℕ) (labels : List ChildLabel) :
  machine.Along ReportsOwn (start others) labels ↔ machine.Along ReapsLast (start others) labels
  := by
  constructor
  · intro h
    apply Machine.along_of_invariant (I := fun _ => True) (fun _ _ _ _ _ _ => trivial) _ trivial h
    intro s a _ hown
    apply hown.reapsLast
  · intro h
    apply Machine.along_of_invariant (I := Tracked) _ _ (tracked_start others) h
    · intro s a s' hs hlast hstep
      apply hs.step hlast hstep
    · intro s a hs hlast
      apply hs.reportsOwn hlast

/-- A command succeeds, and the handler of `SIGCHLD` runs before the child watcher. -/
def stolenStatus : List ChildLabel :=
  [.run 100, .exit 100 0, .reap [100], .wait 0]

/-- A command that succeeded is reported with the status 255, after `reap` collected its own. -/
theorem reports_lost :
  (machine.run (start []) stolenStatus).map commands = some [⟨100, some 0, some 255⟩]
    ∧ ¬ machine.Along ReportsOwn (start []) stolenStatus
  := by
  have hrun : (machine.run (start []) stolenStatus).map commands = some [⟨100, some 0, some 255⟩] := by
    decide +kernel
  use hrun
  intro h
  obtain ⟨t, ht, hcommands⟩ := Option.map_eq_some_iff.mp hrun
  have hhonest : t.Honest := by
    apply Machine.run_invariant (I := Honest) _ _ h ht
    · intro s a s' _ hown hstep
      apply (hown s' hstep).1
    · apply (tracked_start []).honest
  have hzero := hhonest 0 ⟨100, some 0, some 255⟩ (by rw [hcommands]; rfl) 255 rfl
  cases hzero

end AgentChildren
