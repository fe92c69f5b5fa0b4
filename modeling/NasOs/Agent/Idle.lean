import Mathlib.Data.List.Induction
import NasOs.Agent.Jobs
import NasOs.Uploads.Conflicts

/-!
# The idle watch of a file worker

A file worker serves its connections, each one line at a time, runs its jobs, and keeps the handles
of its uploads.  Its idle watch looks every 30 seconds how long ago the last line was read, on any
connection, and closes the server after 15 minutes of silence.  Jobs and uploads outlive the lines
that began them, and the watch asks for neither.

Hence the watch closes a server that is at rest exactly when each tick that finds a job or an upload
comes within 15 minutes of a line.  Time is counted in nanoseconds.
-/

/-- A request of the connection loop, as far as it concerns uploads, jobs, and waiting. -/
inductive FilesRequest where
  /-- One of the `files.upload_*` handlers. -/
  | uploadBegin (destPath uploadId : String)
  | uploadOffset (uploadId : String)
  | uploadComplete (uploadId : String)
  | uploadAbort (uploadId : String)
  /-- One of the handlers that submit a job. -/
  | delete
  | copy
  | move
  | zip
  /-- `files.set_acl`, which submits a job if it is recursive. -/
  | setAcl (recursive : Bool)
  /-- `files.get_acl`, which runs a command. -/
  | getAcl
  /-- Any other request, which is answered at once. -/
  | other

/-- A line that the connection loop reads. -/
inductive Line where
  /-- A line that is not JSON, or neither a request nor an operation: it is dropped. -/
  | dropped
  | request (request : FilesRequest)
  /-- The operation `upload_chunk`; a binary frame follows. -/
  | uploadChunk (uploadId : String) (offset : ℤ)
  /-- The operation `download_range`. -/
  | downloadRange

/-- What a connection is doing. -/
inductive Serving where
  /-- It waits for a line. -/
  | nothing
  /-- It waits for the binary frame of a chunk. -/
  | chunk (uploadId : String) (offset : ℤ)
  /-- It has not answered the last line. -/
  | answer
  deriving DecidableEq

/-- A file worker: its files and uploads, its jobs, its connections, the clock, `last_activity` of its
idle tracker, the time until which the watch sleeps, and whether the watch closed the server. -/
structure Fileworker where
  worker : Worker
  runner : JobRunner
  serving : ℕ → Serving
  now : ℕ
  lastActivity : ℕ
  wake : ℕ
  closed : Bool

/-- What happens in a file worker and around it. -/
inductive WorkerLabel where
  /-- Time passes. -/
  | elapse (duration : ℕ)
  /-- A line is read from a connection; the system refuses some operations and other processes change
  files while it is handled. -/
  | line (connection : ℕ) (line : Line) (refuses : FileOp → Option Refusal)
      (meanwhile : List FileChange)
  /-- The binary frame of a chunk is read from a connection. -/
  | binary (connection : ℕ) (data : List UInt8) (refuses : FileOp → Option Refusal)
      (meanwhile : List FileChange)
  /-- A line that was not answered at once is answered. -/
  | answered (connection : ℕ)
  /-- A job takes a step. -/
  | job (step : JobRunner.Step)
  /-- A job or another process changes a file. -/
  | change (change : FileChange)
  /-- The watch wakes up. -/
  | tick

namespace Fileworker

/-- A second. -/
def second : ℕ := 1000000000

/-- `IDLE_TIMEOUT_SECONDS`. -/
def idleTimeout : ℕ := 15 * 60 * second

/-- `IDLE_CHECK_INTERVAL_SECONDS`. -/
def idleCheckInterval : ℕ := 30 * second

/-- A worker that was just started. -/
def start (uid : ℕ) (files : String → Option FileNode) (now : ℕ) : Fileworker :=
  ⟨.started uid files, .empty, fun _ => .nothing, now, now, now + idleCheckInterval, false⟩

/-- Run one of the calls for an upload. -/
def upload (s : Fileworker) (call : UploadCall) (refuses : FileOp → Option Refusal)
    (meanwhile : List FileChange) : Fileworker :=
  { s with worker := (s.worker.serve call refuses meanwhile).2 }

/-- Submit a job; no handler of the worker names a resource. -/
def submit (s : Fileworker) (kind : String) : Fileworker :=
  { s with runner := s.runner.submit kind none }

/-- A connection goes on with something else. -/
def serve (s : Fileworker) (connection : ℕ) (serving : Serving) : Fileworker :=
  { s with serving := Function.update s.serving connection serving }

/-- The handlers of the requests. -/
def request (s : Fileworker) (connection : ℕ) (refuses : FileOp → Option Refusal)
    (meanwhile : List FileChange) : FilesRequest → Fileworker
  | .uploadBegin destPath uploadId => s.upload (.begin destPath uploadId) refuses meanwhile
  | .uploadOffset uploadId => s.upload (.offset uploadId) refuses meanwhile
  | .uploadComplete uploadId => s.upload (.complete uploadId) refuses meanwhile
  | .uploadAbort uploadId => s.upload (.abort uploadId) refuses meanwhile
  | .delete => s.submit "files.delete"
  | .copy => s.submit "files.copy"
  | .move => s.submit "files.move"
  | .zip => s.submit "files.zip"
  | .setAcl true => s.submit "files.set_acl"
  | .setAcl false => s.serve connection .answer
  | .getAcl => s.serve connection .answer
  | .other => s

/-- `touch`. -/
def touch (s : Fileworker) : Fileworker :=
  { s with lastActivity := s.now }

/-- What the connection loop does with a line. -/
def readLine (s : Fileworker) (connection : ℕ) (refuses : FileOp → Option Refusal)
    (meanwhile : List FileChange) : Line → Fileworker
  | .dropped => s.touch
  | .request request => s.touch.request connection refuses meanwhile request
  | .uploadChunk uploadId offset => s.touch.serve connection (.chunk uploadId offset)
  | .downloadRange => s.touch.serve connection .answer

/-- `watch`, when it wakes up. -/
def watch (s : Fileworker) : Fileworker :=
  if s.lastActivity + idleTimeout ≤ s.now then { s with closed := true }
  else { s with wake := s.now + idleCheckInterval }

/-- A step of a worker whose server is open. -/
def openStep (s : Fileworker) : WorkerLabel → Option Fileworker
  | .elapse duration => some { s with now := s.now + duration }
  | .line connection line refuses meanwhile =>
      if s.serving connection = .nothing then
        some (s.readLine connection refuses meanwhile line)
      else none
  | .binary connection data refuses meanwhile =>
      match s.serving connection with
      | .chunk uploadId offset =>
          some ((s.upload (.chunk uploadId offset data) refuses meanwhile).serve connection .nothing)
      | _ => none
  | .answered connection =>
      if s.serving connection = .answer then some (s.serve connection .nothing) else none
  | .job step => (s.runner.step step).map fun runner => { s with runner }
  | .change change => some { s with worker := s.worker.setFile change.path change.node }
  | .tick => if s.wake ≤ s.now then some s.watch else none

/-- The machine of a file worker, until its server is closed. -/
def machine : Machine Fileworker WorkerLabel where
  step s a := if s.closed then none else s.openStep a

/-- A job is queued or running, or an upload is open. -/
def Working (s : Fileworker) : Prop :=
  s.runner.Busy ∨ ∃ uploadId, s.worker.uploads uploadId ≠ none

/-- The step does not close the server of a worker that has work. -/
def ClosesAtRest (s : Fileworker) (a : WorkerLabel) : Prop :=
  ∀ s', machine.step s a = some s' → s'.closed = true → ¬ s'.Working

end Fileworker

/-- How long ago a line was read, or the worker was started, after the labels. -/
def silence (labels : List WorkerLabel) : ℕ :=
  labels.foldl
    (fun time label =>
      match label with
      | .elapse duration => time + duration
      | .line _ _ _ _ => 0
      | _ => time)
    0

/-- The silence grows with the time, and a line ends it. -/
theorem silence_append (labels : List WorkerLabel) (label : WorkerLabel) :
  silence (labels ++ [label])
    = match label with
      | .elapse duration => silence labels + duration
      | .line _ _ _ _ => 0
      | _ => silence labels
  := by
  rw [silence, List.foldl_append]
  rfl

namespace Fileworker

variable {s s' : Fileworker}

/-- A step is one of a worker whose server is open. -/
theorem step_eq_some {a : WorkerLabel} :
  machine.step s a = some s' ↔ s.closed = false ∧ s.openStep a = some s'
  := by
  change (if s.closed = true then none else s.openStep a) = some s' ↔ _
  rw [Option.ite_none_left_eq_some, Bool.not_eq_true]

/-- A line sets the time of the last activity; what else it does leaves the watch alone. -/
theorem watched_readLine (s : Fileworker) (connection : ℕ) (refuses : FileOp → Option Refusal)
    (meanwhile : List FileChange) (line : Line) :
  (s.readLine connection refuses meanwhile line).lastActivity = s.now
    ∧ (s.readLine connection refuses meanwhile line).now = s.now
    ∧ (s.readLine connection refuses meanwhile line).closed = s.closed
  := by
  cases line with
  | request request =>
      cases request with
      | setAcl recursive =>
          cases recursive with
          | false => exact ⟨rfl, rfl, rfl⟩
          | true => exact ⟨rfl, rfl, rfl⟩
      | _ => exact ⟨rfl, rfl, rfl⟩
  | _ => exact ⟨rfl, rfl, rfl⟩

/-- What a step does to the clock and to the last activity. -/
inductive Clocked (s s' : Fileworker) : WorkerLabel → Prop where
  | elapse (duration : ℕ) (hnow : s'.now = s.now + duration)
      (hlast : s'.lastActivity = s.lastActivity) : Clocked s s' (.elapse duration)
  | line (connection : ℕ) (line : Line) (refuses : FileOp → Option Refusal)
      (meanwhile : List FileChange) (hnow : s'.now = s.now) (hlast : s'.lastActivity = s.now) :
      Clocked s s' (.line connection line refuses meanwhile)
  | other {a : WorkerLabel} (helapse : ∀ duration, a ≠ .elapse duration)
      (hline : ∀ connection line refuses meanwhile, a ≠ .line connection line refuses meanwhile)
      (hnow : s'.now = s.now) (hlast : s'.lastActivity = s.lastActivity) : Clocked s s' a

/-- Every step does so. -/
theorem clocked_of_step {a : WorkerLabel} (h : machine.step s a = some s') :
  Clocked s s' a
  := by
  obtain ⟨-, h⟩ := step_eq_some.mp h
  cases a with
  | elapse duration =>
      cases h
      exact Clocked.elapse _ rfl rfl
  | line connection line refuses meanwhile =>
      obtain ⟨-, h⟩ := Option.ite_none_right_eq_some.mp h
      cases h
      obtain ⟨hlast, hnow, -⟩ := watched_readLine s connection refuses meanwhile line
      exact Clocked.line _ _ _ _ hnow hlast
  | binary connection data refuses meanwhile =>
      simp only [openStep] at h
      split at h
      · cases h
        exact Clocked.other (by simp) (by simp) rfl rfl
      · cases h
  | answered connection =>
      obtain ⟨-, h⟩ := Option.ite_none_right_eq_some.mp h
      cases h
      exact Clocked.other (by simp) (by simp) rfl rfl
  | job step =>
      obtain ⟨runner, -, rfl⟩ := Option.map_eq_some_iff.mp h
      exact Clocked.other (by simp) (by simp) rfl rfl
  | change change =>
      cases h
      exact Clocked.other (by simp) (by simp) rfl rfl
  | tick =>
      obtain ⟨-, h⟩ := Option.ite_none_right_eq_some.mp h
      cases h
      rw [watch]
      split
      · exact Clocked.other (by simp) (by simp) rfl rfl
      · exact Clocked.other (by simp) (by simp) rfl rfl

/-- The last activity is as long ago as the labels of a run say. -/
theorem now_of_run {uid now : ℕ} {files : String → Option FileNode} {labels : List WorkerLabel}
    (hrun : machine.run (start uid files now) labels = some s) :
  s.now = s.lastActivity + silence labels
  := by
  induction labels using List.reverseRec generalizing s with
  | nil =>
      cases hrun
      rfl
  | append_singleton labels label ih =>
      rw [machine.run_append] at hrun
      obtain ⟨s₁, hrun, hlast⟩ := Option.bind_eq_some_iff.mp hrun
      obtain ⟨s₂, hstep, hnil⟩ := machine.run_cons_eq_some.mp hlast
      cases hnil
      have hs₁ := ih hrun
      rw [silence_append]
      cases clocked_of_step hstep with
      | elapse duration hclock hactive => rw [hclock, hactive, hs₁, Nat.add_assoc]
      | line connection line refuses meanwhile hclock hactive =>
          rw [hclock, hactive]
          rfl
      | other helapse hline hclock hactive =>
          rw [hclock, hactive, hs₁]
          cases label with
          | elapse duration => apply absurd rfl (helapse duration)
          | line connection line refuses meanwhile => apply absurd rfl (hline _ _ _ _)
          | _ => rfl

/-! ### When the watch closes a server at rest -/

/-- Only a tick closes the server, after a silence of 15 minutes, and it changes nothing else. -/
theorem closed_iff {a : WorkerLabel} (h : machine.step s a = some s') :
  s'.closed = true ↔ a = .tick ∧ s.lastActivity + idleTimeout ≤ s.now
  := by
  obtain ⟨hopen, h⟩ := step_eq_some.mp h
  cases a with
  | line connection line refuses meanwhile =>
      obtain ⟨-, h⟩ := Option.ite_none_right_eq_some.mp h
      cases h
      obtain ⟨-, -, hclosed⟩ := watched_readLine s connection refuses meanwhile line
      simp [hclosed, hopen]
  | binary connection data refuses meanwhile =>
      simp only [openStep] at h
      split at h
      · cases h
        simp [serve, upload, hopen]
      · cases h
  | answered connection =>
      obtain ⟨-, h⟩ := Option.ite_none_right_eq_some.mp h
      cases h
      simp [serve, hopen]
  | job step =>
      obtain ⟨runner, -, rfl⟩ := Option.map_eq_some_iff.mp h
      simp [hopen]
  | tick =>
      obtain ⟨-, h⟩ := Option.ite_none_right_eq_some.mp h
      cases h
      rw [watch]
      split
      · rename_i hidle
        simp [hidle]
      · rename_i hidle
        simp [hopen, hidle]
  | _ =>
      cases h
      simp [hopen]

/-- A tick leaves the work alone. -/
theorem working_of_tick (h : machine.step s .tick = some s') :
  s'.Working ↔ s.Working
  := by
  obtain ⟨-, h⟩ := step_eq_some.mp h
  obtain ⟨-, h⟩ := Option.ite_none_right_eq_some.mp h
  cases h
  rw [watch]
  split
  · rfl
  · rfl

/-- The watch wakes up while the server is open. -/
theorem step_tick (hopen : s.closed = false) (hwake : s.wake ≤ s.now) :
  machine.step s .tick = some s.watch
  := by
  rw [step_eq_some]
  constructor
  · apply hopen
  · apply if_pos hwake

/-- In every run of a worker, the watch closes no server with a job that is queued or running, or with
an open upload, if and only if each tick that finds a job or an upload comes within 15 minutes of a
line. -/
theorem closes_at_rest_iff (uid now : ℕ) (files : String → Option FileNode)
    (labels : List WorkerLabel) :
  machine.Along ClosesAtRest (start uid files now) labels
    ↔ ∀ before after, labels = before ++ .tick :: after →
        ∀ s, machine.run (start uid files now) before = some s →
          s.closed = false → s.wake ≤ s.now → s.Working → silence before < idleTimeout
  := by
  rw [Machine.along_iff]
  constructor
  · intro h before after hlabels s hrun hopen hwake hworking
    have hstep := step_tick hopen hwake
    by_contra hsilence
    apply h before .tick after hlabels s hrun s.watch hstep
    · rw [closed_iff hstep, now_of_run hrun]
      constructor
      · rfl
      · omega
    · rw [working_of_tick hstep]
      apply hworking
  · intro h before a after hlabels s hrun s' hstep hclosed hworking
    obtain ⟨rfl, hidle⟩ := (closed_iff hstep).mp hclosed
    rw [working_of_tick hstep] at hworking
    obtain ⟨hopen, htick⟩ := step_eq_some.mp hstep
    obtain ⟨hwake, -⟩ := Option.ite_none_right_eq_some.mp htick
    have hsilence := h before after hlabels s hrun hopen hwake hworking
    rw [now_of_run hrun] at hidle
    omega

/-! ### Clients that keep a worker awake -/

/-- Only a line begins a job or an upload. -/
theorem working_of_step {a : WorkerLabel} (h : machine.step s a = some s') (hworking : s'.Working) :
  s.Working ∨ ∃ connection line refuses meanwhile, a = .line connection line refuses meanwhile
  := by
  obtain ⟨-, hopen⟩ := step_eq_some.mp h
  cases a with
  | line connection line refuses meanwhile =>
      right
      exact ⟨_, _, _, _, rfl⟩
  | binary connection data refuses meanwhile =>
      left
      simp only [openStep] at hopen
      split at hopen
      · rename_i uploadId offset _
        cases hopen
        rcases hworking with hbusy | ⟨uploadId', hupload⟩
        · left
          apply hbusy
        · right
          use uploadId'
          have hshrinks : Shrinks s.worker
              (s.worker.serve (.chunk uploadId offset data) refuses meanwhile).2 :=
            shrinks_serve (awaits_chunk uploadId offset data)
          intro hnone
          obtain ⟨handle, hhandle⟩ := Option.ne_none_iff_exists'.mp hupload
          cases hnone.symm.trans (hshrinks.uploads uploadId' handle hhandle)
      · cases hopen
  | answered connection =>
      left
      obtain ⟨-, hopen⟩ := Option.ite_none_right_eq_some.mp hopen
      cases hopen
      apply hworking
  | job step =>
      left
      obtain ⟨runner, hstep, rfl⟩ := Option.map_eq_some_iff.mp hopen
      left
      apply JobRunner.busy_of_step hstep
  | tick =>
      left
      apply (working_of_tick h).mp hworking
  | _ =>
      left
      cases hopen
      apply hworking

/-- While there is work, the time does not come to 15 minutes after the last line. -/
def KeptAwake (s : Fileworker) (a : WorkerLabel) : Prop :=
  ∀ duration, a = .elapse duration → s.Working → s.now + duration < s.lastActivity + idleTimeout

/-- Every step in which the worker is kept awake leaves it so. -/
theorem awake_of_step {a : WorkerLabel} (hs : s.Working → s.now < s.lastActivity + idleTimeout)
    (hawake : s.KeptAwake a) (h : machine.step s a = some s') (hworking : s'.Working) :
  s'.now < s'.lastActivity + idleTimeout
  := by
  have htimeout : 0 < idleTimeout := by decide
  cases clocked_of_step h with
  | elapse duration hclock hactive =>
      rcases working_of_step h hworking with hworking | ⟨_, _, _, _, ⟨⟩⟩
      rw [hclock, hactive]
      apply hawake duration rfl hworking
  | line connection line refuses meanwhile hclock hactive =>
      rw [hclock, hactive]
      omega
  | other helapse hline hclock hactive =>
      rcases working_of_step h hworking with hworking | ⟨_, _, _, _, hlabel⟩
      · rw [hclock, hactive]
        apply hs hworking
      · apply absurd hlabel (hline _ _ _ _)

/-- A worker whose clients keep it awake while it has work is closed at rest. -/
theorem closes_at_rest_of_keptAwake {uid now : ℕ} {files : String → Option FileNode}
    {labels : List WorkerLabel} (h : machine.Along KeptAwake (start uid files now) labels) :
  machine.Along ClosesAtRest (start uid files now) labels
  := by
  apply Machine.along_of_invariant (I := fun s => s.Working → s.now < s.lastActivity + idleTimeout)
    _ _ _ h
  · intro s a s' hs hawake hstep
    apply awake_of_step hs hawake hstep
  · intro s a hs hawake s' hstep hclosed hworking
    obtain ⟨rfl, hidle⟩ := (closed_iff hstep).mp hclosed
    have hbusy := hs ((working_of_tick hstep).mp hworking)
    omega
  · intro hworking
    change now < now + idleTimeout
    have htimeout : 0 < idleTimeout := by decide
    omega

/-- In a run that closes its server at rest, a closed server has no work. -/
theorem at_rest_of_run {t : Fileworker} {labels : List WorkerLabel} (hs : s.closed = false)
    (h : machine.Along ClosesAtRest s labels) (hrun : machine.run s labels = some t)
    (hclosed : t.closed = true) :
  ¬ t.Working
  := by
  have hinvariant : t.closed = true → ¬ t.Working := by
    apply Machine.run_invariant (I := fun s => s.closed = true → ¬ s.Working) _ _ h hrun
    · intro s a s' _ hrest hstep
      apply hrest s' hstep
    · rw [hs]
      rintro ⟨⟩
  apply hinvariant hclosed

/-- A quarter of an hour in which no line is read, and the watch wakes up every 30 seconds. -/
def quarterHour : List WorkerLabel :=
  (List.replicate 30 [.elapse idleCheckInterval, .tick]).flatten

/-- A copy that takes a quarter of an hour. -/
def silentCopy : List WorkerLabel :=
  [.line 0 (.request .copy) (fun _ => none) [], .job (.acquire 0), .job (.begin 0)] ++ quarterHour

/-- An upload that pauses for a quarter of an hour. -/
def silentUpload : List WorkerLabel :=
  .line 0 (.request (.uploadBegin "/volume1/film" "first")) (fun _ => none) [] :: quarterHour

/-- The watch closes the server while a copy is running, and it closes it while an upload is open. -/
theorem closes_working :
  ¬ machine.Along ClosesAtRest (start 1000 emptyVolume 0) silentCopy
    ∧ ¬ machine.Along ClosesAtRest (start 1000 emptyVolume 0) silentUpload
  := by
  have hcopy : (machine.run (start 1000 emptyVolume 0) silentCopy).any
      (fun t => t.closed && decide t.runner.Busy) = true := by decide +kernel
  have hupload : (machine.run (start 1000 emptyVolume 0) silentUpload).any
      (fun t => t.closed && (t.worker.uploads "first").isSome) = true := by decide +kernel
  constructor
  · obtain ⟨t, hrun, ht⟩ := (Option.any_eq_true _ _).mp hcopy
    rw [Bool.and_eq_true, decide_eq_true_eq] at ht
    intro h
    apply at_rest_of_run rfl h hrun ht.1
    left
    apply ht.2
  · obtain ⟨t, hrun, ht⟩ := (Option.any_eq_true _ _).mp hupload
    rw [Bool.and_eq_true, Option.isSome_iff_ne_none] at ht
    intro h
    apply at_rest_of_run rfl h hrun ht.1
    right
    use "first"
    apply ht.2

end Fileworker
