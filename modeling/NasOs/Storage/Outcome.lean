import NasOs.Library.Tracing
import NasOs.Storage.Completion

/-!
# What a job has done when it ends

The job that executes a plan stops at the first operation that raises, at the first command of a step
that fails, and when `systemd-escape` gives no name for the mount unit.  When it ends without stopping,
every command of a step was run and succeeded.

The result of `blkid` is not looked at, so that the mount unit may name an empty UUID, or none that
`blkid` found.
-/

namespace StorageOp

/-- The operation raised. -/
def raised : (op : StorageOp) → op.Answer → Bool
  | .progress _ _ _, answer => !Except.isOk answer
  | .gather, answer => !Except.isOk answer
  | .run _, answer => !Except.isOk answer
  | .writeAtomic _ _, answer => !Except.isOk answer
  | .backup _ _, answer => !Except.isOk answer
  | .daemonReload, answer => !Except.isOk answer
  | .enable _, answer => !Except.isOk answer
  | .start _, answer => !Except.isOk answer
  | .waitActive _ _, answer => !Except.isOk answer
  | .makedirs _, answer => !Except.isOk answer

/-- The command is that of a step, and not one that the executor runs for a step of another kind. -/
def isStepCommand (argv : List String) : Bool :=
  argv.head? ∉ [some "blkid", some "systemd-escape", some "restorecon"]

/-- The command returned with a result that the executor rejects. -/
def rejected : (op : StorageOp) → op.Answer → Bool
  | .run argv, .ok result =>
      (isStepCommand argv && !result.ok)
        || (decide (argv.head? = some "systemd-escape")
          && (!result.ok || decide (result.stdout.strip = "")))
  | _, _ => false

/-- The operation failed, as far as the executor looks. -/
def Fails (e : Event StorageOp StorageOp.Answer) : Prop :=
  e.1.raised e.2 = true ∨ e.1.rejected e.2 = true

instance (e : Event StorageOp StorageOp.Answer) : Decidable (Fails e) :=
  inferInstanceAs (Decidable (_ ∨ _))

end StorageOp

namespace ExecutePlan

open StorageOp (isStepCommand Fails)

/-- The command that asks for the UUID of the filesystem. -/
def blkidArgv (spec : StoragePlanSpec) : List String :=
  ["blkid", "-o", "value", "-s", "UUID", lvDevice spec]

/-- The commands of steps that returned, with their results. -/
def stepCommands (h : List (Event StorageOp StorageOp.Answer)) : List (List String × CommandResult) :=
  h.filterMap fun
    | ⟨.run argv, .ok result⟩ => if isStepCommand argv then some (argv, result) else none
    | _ => none

/-- What `blkid` returned for the logical volume of the plan. -/
def blkidResults (spec : StoragePlanSpec) (h : List (Event StorageOp StorageOp.Answer)) :
    List CommandResult :=
  h.filterMap fun
    | ⟨.run argv, .ok result⟩ => if argv = blkidArgv spec then some result else none
    | _ => none

/-- The mount unit of the plan was written with a UUID. -/
def WritesUnit (settings : Settings) (spec : StoragePlanSpec) (uuid : String)
    (h : List (Event StorageOp StorageOp.Answer)) : Prop :=
  ∃ unitName existed, ⟨.writeAtomic (settings.systemPath (mountUnitPath unitName))
    (renderMountUnit uuid spec.mountpoint spec.filesystem.str), .ok existed⟩ ∈ h

/-- What is said of a job that has ended: it does nothing after the first command of a step that fails,
and if it is done, every command of a step succeeded and the mount unit names the UUID that `blkid`
reported. -/
structure CarriedOut (settings : Settings) (spec : StoragePlanSpec)
    (h : List (Event StorageOp StorageOp.Answer)) (r : Except Exc Unit) : Prop where
  stops : ∀ before argv answer after, h = before ++ ⟨.run argv, answer⟩ :: after →
    isStepCommand argv = true →
      (∀ result : CommandResult, answer = .ok result → result.ok = false) → after = []
  succeeds : r = .ok () → ∀ planSteps, buildSteps spec = .ok planSteps →
    (stepCommands h).map Prod.fst = (planSteps.filter (·.op = .run)).map PlanStep.argv
      ∧ ∀ command ∈ stepCommands h, command.2.ok = true
  mounts : r = .ok () → ∃ result, blkidResults spec h = [result] ∧ result.ok = true
    ∧ result.stdout.strip ≠ "" ∧ WritesUnit settings spec result.stdout.strip h

/-- `blkid` succeeds, and prints more than whitespace. -/
def ReportsUuid (spec : StoragePlanSpec) (h : List (Event StorageOp StorageOp.Answer)) : Prop :=
  ∀ result ∈ blkidResults spec h, result.ok = true ∧ result.stdout.strip ≠ ""

/-! ### The traces of the parts of a job -/

section

variable {settings : Settings} {params : StorageExecutePlanParams} {resolved : StoragePlanSpec}

/-- No command of a step was run, and `blkid` was not. -/
def Quiet (spec : StoragePlanSpec) (t : List (Event StorageOp StorageOp.Answer)) : Prop :=
  stepCommands t = [] ∧ blkidResults spec t = []

theorem stepCommands_append (t u : List (Event StorageOp StorageOp.Answer)) :
  stepCommands (t ++ u) = stepCommands t ++ stepCommands u
  := List.filterMap_append

theorem blkidResults_append (spec : StoragePlanSpec) (t u : List (Event StorageOp StorageOp.Answer)) :
  blkidResults spec (t ++ u) = blkidResults spec t ++ blkidResults spec u
  := List.filterMap_append

/-- Two quiet parts are quiet together. -/
theorem Quiet.append {t u : List (Event StorageOp StorageOp.Answer)} (ht : Quiet resolved t)
    (hu : Quiet resolved u) :
  Quiet resolved (t ++ u)
  := by
  constructor
  · rw [stepCommands_append, ht.1, hu.1, List.append_nil]
  · rw [blkidResults_append, ht.2, hu.2, List.append_nil]

/-- A part of a job that runs no command of a step and not `blkid`. -/
def QuietPart {α : Type} (resolved : StoragePlanSpec) (c : StorageM α) : Prop :=
  Coroutine.Traces Fails (fun _ t => Quiet resolved t) c

/-- Quiet parts make a quiet part. -/
theorem QuietPart.bind {α β : Type} {c : StorageM α} {f : α → StorageM β}
    (hc : QuietPart resolved c) (hf : ∀ a, QuietPart resolved (f a)) :
  QuietPart resolved (c >>= f)
  := by
  apply Coroutine.Traces.bind hc
  intro a t ht
  apply (hf a).mono
  intro b u hu
  apply ht.append hu

theorem quietPart_pure {α : Type} (a : α) :
  QuietPart resolved (pure a : StorageM α)
  := ⟨rfl, rfl⟩

/-- A single operation whose results are not rejected; `g` says how its answer is an exception or a
value. -/
theorem quietPart_await {α : Type} {c : StorageM α} (op : StorageOp) (g : op.Answer → Except Exc α)
    (hc : c.run = Coroutine.await op fun r => .done (g r)) (hraised : ∀ r, op.raised r = !(g r).isOk)
    (hrejected : ∀ r, op.rejected r = false) (hquiet : ∀ r, Quiet resolved [⟨op, r⟩]) :
  QuietPart resolved c
  := by
  rw [QuietPart, Coroutine.Traces, hc]
  intro r
  beta_reduce
  cases hr : g r with
  | error e =>
      constructor
      · intro _
        use e
      · intro hnot
        apply absurd _ hnot
        left
        rw [hraised, hr]
        rfl
  | ok a =>
      constructor
      · rintro (hfails | hfails)
        · rw [hraised, hr] at hfails
          cases hfails
        · rw [hrejected] at hfails
          cases hfails
      · intro _
        apply hquiet r

/-- A single operation that is not a command. -/
theorem quietPart_unit {c : StorageM Unit} (op : StorageOp) (g : op.Answer → Except Exc Unit)
    (hc : c.run = Coroutine.await op fun r => .done (g r)) (hraised : ∀ r, op.raised r = !(g r).isOk)
    (hop : ∀ argv, op ≠ .run argv) :
  QuietPart resolved c
  := by
  apply quietPart_await op g hc hraised
  · intro r
    cases op with
    | run argv => apply absurd rfl (hop argv)
    | _ => rfl
  · intro r
    cases op with
    | run argv => apply absurd rfl (hop argv)
    | _ => exact ⟨rfl, rfl⟩

/-- A command whose result is not looked at. -/
theorem traces_unchecked {argv : List String} (hcommand : isStepCommand argv = false)
    (hescape : argv.head? ≠ some "systemd-escape") :
  Coroutine.Traces Fails (fun result t => t = [⟨StorageOp.run argv, .ok result⟩]) (run argv)
  := by
  rintro (e | result)
  · constructor
    · intro _
      use e
    · intro hnot
      apply absurd _ hnot
      left
      rfl
  · constructor
    · rintro (⟨⟨⟩⟩ | hrejected)
      simp [StorageOp.rejected, hcommand, hescape] at hrejected
    · intro _
      rfl

/-- `restorecon` and the like: a command of no step whose result is not looked at. -/
theorem quietPart_run {argv : List String} (hcommand : isStepCommand argv = false)
    (hescape : argv.head? ≠ some "systemd-escape") (hblkid : argv.head? ≠ some "blkid") :
  QuietPart resolved (run argv)
  := by
  apply (traces_unchecked hcommand hescape).mono
  rintro result _ rfl
  have hne : argv ≠ blkidArgv resolved := by
    rintro rfl
    apply hblkid rfl
  constructor
  · simp [stepCommands, hcommand]
  · simp [blkidResults, hne]

/-- Putting a file in place runs no command of a step. -/
theorem traces_writeAndApply (path content : String) :
  Coroutine.Traces Fails
    (fun _ t => Quiet resolved t ∧ ∃ existed, ⟨.writeAtomic path content, .ok existed⟩ ∈ t)
    (writeAndApply settings path content)
  := by
  apply Coroutine.Traces.bind
    (R := fun existed t => t = [⟨StorageOp.writeAtomic path content, .ok existed⟩])
  · rintro (e | existed)
    · exact ⟨fun _ => ⟨e, rfl⟩, fun h => absurd (Or.inl rfl) h⟩
    · exact ⟨by rintro (⟨⟨⟩⟩ | ⟨⟨⟩⟩), fun _ => rfl⟩
  · rintro existed _ rfl
    have hrest : QuietPart resolved (do
        let _ ← run ["restorecon", path]
        if existed then
          ExceptT.mk (Coroutine.perform
            (StorageOp.backup path (settings.stateDir ++ "/config-backups")))
        else pure ()) := by
      apply QuietPart.bind
      · apply quietPart_run
        · rfl
        · simp
        · simp
      · intro _
        split
        · apply quietPart_unit (.backup path (settings.stateDir ++ "/config-backups")) id rfl
            fun _ => rfl
          rintro argv ⟨⟩
        · apply quietPart_pure
    apply Coroutine.Traces.mono hrest
    intro _ t ht
    constructor
    · apply Quiet.append _ ht
      exact ⟨rfl, rfl⟩
    · use existed
      apply List.mem_append_left _ List.mem_cons_self

/-- Writing the drop-ins runs no command of a step. -/
theorem quietPart_writeDropins (mountpoints units : List String) :
  QuietPart resolved (writeDropins settings mountpoints units)
  := by
  induction units with
  | nil => apply quietPart_pure
  | cons unit units ih =>
      apply QuietPart.bind
      · apply (traces_writeAndApply _ _).mono
        intro _ t ht
        apply ht.1
      · intro _
        apply ih

/-- Asking for the name of the mount unit runs no command of a step. -/
theorem quietPart_mountUnitName (mountpoint : String) :
  QuietPart resolved (mountUnitName mountpoint)
  := by
  have hne : ["systemd-escape", "-p", "--suffix=mount", mountpoint] ≠ blkidArgv resolved := by
    simp [blkidArgv]
  rintro (e | result)
  · exact ⟨fun _ => ⟨e, rfl⟩, fun h => absurd (Or.inl rfl) h⟩
  · have hfails : Fails ⟨.run ["systemd-escape", "-p", "--suffix=mount", mountpoint], .ok result⟩
        ↔ (!result.ok) = true ∨ result.stdout.strip = "" := by
      simp [Fails, StorageOp.raised, StorageOp.rejected, isStepCommand, Except.isOk, Except.toBool]
    rw [hfails]
    constructor
    · intro hbad
      use .adapterError (result.stderr.strip.orElse "systemd-escape produced no unit name")
      change (Async.raiseIf _ _ >>= fun _ => pure _ : StorageM String).run = _
      rw [Async.raiseIf_bind_of hbad]
      rfl
    · intro hgood
      change Coroutine.TracesFrom _ _ _ (Async.raiseIf _ _ >>= fun _ => pure _ : StorageM String).run
      rw [Async.raiseIf_bind_of_not hgood]
      constructor
      · rfl
      · simp [blkidResults, hne]

/-! ### The trace of the steps -/

/-- What the steps of a plan that are done have left in the trace. -/
structure Leaves (settings : Settings) (resolved : StoragePlanSpec) (planSteps : List PlanStep)
    (t : List (Event StorageOp StorageOp.Answer)) : Prop where
  commands : (stepCommands t).map Prod.fst = (planSteps.filter (·.op = .run)).map PlanStep.argv
  succeeded : ∀ command ∈ stepCommands t, command.2.ok = true
  asked : (blkidResults resolved t).length = (planSteps.filter (·.op = .writeUnit)).length
  written : ∀ result ∈ blkidResults resolved t, WritesUnit settings resolved result.stdout.strip t

/-- What is written remains so. -/
theorem WritesUnit.mono {uuid : String} {t u : List (Event StorageOp StorageOp.Answer)}
    (h : WritesUnit settings resolved uuid t) (htu : t ⊆ u) :
  WritesUnit settings resolved uuid u
  := by
  obtain ⟨unitName, existed, hevent⟩ := h
  use unitName, existed, htu hevent

/-- Steps after others. -/
theorem Leaves.append {planSteps rest : List PlanStep} {t u : List (Event StorageOp StorageOp.Answer)}
    (ht : Leaves settings resolved planSteps t) (hu : Leaves settings resolved rest u) :
  Leaves settings resolved (planSteps ++ rest) (t ++ u)
  := by
  constructor
  · rw [stepCommands_append, List.map_append, ht.commands, hu.commands, List.filter_append,
      List.map_append]
  · rw [stepCommands_append]
    apply List.forall_mem_append.mpr ⟨ht.succeeded, hu.succeeded⟩
  · rw [blkidResults_append, List.length_append, ht.asked, hu.asked, List.filter_append,
      List.length_append]
  · rw [blkidResults_append]
    intro result hresult
    rcases List.mem_append.mp hresult with hresult | hresult
    · apply (ht.written result hresult).mono (List.subset_append_left t u)
    · apply (hu.written result hresult).mono (List.subset_append_right t u)

/-- What is quiet is left by no step. -/
theorem Quiet.leaves {t : List (Event StorageOp StorageOp.Answer)} (ht : Quiet resolved t) :
  Leaves settings resolved [] t
  := by
  obtain ⟨hcommands, hresults⟩ := ht
  constructor
  · rw [hcommands]
    rfl
  · rw [hcommands]
    rintro command ⟨⟩
  · rw [hresults]
    rfl
  · rw [hresults]
    rintro result ⟨⟩

/-- A step that neither runs a command nor writes the unit. -/
theorem Quiet.leaves_step {t : List (Event StorageOp StorageOp.Answer)} {planStep : PlanStep}
    (ht : Quiet resolved t) (hrun : planStep.op ≠ .run) (hunit : planStep.op ≠ .writeUnit) :
  Leaves settings resolved [planStep] t
  := by
  have h : Leaves settings resolved [] t := ht.leaves
  constructor
  · rw [h.commands, List.filter_singleton]
    simp [hrun]
  · apply h.succeeded
  · rw [h.asked, List.filter_singleton]
    simp [hunit]
  · apply h.written

/-- The steps can be executed from a state in which the unit is `named`: commands are those of steps, and
the unit is started only after it was written. -/
def Ordered : Bool → List PlanStep → Prop
  | _, [] => True
  | named, planStep :: rest =>
      (planStep.op = .run → isStepCommand planStep.argv = true)
        ∧ (planStep.op = .enableStartUnit → named = true)
        ∧ Ordered (named || decide (planStep.op = .writeUnit)) rest

/-- Steps that can be executed before the unit is named can be executed after. -/
theorem Ordered.mono {named named' : Bool} {planSteps : List PlanStep} (h : Ordered named planSteps)
    (hnamed : named = true → named' = true) :
  Ordered named' planSteps
  := by
  induction planSteps generalizing named named' with
  | nil => trivial
  | cons planStep rest ih =>
      obtain ⟨hstep, hstart, hrest⟩ := h
      refine ⟨hstep, fun hop => hnamed (hstart hop), ih hrest ?_⟩
      intro hor
      rw [Bool.or_eq_true] at hor ⊢
      rcases hor with hor | hor
      · left
        apply hnamed hor
      · right
        apply hor

/-- Commands of steps come before steps that can be executed. -/
theorem Ordered.append {named : Bool} {front rest : List PlanStep}
    (hfront : ∀ planStep ∈ front, planStep.op = .run ∧ isStepCommand planStep.argv = true)
    (hrest : Ordered named rest) :
  Ordered named (front ++ rest)
  := by
  induction front with
  | nil => apply hrest
  | cons planStep front ih =>
      obtain ⟨⟨hrun, hcommand⟩, hfront⟩ := List.forall_mem_cons.mp hfront
      constructor
      · intro _
        apply hcommand
      constructor
      · rw [hrun]
        rintro ⟨⟩
      · apply (ih hfront).mono
        intro hnamed
        rw [hnamed, Bool.true_or]

/-- The steps that prepare the disks run commands of steps. -/
theorem isStepCommand_diskSteps {disks : List String} :
  ∀ planStep ∈ disks.flatMap diskSteps, planStep.op = .run ∧ isStepCommand planStep.argv = true
  := by
  intro planStep h
  obtain ⟨disk, -, h⟩ := List.mem_flatMap.mp h
  simp only [diskSteps, List.mem_cons, List.not_mem_nil, or_false] at h
  rcases h with rfl | rfl
  · exact ⟨rfl, rfl⟩
  · exact ⟨rfl, rfl⟩

/-- The steps of a plan are commands, and then those that put the volume on what they made. -/
theorem exists_volumeSteps {spec : StoragePlanSpec} {planSteps : List PlanStep}
    (h : buildSteps spec = .ok planSteps) :
  ∃ front pvDevice, planSteps = front ++ volumeSteps spec pvDevice
    ∧ ∀ planStep ∈ front, planStep.op = .run ∧ isStepCommand planStep.argv = true
  := by
  rcases buildSteps_cases h with ⟨disk, disks, -, -, rfl⟩ | ⟨-, rfl⟩
  · exact ⟨_, _, rfl, isStepCommand_diskSteps⟩
  · refine ⟨_ ++ [arrayStep spec], _, (List.append_assoc _ [_] _).symm, ?_⟩
    apply List.forall_mem_append.mpr ⟨isStepCommand_diskSteps, _⟩
    intro planStep hplanStep
    rw [List.mem_singleton] at hplanStep
    subst hplanStep
    exact ⟨rfl, rfl⟩

/-- The steps that put a volume on a device can be executed. -/
theorem ordered_volumeSteps (named : Bool) (spec : StoragePlanSpec) (pvDevice : String) :
  Ordered named (volumeSteps spec pvDevice)
  := by
  simp [volumeSteps, Ordered, isStepCommand, pvcreateArgv, vgcreateArgv, lvcreateFullFreeArgv]
  cases spec.filesystem with
  | xfs => simp [mkfsArgv]
  | ext4 => simp [mkfsArgv]

/-- The mount unit is written once. -/
theorem filter_writeUnit {spec : StoragePlanSpec} {planSteps : List PlanStep}
    (h : buildSteps spec = .ok planSteps) :
  (planSteps.filter (·.op = .writeUnit)).length = 1
  := by
  obtain ⟨front, pvDevice, rfl, hfront⟩ := exists_volumeSteps h
  have hnone : front.filter (·.op = .writeUnit) = [] := by
    apply List.filter_eq_nil_iff.mpr
    intro planStep hplanStep
    rw [(hfront planStep hplanStep).1]
    decide
  rw [List.filter_append, hnone]
  rfl

/-- The operation that runs a command of a step. -/
theorem fails_run_iff {argv : List String} (hstep : isStepCommand argv = true)
    (answer : (StorageOp.run argv).Answer) :
  Fails ⟨.run argv, answer⟩ ↔ ∀ result : CommandResult, answer = .ok result → result.ok = false
  := by
  have hescape : argv.head? ≠ some "systemd-escape" := by
    intro h
    rw [isStepCommand, h] at hstep
    cases hstep
  cases answer with
  | error e => simp [Fails, StorageOp.raised, Except.isOk, Except.toBool]
  | ok result =>
      simp [Fails, StorageOp.raised, StorageOp.rejected, Except.isOk, Except.toBool, hstep, hescape]

/-- A step that runs a command. -/
theorem traces_run (state : StepState) (description : String) {argv : List String}
    (hstep : isStepCommand argv = true) :
  Coroutine.Traces Fails
    (fun state' t => state' = state ∧ Leaves settings resolved [⟨description, .run, argv⟩] t)
    (step settings params resolved state ⟨description, .run, argv⟩)
  := by
  have hne : argv ≠ blkidArgv resolved := by
    rintro rfl
    cases hstep
  intro answer
  rw [fails_run_iff hstep]
  cases answer with
  | error e =>
      constructor
      · intro _
        use e
        rfl
      · intro hnot
        apply absurd _ hnot
        rintro result ⟨⟩
  | ok result =>
      constructor
      · intro hfails
        use .other (description ++ " failed: " ++ result.stderr.strip)
        change (Async.raiseIf _ _ >>= fun _ => pure _ : StorageM StepState).run = _
        rw [Async.raiseIf_bind_of]
        · rfl
        · simp [hfails result rfl]
      · intro hgood
        have hok : result.ok = true := by
          by_contra hok
          apply hgood
          rintro _ ⟨⟩
          apply Bool.eq_false_of_not_eq_true hok
        change Coroutine.TracesFrom _ _ _
          (Async.raiseIf _ _ >>= fun _ => pure _ : StorageM StepState).run
        rw [Async.raiseIf_bind_of_not (by simp [hok])]
        constructor
        · rfl
        · constructor
          · simp [stepCommands, hstep]
          · simp [stepCommands, hstep, hok]
          · simp [blkidResults, hne]
          · simp [blkidResults, hne]

/-- The step that writes the mount unit. -/
theorem traces_writeUnit (state : StepState) (description : String) (argv : List String) :
  Coroutine.Traces Fails
    (fun state' t => state'.unitName.isSome = true
      ∧ Leaves settings resolved [⟨description, .writeUnit, argv⟩] t)
    (step settings params resolved state ⟨description, .writeUnit, argv⟩)
  := by
  apply Coroutine.Traces.bind (@traces_unchecked (blkidArgv resolved) rfl (by simp [blkidArgv]))
  rintro result _ rfl
  have hname : QuietPart resolved (mountUnitName resolved.mountpoint) := quietPart_mountUnitName _
  apply Coroutine.Traces.bind hname
  intro unitName t ht
  apply Coroutine.Traces.bind (traces_writeAndApply _ _)
  rintro _ u ⟨hu, existed, hwritten⟩
  apply Coroutine.traces_pure
  obtain ⟨hcommands, hresults⟩ := ht.append hu
  constructor
  · rfl
  · rw [List.append_nil]
    have hresult : blkidResults resolved ([⟨.run (blkidArgv resolved), .ok result⟩] ++ (t ++ u))
        = [result] := by
      rw [blkidResults_append, hresults]
      simp [blkidResults]
    have hcommand : stepCommands ([⟨.run (blkidArgv resolved), .ok result⟩] ++ (t ++ u)) = [] := by
      rw [stepCommands_append, hcommands]
      simp [stepCommands, isStepCommand, blkidArgv]
    constructor
    · rw [hcommand]
      rfl
    · rw [hcommand]
      rintro command ⟨⟩
    · rw [hresult]
      rfl
    · rw [hresult]
      intro other hother
      rw [List.mem_singleton] at hother
      subst hother
      use unitName, existed
      apply List.mem_append_right _ (List.mem_append_right _ hwritten)

/-- A part that is quiet, as a step that neither runs a command nor writes the unit. -/
theorem traces_of_quietPart {α : Type} {c : StorageM α} {state : StepState} {planStep : PlanStep}
    (hc : QuietPart resolved c) (hrun : planStep.op ≠ .run) (hunit : planStep.op ≠ .writeUnit) :
  Coroutine.Traces Fails
    (fun state' t =>
      (state.unitName.isSome = true ∨ planStep.op = .writeUnit → state'.unitName.isSome = true)
        ∧ Leaves settings resolved [planStep] t)
    (c >>= fun _ => pure state)
  := by
  apply Coroutine.Traces.bind hc
  intro _ t ht
  apply Coroutine.traces_pure
  constructor
  · rintro (h | h)
    · apply h
    · apply absurd h hunit
  · rw [List.append_nil]
    apply ht.leaves_step hrun hunit

/-- A quiet part before the rest of a step. -/
theorem QuietPart.traces_bind {α : Type} {P : StepState → Prop} {c : StorageM α}
    {f : α → StorageM StepState} {planStep : PlanStep} (hc : QuietPart resolved c)
    (hf : ∀ a, Coroutine.Traces Fails
      (fun state' t => P state' ∧ Leaves settings resolved [planStep] t) (f a)) :
  Coroutine.Traces Fails (fun state' t => P state' ∧ Leaves settings resolved [planStep] t) (c >>= f)
  := by
  apply Coroutine.Traces.bind hc
  intro a t ht
  apply (hf a).mono
  rintro state' u ⟨hstate, hu⟩
  constructor
  · apply hstate
  · apply ht.leaves.append hu

/-- A step of a plan. -/
theorem traces_step (state : StepState) (planStep : PlanStep)
    (hstep : planStep.op = .run → isStepCommand planStep.argv = true)
    (hnamed : planStep.op = .enableStartUnit → state.unitName.isSome = true) :
  Coroutine.Traces Fails
    (fun state' t =>
      (state.unitName.isSome = true ∨ planStep.op = .writeUnit → state'.unitName.isSome = true)
        ∧ Leaves settings resolved [planStep] t)
    (step settings params resolved state planStep)
  := by
  obtain ⟨description, op, argv⟩ := planStep
  cases op with
  | run =>
      apply (traces_run state description (hstep rfl)).mono
      rintro _ t ⟨rfl, ht⟩
      constructor
      · rintro (h | h)
        · apply h
        · cases h
      · apply ht
  | writeUnit =>
      apply (traces_writeUnit state description argv).mono
      intro state' t ht
      exact ⟨fun _ => ht.1, ht.2⟩
  | writeTarget =>
      apply traces_of_quietPart _ (by rintro ⟨⟩) (by rintro ⟨⟩)
      apply (traces_writeAndApply _ _).mono
      intro _ t ht
      apply ht.1
  | writeDropins =>
      apply traces_of_quietPart _ (by rintro ⟨⟩) (by rintro ⟨⟩)
      apply quietPart_writeDropins
  | daemonReload =>
      apply traces_of_quietPart _ (by rintro ⟨⟩) (by rintro ⟨⟩)
      apply quietPart_unit .daemonReload id rfl fun _ => rfl
      rintro argv ⟨⟩
  | enableStartUnit =>
      obtain ⟨_ | unitName, fsUuid⟩ := state
      · cases hnamed rfl
      · apply QuietPart.traces_bind
        · apply quietPart_unit (.enable unitName) id rfl fun _ => rfl
          rintro argv ⟨⟩
        intro _
        apply QuietPart.traces_bind
        · apply quietPart_unit (.start unitName) id rfl fun _ => rfl
          rintro argv ⟨⟩
        intro _
        apply traces_of_quietPart _ (by rintro ⟨⟩) (by rintro ⟨⟩)
        apply quietPart_unit (.waitActive unitName 30) id rfl fun _ => rfl
        rintro argv ⟨⟩
  | restorecon =>
      apply traces_of_quietPart _ (by rintro ⟨⟩) (by rintro ⟨⟩)
      apply quietPart_run
      · rfl
      · simp
      · simp

/-- The steps of a plan in their order. -/
theorem traces_steps {total : ℕ} {planSteps : List PlanStep} {index : ℕ} {state : StepState}
    (h : Ordered state.unitName.isSome planSteps) :
  Coroutine.Traces Fails (fun _ t => Leaves settings resolved planSteps t)
    (steps settings params resolved total index state planSteps)
  := by
  induction planSteps generalizing index state with
  | nil =>
      apply Coroutine.traces_pure
      apply Quiet.leaves
      exact ⟨rfl, rfl⟩
  | cons planStep rest ih =>
      obtain ⟨hstep, hnamed, hrest⟩ := h
      have hprogress : QuietPart resolved (progress index total planStep.description) := by
        apply quietPart_unit (.progress index total planStep.description) id rfl fun _ => rfl
        rintro argv ⟨⟩
      apply Coroutine.Traces.bind hprogress
      intro _ t ht
      apply Coroutine.Traces.bind (traces_step state planStep hstep hnamed)
      rintro state' u ⟨hstate, hu⟩
      have hordered : Ordered state'.unitName.isSome rest := by
        apply hrest.mono
        intro hsome
        apply hstate
        simpa using hsome
      apply (ih hordered).mono
      intro _ v hv
      apply ht.leaves.append (hu.append hv)

/-- A job with a resolved spec that has steps. -/
theorem traces_executeSpec {planSteps : List PlanStep} (h : buildSteps resolved = .ok planSteps) :
  Coroutine.Traces Fails (fun _ t => Leaves settings resolved planSteps t)
    (executeSpec settings params resolved)
  := by
  obtain ⟨front, pvDevice, rfl, hfront⟩ := exists_volumeSteps h
  rw [executeSpec, h]
  apply Coroutine.Traces.bind (R := fun (planSteps : List PlanStep) t =>
    planSteps = front ++ volumeSteps resolved pvDevice ∧ t = [])
  · exact ⟨rfl, rfl⟩
  rintro _ _ ⟨rfl, rfl⟩
  apply Coroutine.Traces.bind (traces_steps (Ordered.append hfront (ordered_volumeSteps _ _ _)))
  intro state t ht
  have hrest : QuietPart resolved (do
      ExceptT.mk (Coroutine.perform (StorageOp.makedirs
        (Path.join (Path.join resolved.mountpoint "@nasos") "tmp")))
      progress 1 1 (String.ofList (Json.print Json.dumps (result resolved state.fsUuid)))) := by
    apply QuietPart.bind
    · apply quietPart_unit (.makedirs _) id rfl fun _ => rfl
      rintro argv ⟨⟩
    · intro _
      apply quietPart_unit (.progress 1 1 _) id rfl fun _ => rfl
      rintro argv ⟨⟩
  apply hrest.mono
  intro _ u hu
  rw [List.nil_append, ← List.append_nil (front ++ _)]
  apply ht.append hu.leaves

/-- A job whose spec has no steps does nothing. -/
theorem follows_executeSpec_of_error {e : Exc} (h : buildSteps resolved = .error e)
    {t : List (Event StorageOp StorageOp.Answer)} {r : Except Exc Unit}
    (hrun : (executeSpec settings params resolved).run.Follows t (.done r)) :
  t = [] ∧ r = .error e
  := by
  rw [executeSpec, h] at hrun
  obtain ⟨rfl, heq⟩ := Coroutine.follows_done.mp hrun
  cases heq
  exact ⟨rfl, rfl⟩

end

/-- What a system answers on which `blkid` finds no UUID. -/
def unlabelledAnswer : (op : StorageOp) → op.Answer
  | .run ("blkid" :: _) => .ok ⟨2, "", ""⟩
  | op => RegistrarWorld.volumeAnswer op

end ExecutePlan
