import NasOs.Library.Protocol
import NasOs.Storage.World

/-!
# What a job writes to the drop-ins

A job that executes a plan writes the drop-ins of the services, all with the same list of mountpoints,
the one it was submitted with; a job that is done has written each of them.  Nothing else that it writes
is a drop-in, because the name of a mount unit has no slash.
-/

/-- The path of a drop-in. -/
def Settings.dropinPath (settings : Settings) (unit : String) : String :=
  settings.systemPath (serviceDropinPath unit)

/-- The paths that a job has written to, unless a command printed what it never prints. -/
inductive JobStage where
  | sound (written : List String)
  | broken

/-- A job writes to the drop-ins only what its list makes of them. -/
def StorageExecutePlanParams.protocol (settings : Settings) (params : StorageExecutePlanParams) :
    Protocol StorageOp StorageOp.Answer JobStage where
  allowed stage op :=
    match stage, op with
    | .sound _, .writeAtomic path content =>
        (∃ unit ∈ dropinServices, path = settings.dropinPath unit) →
          content = renderServiceDropin params.managedMountpoints
    | _, _ => True
  next stage op :=
    match stage, op with
    | .sound written, .writeAtomic path _ => fun
        | .ok _ => .sound (path :: written)
        | .error _ => .sound written
    | .sound written, .run argv => fun
        | .ok result =>
            if argv.head? = some "systemd-escape" ∧ '/' ∈ result.stdout.toList then .broken
            else .sound written
        | .error _ => .sound written
    | stage, _ => fun _ => stage

/-- What a part of a job ends with: it has written what it wrote before, and unless it failed also the
paths `needed`, and has a result that satisfies `V`. -/
def Wrote {α : Type} (written needed : List String) (V : α → Prop) (stage : JobStage)
    (result : Except Exc α) : Prop :=
  match stage with
  | .sound written' => written ⊆ written' ∧ ∀ a, result = .ok a → needed ⊆ written' ∧ V a
  | .broken => True

section

variable {settings : Settings} {params : StorageExecutePlanParams} {α β : Type}
  {written needed needed' : List String} {V : α → Prop} {V' : β → Prop}

/-- Once a command printed what it never prints, everything is allowed. -/
theorem obeys_broken (c : StorageM α) :
  c.run.Obeys (params.protocol settings) (Wrote written needed V) .broken
  := by
  generalize c.run = c
  induction c with
  | done a => trivial
  | await op resume ih =>
      constructor
      · cases op
        all_goals trivial
      · intro r
        cases op
        all_goals apply ih r

/-- What was written need not be told. -/
theorem Wrote.weaken {stage : JobStage} {result : Except Exc α}
    (h : Wrote written needed V stage result) :
  Wrote written [] (fun _ => True) stage result
  := by
  cases stage with
  | broken => trivial
  | sound written' =>
      use h.1
      intro a _
      exact ⟨List.nil_subset _, trivial⟩

/-- The rule for a bind. -/
theorem obeys_wrote_bind {c : StorageM α} {f : α → StorageM β}
    (hc : c.run.Obeys (params.protocol settings) (Wrote written needed V) (.sound written))
    (hf : ∀ written' a, V a →
      (f a).run.Obeys (params.protocol settings) (Wrote written' needed' V') (.sound written')) :
  (c >>= f).run.Obeys (params.protocol settings) (Wrote written (needed ++ needed') V')
    (.sound written)
  := by
  apply hc.exceptT_bind
  · rintro (written₁ | _) a h
    · obtain ⟨hgrown, hok⟩ := h
      obtain ⟨hneeded, hV⟩ := hok a rfl
      apply (hf written₁ a hV).mono
      rintro (written₂ | _) result h
      · obtain ⟨hgrown', hok'⟩ := h
        use List.Subset.trans hgrown hgrown'
        intro b hb
        obtain ⟨hneeded', hV'⟩ := hok' b hb
        refine ⟨?_, hV'⟩
        apply List.append_subset.mpr
        exact ⟨List.Subset.trans hneeded hgrown', hneeded'⟩
      · trivial
    · apply obeys_broken
  · rintro (written₁ | _) e h
    · use h.1
      rintro b ⟨⟩
    · trivial

/-- Nothing is written by what awaits nothing. -/
theorem obeys_wrote_pure {a : α} (h : V a) :
  (pure a : StorageM α).run.Obeys (params.protocol settings) (Wrote written [] V) (.sound written)
  := by
  use fun _ h => h
  rintro b ⟨⟩
  exact ⟨List.nil_subset _, h⟩

/-- Nothing is written by raising an exception. -/
theorem obeys_wrote_throw (e : Exc) :
  (throw e : StorageM α).run.Obeys (params.protocol settings) (Wrote written needed V)
    (.sound written)
  := by
  use fun _ h => h
  rintro b ⟨⟩

/-- Raising an exception under a condition writes nothing. -/
theorem obeys_wrote_raiseIf (c : Prop) [Decidable c] (e : Exc) :
  (Async.raiseIf c e : StorageM Unit).run.Obeys (params.protocol settings)
    (Wrote written [] fun _ => ¬ c) (.sound written)
  := by
  rw [Async.raiseIf]
  split
  · apply obeys_wrote_throw
  · rename_i h
    apply @obeys_wrote_pure _ _ _ _ (fun _ => ¬ c) _ h

/-- An operation that leads to no other stage writes nothing. -/
theorem obeys_wrote_perform {op : StorageOp} {f : op.Answer → Except Exc α}
    (hallowed : (params.protocol settings).allowed (.sound written) op)
    (hnext : ∀ r, (params.protocol settings).next (.sound written) op r = .sound written) :
  Coroutine.Obeys (params.protocol settings) (Wrote written [] fun _ : α => True) (.sound written)
    (.await op fun r => .done (f r))
  := by
  use hallowed
  intro r
  rw [hnext]
  use fun _ h => h
  intro a _
  exact ⟨List.nil_subset _, trivial⟩

/-- What a command prints is known as long as the stage is sound. -/
theorem obeys_wrote_run (argv : List String) :
  (ExecutePlan.run argv).run.Obeys (params.protocol settings)
    (Wrote written [] fun result => argv.head? = some "systemd-escape" → '/' ∉ result.stdout.toList)
    (.sound written)
  := by
  use trivial
  rintro (e | result)
  · apply obeys_wrote_throw
  · have hnext : (params.protocol settings).next (.sound written) (.run argv) (.ok result)
        = if argv.head? = some "systemd-escape" ∧ '/' ∈ result.stdout.toList then .broken
          else .sound written := rfl
    rw [hnext]
    split
    · trivial
    · rename_i h
      use fun _ h => h
      rintro _ ⟨⟩
      use List.nil_subset _
      intro hescape hslash
      apply h ⟨hescape, hslash⟩

/-- Writing a file that is no drop-in, or the right one, is allowed. -/
theorem obeys_writeAndApply {path content : String}
    (hpath : (∃ unit ∈ dropinServices, path = settings.dropinPath unit) →
      content = renderServiceDropin params.managedMountpoints) :
  (ExecutePlan.writeAndApply settings path content).run.Obeys (params.protocol settings)
    (Wrote written [path] fun _ => True) (.sound written)
  := by
  have hbackup : ∀ written (previous : Bool), (if previous then
        ExceptT.mk (Coroutine.perform
          (StorageOp.backup path (settings.stateDir ++ "/config-backups")))
      else pure () : StorageM Unit).run.Obeys (params.protocol settings)
        (Wrote written [] fun _ => True) (.sound written) := by
    intro written previous
    cases previous with
    | false => apply @obeys_wrote_pure _ _ _ _ (fun _ => True) _ trivial
    | true =>
        apply obeys_wrote_perform
        · trivial
        · intro r
          rfl
  have hwrite : (ExceptT.mk (Coroutine.perform (StorageOp.writeAtomic path content)) :
      StorageM Bool).run.Obeys (params.protocol settings) (Wrote written [path] fun _ => True)
        (.sound written) := by
    use hpath
    rintro (e | previous)
    · apply obeys_wrote_throw
    · use List.subset_cons_self _ _
      intro _ _
      use by simp
  apply obeys_wrote_bind hwrite
  intro written₁ previous _
  apply obeys_wrote_bind (obeys_wrote_run _)
  intro written₂ _ _
  apply hbackup

/-- The drop-ins of services are written. -/
theorem obeys_writeDropins (units : List String) :
  (ExecutePlan.writeDropins settings params.managedMountpoints units).run.Obeys
    (params.protocol settings) (Wrote written (units.map settings.dropinPath) fun _ => True)
    (.sound written)
  := by
  induction units generalizing written with
  | nil => apply @obeys_wrote_pure _ _ _ _ (fun _ => True) _ trivial
  | cons unit units ih =>
      have hwrite := @obeys_writeAndApply settings params written (settings.dropinPath unit) _
        fun _ => rfl
      apply obeys_wrote_bind hwrite
      intro written₁ _ _
      apply ih

end

/-! ### The files that are no drop-ins -/

/-- Different paths are different in every mode. -/
theorem Settings.systemPath_injective (settings : Settings) :
  Function.Injective settings.systemPath
  := by
  intro path path' h
  rw [systemPath, systemPath] at h
  split at h
  · apply (String.append_right_inj _).mp h
  · apply h

/-- A mount unit is no drop-in if its name has no slash. -/
theorem mountUnitPath_ne_dropin {settings : Settings} {unitName : String}
    (hname : '/' ∉ unitName.toList) (unit : String) :
  settings.systemPath (mountUnitPath unitName) ≠ settings.dropinPath unit
  := by
  intro h
  have hpath : "/etc/systemd/system/" ++ unitName
      = "/etc/systemd/system/" ++ (unit ++ ".d/50-nasos-volumes.conf") := by
    rw [← String.append_assoc]
    apply settings.systemPath_injective h
  rw [(String.append_right_inj _).mp hpath] at hname
  simp [String.toList_append] at hname

/-- The target of the volumes is no drop-in. -/
theorem volumesTargetUnitPath_ne_dropin {settings : Settings} {unit : String}
    (hunit : unit ∈ dropinServices) :
  settings.systemPath volumesTargetUnitPath ≠ settings.dropinPath unit
  := by
  intro h
  have hpath := settings.systemPath_injective h
  revert hpath
  simp only [dropinServices, List.mem_cons, List.not_mem_nil, or_false] at hunit
  rcases hunit with rfl | rfl | rfl
  all_goals decide

section

variable {settings : Settings} {params : StorageExecutePlanParams} {resolved : StoragePlanSpec}
  {written : List String}

/-- The name of a mount unit has no slash. -/
theorem obeys_mountUnitName (mountpoint : String) :
  (ExecutePlan.mountUnitName mountpoint).run.Obeys (params.protocol settings)
    (Wrote written [] fun name => '/' ∉ name.toList) (.sound written)
  := by
  apply obeys_wrote_bind (obeys_wrote_run _)
  intro written₁ result hresult
  dsimp only
  apply obeys_wrote_bind (obeys_wrote_raiseIf _ _)
  intro written₂ _ _
  apply @obeys_wrote_pure _ _ _ _ (fun name : String => '/' ∉ name.toList)
  intro hslash
  apply hresult rfl
  apply Text.mem_of_mem_strip
  simpa [String.strip] using hslash

/-- The paths that a step writes. -/
def PlanStep.dropins (settings : Settings) (planStep : PlanStep) : List String :=
  if planStep.op = .writeDropins then dropinServices.map settings.dropinPath else []

/-- A step writes the drop-ins if it is the one that does. -/
theorem obeys_step (state : ExecutePlan.StepState) (planStep : PlanStep) :
  (ExecutePlan.step settings params resolved state planStep).run.Obeys (params.protocol settings)
    (Wrote written (planStep.dropins settings) fun _ => True) (.sound written)
  := by
  have hpure : ∀ {written} (state : ExecutePlan.StepState), (pure state : StorageM _).run.Obeys
      (params.protocol settings) (Wrote written [] fun _ => True) (.sound written) :=
    fun state => @obeys_wrote_pure _ _ _ _ (fun _ => True) state trivial
  rw [ExecutePlan.step, PlanStep.dropins]
  cases planStep.op with
  | run =>
      apply obeys_wrote_bind (obeys_wrote_run _)
      intro written₁ result _
      apply obeys_wrote_bind (obeys_wrote_raiseIf _ _)
      intro written₂ _ _
      apply hpure
  | writeUnit =>
      apply obeys_wrote_bind (obeys_wrote_run _)
      intro written₁ blkid _
      apply obeys_wrote_bind (obeys_mountUnitName _)
      intro written₂ unitName hname
      have hwrite := @obeys_writeAndApply settings params written₂
        (settings.systemPath (mountUnitPath unitName))
        (renderMountUnit blkid.stdout.strip resolved.mountpoint resolved.filesystem.str)
        (by
          rintro ⟨unit, _, h⟩
          apply absurd h (mountUnitPath_ne_dropin hname unit))
      apply obeys_wrote_bind (hwrite.mono fun _ _ h => h.weaken)
      intro written₃ _ _
      apply hpure
  | writeTarget =>
      have hwrite := @obeys_writeAndApply settings params written
        (settings.systemPath volumesTargetUnitPath) renderVolumesTarget
        (by
          rintro ⟨unit, hunit, h⟩
          apply absurd h (volumesTargetUnitPath_ne_dropin hunit))
      apply obeys_wrote_bind (hwrite.mono fun _ _ h => h.weaken)
      intro written₁ _ _
      apply hpure
  | writeDropins =>
      have hall := @obeys_wrote_bind settings params _ _ written
        (dropinServices.map settings.dropinPath) [] _ (fun _ => True) _ (fun _ => pure state)
        (obeys_writeDropins dropinServices) fun _ _ _ => hpure state
      rw [List.append_nil] at hall
      apply hall
  | daemonReload =>
      apply obeys_wrote_bind (@obeys_wrote_perform _ _ _ _ .daemonReload id trivial fun _ => rfl)
      intro written₁ _ _
      apply hpure
  | enableStartUnit =>
      cases state.unitName with
      | none => apply obeys_wrote_throw
      | some unitName =>
          apply obeys_wrote_bind (@obeys_wrote_perform _ _ _ _ (.enable unitName) id trivial fun _ => rfl)
          intro written₁ _ _
          apply obeys_wrote_bind (@obeys_wrote_perform _ _ _ _ (.start unitName) id trivial fun _ => rfl)
          intro written₂ _ _
          apply obeys_wrote_bind (@obeys_wrote_perform _ _ _ _ (.waitActive unitName 30) id trivial fun _ => rfl)
          intro written₃ _ _
          apply hpure
  | restorecon =>
      apply obeys_wrote_bind (obeys_wrote_run _)
      intro written₁ _ _
      apply hpure

/-- Steps write the drop-ins if one of them does. -/
theorem obeys_steps {total index : ℕ} {state : ExecutePlan.StepState} (planSteps : List PlanStep) :
  (ExecutePlan.steps settings params resolved total index state planSteps).run.Obeys
    (params.protocol settings)
    (Wrote written (planSteps.flatMap fun planStep => planStep.dropins settings) fun _ => True)
    (.sound written)
  := by
  induction planSteps generalizing written index state with
  | nil => apply @obeys_wrote_pure _ _ _ _ (fun _ => True) state trivial
  | cons planStep rest ih =>
      apply obeys_wrote_bind (@obeys_wrote_perform _ _ _ _
        (.progress index total planStep.description) id trivial fun _ => rfl)
      intro written₁ _ _
      apply obeys_wrote_bind (obeys_step state planStep)
      intro written₂ state' _
      apply ih

/-- The steps of a plan write the drop-ins. -/
theorem dropins_buildSteps {planSteps : List PlanStep} (h : buildSteps resolved = .ok planSteps) :
  dropinServices.map settings.dropinPath
    ⊆ planSteps.flatMap fun planStep => planStep.dropins settings
  := by
  have hvolume : ∀ pvDevice, ∃ planStep ∈ volumeSteps resolved pvDevice,
      planStep.op = .writeDropins := by
    intro pvDevice
    use ⟨"Update service drop-ins (RequiresMountsFor)", .writeDropins, []⟩
    simp [volumeSteps]
  obtain ⟨planStep, hmem, hop⟩ : ∃ planStep ∈ planSteps, planStep.op = .writeDropins := by
    simp only [buildSteps] at h
    split at h
    · split at h
      · cases h
      · rename_i partition _ _
        cases h
        obtain ⟨planStep, hmem, hop⟩ := hvolume partition
        exact ⟨planStep, List.mem_append_right _ hmem, hop⟩
    · cases h
      obtain ⟨planStep, hmem, hop⟩ := hvolume (arrayDevice resolved)
      exact ⟨planStep, List.mem_append_right _ (List.mem_cons_of_mem _ hmem), hop⟩
  intro path hpath
  apply List.mem_flatMap.mpr
  use planStep, hmem
  rw [PlanStep.dropins, if_pos hop]
  apply hpath

/-- What a job does with a resolved spec writes the drop-ins. -/
theorem obeys_executeSpec :
  (ExecutePlan.executeSpec settings params resolved).run.Obeys (params.protocol settings)
    (Wrote written (dropinServices.map settings.dropinPath) fun _ => True) (.sound written)
  := by
  rw [ExecutePlan.executeSpec]
  cases hsteps : buildSteps resolved with
  | error e => apply obeys_wrote_throw
  | ok planSteps =>
      rw [Async.ofExcept_ok_bind]
      have hall : (ExecutePlan.steps settings params resolved planSteps.length 0 ⟨none, ""⟩
          planSteps).run.Obeys (params.protocol settings)
            (Wrote written (dropinServices.map settings.dropinPath) fun _ => True)
            (.sound written) := by
        apply (obeys_steps planSteps).mono
        rintro (written₁ | _) result h
        · use h.1
          intro state hstate
          obtain ⟨hneeded, -⟩ := h.2 state hstate
          exact ⟨List.Subset.trans (dropins_buildSteps hsteps) hneeded, trivial⟩
        · trivial
      have hrest : ∀ written (state : ExecutePlan.StepState), (do
          ExceptT.mk (Coroutine.perform (StorageOp.makedirs
            (Path.join (Path.join resolved.mountpoint "@nasos") "tmp")))
          ExecutePlan.progress 1 1
            (String.ofList (Json.print Json.dumps (ExecutePlan.result resolved state.fsUuid))) :
          StorageM Unit).run.Obeys (params.protocol settings) (Wrote written [] fun _ => True)
            (.sound written) := by
        intro written state
        apply obeys_wrote_bind (@obeys_wrote_perform _ _ _ _ (.makedirs _) id trivial fun _ => rfl)
        intro written₁ _ _
        apply @obeys_wrote_perform _ _ _ _ (.progress 1 1 _) id trivial fun _ => rfl
      have hbind := obeys_wrote_bind hall fun written₁ state _ => hrest written₁ state
      rw [List.append_nil] at hbind
      apply hbind

/-- A job writes to the drop-ins only what its list makes of them, and all of them if it succeeds. -/
theorem obeys_body (settings : Settings) (params : StorageExecutePlanParams) :
  (ExecutePlan.body settings params).run.Obeys (params.protocol settings)
    (Wrote [] (dropinServices.map settings.dropinPath) fun _ => True) (.sound [])
  := by
  apply obeys_wrote_bind (@obeys_wrote_perform _ _ _ _
    (.progress 0 1 "Re-checking device safety") id trivial fun _ => rfl)
  intro written₁ _ _
  apply obeys_wrote_bind (@obeys_wrote_perform _ _ _ _ .gather id trivial fun _ => rfl)
  intro written₂ fresh _
  cases ExecutePlan.resolve params fresh with
  | error e => apply obeys_wrote_throw
  | ok resolved => apply obeys_executeSpec

end