import NasOs.Library.Traverse
import NasOs.Storage.Execute

/-!
# What the execution of a plan may write to

A plan is executed on the devices its serials resolve to.  The lookup of a serial goes
through the whole forest, the set of protected serials holds those of the disks at its
roots: a device below a root that carries a serial of its own is looked up, and not found
protected.  What the plan makes of its disks, a partition, an array or a logical volume, is not
looked up at all, though something may be there already.  `ExecutePlan.safe_iff` says when this
goes wrong.
-/

namespace ExecutePlan

/-! ### When a plan is resolved -/

/-- The device that a serial of a plan is looked up to in an inventory. -/
def carrier (fresh : StorageInventoryResult) (serial : String) : Option DiskNode :=
  bySerial fresh.disks serial

/-- A device of the inventory at the path hosts something in use. -/
def InUse (fresh : StorageInventoryResult) (path : String) : Prop :=
  ∃ node ∈ RoseTree.subtreesOf fresh.disks,
    node.value.path = path ∧ Hosts (protectedPvPaths fresh) node

/-- The serial is that of a disk at a root of the forest that hosts something in use, or
was marked to begin with. -/
def ProtectedDisk (fresh : StorageInventoryResult) (serial : String) : Prop :=
  ∃ disk ∈ fresh.disks, truthy disk.value.serial = some serial
    ∧ (disk.value.isProtected = true ∨ Hosts (protectedPvPaths fresh) disk)

/-- The device has the size recorded for the serial, if one is. -/
def HasExpectedSize (params : StorageExecutePlanParams) (serial : String) (node : DiskNode) :
    Prop :=
  ∀ expected, params.expectedSizes.lookup serial = some expected → node.value.size = expected

/-- The serial resolves: a device carries it, it is not that of a protected disk, and the
device it is looked up to has the recorded size. -/
def Accepts (params : StorageExecutePlanParams) (fresh : StorageInventoryResult)
    (serial : String) : Prop :=
  ∃ node, carrier fresh serial = some node ∧ ¬ ProtectedDisk fresh serial
    ∧ HasExpectedSize params serial node

/-- A serial is looked up in the marked inventory to the marked device. -/
theorem bySerial_computeProtected (fresh : StorageInventoryResult) (serial : String) :
  bySerial (computeProtected fresh).2.disks serial
    = (carrier fresh serial).map (mark (protectedPvPaths fresh))
  := by
  rw [carrier, bySerial, bySerial, subtreesOf_computeProtected, ← List.map_reverse,
    List.find?_map]
  congr 2
  funext node
  simp only [Function.comp_apply, (mark_fields node).2.1]

/-- The device a serial is looked up to is one of the inventory that carries it. -/
theorem carrier_spec {fresh : StorageInventoryResult} {serial : String} {node : DiskNode}
    (h : carrier fresh serial = some node) :
  node ∈ RoseTree.subtreesOf fresh.disks ∧ truthy node.value.serial = some serial
  := by
  constructor
  · apply List.mem_reverse.mp (List.mem_of_find?_eq_some h)
  · simpa using List.find?_some h

/-- A serial resolves to the path of the device it is looked up to, when it does. -/
theorem resolveSerial_iff {params : StorageExecutePlanParams} {fresh : StorageInventoryResult}
    {serial path : String} :
  resolveSerial (computeProtected fresh).2 (computeProtected fresh).1 params.expectedSizes serial
      = .ok path
    ↔ ∃ node, carrier fresh serial = some node ∧ ¬ ProtectedDisk fresh serial
        ∧ HasExpectedSize params serial node ∧ node.value.path = path
  := by
  have hprotected : serial ∈ (computeProtected fresh).1 ↔ ProtectedDisk fresh serial :=
    mem_computeProtected_iff fresh
  rw [resolveSerial, bySerial_computeProtected]
  cases carrier fresh serial with
  | none => simp
  | some node =>
      obtain ⟨hpath, -, hsize⟩ := @mark_fields (protectedPvPaths fresh) node
      simp only [Option.map_some, Option.some.injEq, exists_eq_left', hpath, hsize,
        HasExpectedSize]
      by_cases h : ProtectedDisk fresh serial
      · simp [h, if_pos (hprotected.mpr h)]
      · rw [if_neg (mt hprotected.mp h)]
        cases params.expectedSizes.lookup serial with
        | none => simp [h]
        | some expected =>
            by_cases hexpected : node.value.size = expected
            · simp [h, hexpected]
            · simp [h, hexpected]

/-- The path a serial of a plan resolves to. -/
def ResolvesTo (params : StorageExecutePlanParams) (fresh : StorageInventoryResult)
    (serial path : String) : Prop :=
  ∃ node, carrier fresh serial = some node ∧ ¬ ProtectedDisk fresh serial
    ∧ HasExpectedSize params serial node ∧ node.value.path = path

/-- A plan resolves to the paths that its serials resolve to. -/
theorem resolve_eq_ok_iff {params : StorageExecutePlanParams} {fresh : StorageInventoryResult}
    {resolved : StoragePlanSpec} :
  resolve params fresh = .ok resolved
    ↔ ∃ paths, List.Forall₂ (ResolvesTo params fresh) params.spec.diskSerials paths
        ∧ resolved = { params.spec with diskPaths := paths }
  := by
  have hmap : ∀ paths, params.spec.diskSerials.mapM (resolveSerial (computeProtected fresh).2
        (computeProtected fresh).1 params.expectedSizes) = .ok paths
      ↔ List.Forall₂ (ResolvesTo params fresh) params.spec.diskSerials paths := by
    intro paths
    rw [List.mapM_except_eq_ok_iff]
    simp only [resolveSerial_iff]
    rfl
  simp only [← hmap, resolve, resolveSpec]
  cases params.spec.diskSerials.mapM (resolveSerial (computeProtected fresh).2
      (computeProtected fresh).1 params.expectedSizes) with
  | error e => simp [Bind.bind, Except.bind]
  | ok paths => simp [Bind.bind, Except.bind, pure, Except.pure, eq_comm]

/-- A plan resolves when each of its serials does. -/
theorem exists_resolve_iff {params : StorageExecutePlanParams}
    {fresh : StorageInventoryResult} :
  (∃ resolved, resolve params fresh = .ok resolved)
    ↔ ∀ serial ∈ params.spec.diskSerials, Accepts params fresh serial
  := by
  have hpath : ∀ serial, (∃ path, ResolvesTo params fresh serial path)
      ↔ Accepts params fresh serial := by
    intro serial
    constructor
    · rintro ⟨path, node, hnode, hprotected, hsize, -⟩
      exact ⟨node, hnode, hprotected, hsize⟩
    · rintro ⟨node, hnode, hprotected, hsize⟩
      exact ⟨_, node, hnode, hprotected, hsize, rfl⟩
  simp only [← hpath, ← List.exists_forall₂_iff, resolve_eq_ok_iff]
  constructor
  · rintro ⟨resolved, paths, hpaths, -⟩
    exact ⟨paths, hpaths⟩
  · rintro ⟨paths, hpaths⟩
    exact ⟨_, paths, hpaths, rfl⟩

/-! ### What the job awaits -/

/-- The operations of a job once its plan is resolved: its commands write to what the plan
is to write to. -/
def Within (resolved : StoragePlanSpec) (op : StorageOp) : Prop :=
  op ≠ .gather ∧ ∀ argv, op = .run argv → ∀ device ∈ targets argv, device ∈ written resolved

section

variable {settings : Settings} {params : StorageExecutePlanParams} {resolved : StoragePlanSpec}

/-- A command that writes to what the plan is to write to. -/
theorem within_run {argv : List String} (h : ∀ device ∈ targets argv, device ∈ written resolved) :
  Within resolved (.run argv)
  := by
  constructor
  · rintro ⟨⟩
  · rintro _ ⟨⟩
    apply h

/-- An operation that runs no command. -/
theorem within_of_ne_run {op : StorageOp} (hgather : op ≠ .gather) (h : ∀ argv, op ≠ .run argv) :
  Within resolved op
  := by
  use hgather
  intro argv hargv
  apply absurd hargv (h argv)

/-- A single operation awaits itself. -/
theorem awaits_perform {P : StorageOp → Prop} {op : StorageOp} (h : P op) :
  (Coroutine.perform op : Coroutine StorageOp StorageOp.Answer _).Awaits P
  := by
  use h
  intro r
  trivial

theorem awaits_writeAndApply (path content : String) :
  (writeAndApply settings path content).run.Awaits (Within resolved)
  := by
  apply Coroutine.awaits_exceptT_bind
  · apply awaits_perform (within_of_ne_run (by simp) (by simp))
  · intro previous
    apply Coroutine.awaits_exceptT_bind
    · apply awaits_perform (within_run (by simp [targets]))
    · intro _
      split
      · apply awaits_perform (within_of_ne_run (by simp) (by simp))
      · apply Coroutine.awaits_pure

theorem awaits_mountUnitName (mountpoint : String) :
  (mountUnitName mountpoint).run.Awaits (Within resolved)
  := by
  apply Coroutine.awaits_exceptT_bind
  · apply awaits_perform (within_run (by simp [targets]))
  · intro result
    apply Coroutine.awaits_exceptT_bind (Async.awaits_raiseIf _ _)
    intro _
    apply Coroutine.awaits_pure

theorem awaits_writeDropins (mountpoints units : List String) :
  (writeDropins settings mountpoints units).run.Awaits (Within resolved)
  := by
  induction units with
  | nil => apply Coroutine.awaits_pure
  | cons unit units ih =>
      apply Coroutine.awaits_exceptT_bind (awaits_writeAndApply _ _)
      intro _
      apply ih

/-- A step awaits its own command and operations that write to no device. -/
theorem awaits_step (state : StepState) {planStep : PlanStep}
    (hstep : ∀ device ∈ targets planStep.argv, device ∈ written resolved) :
  (step settings params resolved state planStep).run.Awaits (Within resolved)
  := by
  rw [step]
  split
  · apply Coroutine.awaits_exceptT_bind
    · apply awaits_perform (within_run hstep)
    · intro result
      apply Coroutine.awaits_exceptT_bind (Async.awaits_raiseIf _ _)
      intro _
      apply Coroutine.awaits_pure
  · apply Coroutine.awaits_exceptT_bind
    · apply awaits_perform (within_run (by simp [targets]))
    · intro blkidResult
      apply Coroutine.awaits_exceptT_bind (awaits_mountUnitName _)
      intro unitName
      apply Coroutine.awaits_exceptT_bind (awaits_writeAndApply _ _)
      intro _
      apply Coroutine.awaits_pure
  · apply Coroutine.awaits_exceptT_bind (awaits_writeAndApply _ _)
    intro _
    apply Coroutine.awaits_pure
  · apply Coroutine.awaits_exceptT_bind (awaits_writeDropins _ _)
    intro _
    apply Coroutine.awaits_pure
  · apply Coroutine.awaits_exceptT_bind
    · apply awaits_perform (within_of_ne_run (by simp) (by simp))
    · intro _
      apply Coroutine.awaits_pure
  · split
    · apply Coroutine.awaits_throw
    · apply Coroutine.awaits_exceptT_bind
      · apply awaits_perform (within_of_ne_run (by simp) (by simp))
      · intro _
        apply Coroutine.awaits_exceptT_bind
        · apply awaits_perform (within_of_ne_run (by simp) (by simp))
        · intro _
          apply Coroutine.awaits_exceptT_bind
          · apply awaits_perform (within_of_ne_run (by simp) (by simp))
          · intro _
            apply Coroutine.awaits_pure
  · apply Coroutine.awaits_exceptT_bind
    · apply awaits_perform (within_run (by simp [targets]))
    · intro _
      apply Coroutine.awaits_pure

/-- Steps await the commands of each of them. -/
theorem awaits_steps (total : ℕ) {planSteps : List PlanStep}
    (h : ∀ planStep ∈ planSteps, ∀ device ∈ targets planStep.argv, device ∈ written resolved) :
    ∀ index state, (steps settings params resolved total index state planSteps).run.Awaits
      (Within resolved)
  := by
  induction planSteps with
  | nil =>
      intro index state
      apply Coroutine.awaits_pure
  | cons planStep planSteps ih =>
      intro index state
      apply Coroutine.awaits_exceptT_bind
      · apply awaits_perform (within_of_ne_run (by simp) (by simp))
      · intro _
        apply Coroutine.awaits_exceptT_bind (awaits_step state (h planStep List.mem_cons_self))
        intro state
        apply ih fun s hs => h s (List.mem_cons_of_mem _ hs)

/-- A resolved plan is executed on what it is to write to. -/
theorem awaits_executeSpec :
  (executeSpec settings params resolved).run.Awaits (Within resolved)
  := by
  rw [executeSpec]
  cases hsteps : buildSteps resolved with
  | error e => apply Coroutine.awaits_throw
  | ok planSteps =>
      rw [Async.ofExcept_ok_bind]
      apply Coroutine.awaits_exceptT_bind
      · apply awaits_steps
        intro planStep hmem device hdevice
        apply (mem_written_iff hsteps).mpr
        exact ⟨planStep, hmem, hdevice⟩
      · intro state
        apply Coroutine.awaits_exceptT_bind
        · apply awaits_perform (within_of_ne_run (by simp) (by simp))
        · intro _
          apply awaits_perform (within_of_ne_run (by simp) (by simp))

end

/-! ### The job -/

section

variable {settings : Settings} {params : StorageExecutePlanParams}
  {fresh : StorageInventoryResult} {h : List (Event StorageOp StorageOp.Answer)}
  {c : Coroutine StorageOp StorageOp.Answer (Except Exc Unit)}

/-- What the job does with an inventory. -/
def afterGather (settings : Settings) (params : StorageExecutePlanParams)
    (fresh : StorageInventoryResult) : StorageM Unit := do
  let resolved ← Async.ofExcept (resolve params fresh)
  executeSpec settings params resolved

/-- The job gathers an inventory, and then does the rest with it. -/
theorem follows_body (hf : (body settings params).run.Follows h c)
    (hfresh : ⟨.gather, .ok fresh⟩ ∈ h) :
  ∃ h', h = ⟨.progress 0 1 "Re-checking device safety", .ok ()⟩ :: ⟨.gather, .ok fresh⟩ :: h'
    ∧ (afterGather settings params fresh).run.Follows h' c
  := by
  have hbody : (body settings params).run
      = .await (.progress 0 1 "Re-checking device safety") fun
          | .error e => .done (.error e)
          | .ok () => .await .gather fun
              | .error e => .done (.error e)
              | .ok fresh => (afterGather settings params fresh).run := by
    apply congrArg (Coroutine.await _)
    funext r
    rcases r with e | ⟨⟩
    · rfl
    · apply congrArg (Coroutine.await StorageOp.gather)
      funext r
      rcases r with e | fresh
      · rfl
      · rfl
  rw [hbody, Coroutine.follows_await] at hf
  rcases hf with ⟨rfl, -⟩ | ⟨e | ⟨⟩, h₁, rfl, hf⟩
  · cases hfresh
  · obtain ⟨rfl, -⟩ := Coroutine.follows_done.mp hf
    simp at hfresh
  rcases Coroutine.follows_await.mp hf with ⟨rfl, -⟩ | ⟨e | fresh', h', rfl, hrest⟩
  · simp at hfresh
  · obtain ⟨rfl, -⟩ := Coroutine.follows_done.mp hrest
    simp at hfresh
  · have hgather : ∀ event ∈ h', event.1 ≠ .gather := by
      cases hresolve : resolve params fresh' with
      | error e =>
          simp only [afterGather, hresolve] at hrest
          obtain ⟨rfl, -⟩ := Coroutine.follows_done.mp hrest
          simp
      | ok resolved =>
          simp only [afterGather, hresolve, Async.ofExcept_ok_bind] at hrest
          intro event hevent
          apply ((hrest.awaits awaits_executeSpec).1 event hevent).1
    simp only [List.mem_cons, Sigma.mk.injEq, reduceCtorEq, false_and, false_or] at hfresh
    rcases hfresh with ⟨-, heq⟩ | hmem
    · cases heq
      exact ⟨h', rfl, hrest⟩
    · apply absurd rfl (hgather _ hmem)

/-- The path is that of a device that carries the serial, hosts nothing in use and has the
recorded size, and no device there hosts anything in use. -/
def FreePath (params : StorageExecutePlanParams) (fresh : StorageInventoryResult)
    (serial path : String) : Prop :=
  (∃ node ∈ RoseTree.subtreesOf fresh.disks, truthy node.value.serial = some serial
      ∧ node.value.path = path ∧ ¬ Hosts (protectedPvPaths fresh) node
      ∧ HasExpectedSize params serial node)
    ∧ ¬ InUse fresh path

/-- The job on a fresh inventory: the paths it resolves are free, or else it fails before
any step; and its commands write only to devices of the resolved plan, whose disks are
free, and to none that hosts something in use. -/
structure SafeExecution (settings : Settings) (params : StorageExecutePlanParams)
    (fresh : StorageInventoryResult) : Prop where
  resolved : ∀ resolved, resolve params fresh = .ok resolved →
    List.Forall₂ (FreePath params fresh) params.spec.diskSerials resolved.diskPaths
  failed : ∀ e, resolve params fresh = .error e → ∀ h c,
    (body settings params).run.Follows h c → ⟨.gather, .ok fresh⟩ ∈ h →
      c = .done (.error e) ∧ h = [⟨.progress 0 1 "Re-checking device safety", .ok ()⟩,
        ⟨.gather, .ok fresh⟩]
  commands : ∀ h c, (body settings params).run.Follows h c → ⟨.gather, .ok fresh⟩ ∈ h →
    ∀ event ∈ h, ∀ argv, event.1 = .run argv → ∀ device ∈ targets argv,
      (∃ resolved, resolve params fresh = .ok resolved ∧ MadeOf resolved device
        ∧ ∀ disk ∈ resolved.diskPaths, ¬ InUse fresh disk)
      ∧ ¬ InUse fresh device

/-- A job whose plan does not resolve ends there. -/
theorem failed_of_resolve_eq_error {e : Exc} (hresolve : resolve params fresh = .error e)
    (hf : (body settings params).run.Follows h c) (hfresh : ⟨.gather, .ok fresh⟩ ∈ h) :
  c = .done (.error e) ∧ h = [⟨.progress 0 1 "Re-checking device safety", .ok ()⟩,
    ⟨.gather, .ok fresh⟩]
  := by
  obtain ⟨h', rfl, hrest⟩ := follows_body hf hfresh
  simp only [afterGather, hresolve] at hrest
  obtain ⟨rfl, rfl⟩ := Coroutine.follows_done.mp hrest
  exact ⟨rfl, rfl⟩

/-- The commands of a job write to what its resolved plan is to write to. -/
theorem written_of_command (hf : (body settings params).run.Follows h c)
    (hfresh : ⟨.gather, .ok fresh⟩ ∈ h) {event : Event StorageOp StorageOp.Answer}
    (hevent : event ∈ h) {argv : List String} (hargv : event.1 = .run argv) {device : String}
    (hdevice : device ∈ targets argv) :
  ∃ resolved, resolve params fresh = .ok resolved ∧ device ∈ written resolved
  := by
  obtain ⟨h', rfl, hrest⟩ := follows_body hf hfresh
  cases hresolve : resolve params fresh with
  | error e =>
      simp only [afterGather, hresolve] at hrest
      obtain ⟨rfl, -⟩ := Coroutine.follows_done.mp hrest
      simp only [List.mem_cons, List.not_mem_nil, or_false] at hevent
      rcases hevent with rfl | rfl
      · cases hargv
      · cases hargv
  | ok resolved =>
      simp only [afterGather, hresolve, Async.ofExcept_ok_bind] at hrest
      use resolved, rfl
      rcases List.mem_cons.mp hevent with rfl | hevent
      · cases hargv
      rcases List.mem_cons.mp hevent with rfl | hevent
      · cases hargv
      · apply ((hrest.awaits awaits_executeSpec).1 event hevent).2 argv hargv device hdevice

/-- Commands are run one after the other while they succeed. -/
theorem exists_follows_commands {resolved : StoragePlanSpec} {total : ℕ} {commands : List PlanStep}
    (hop : ∀ planStep ∈ commands, planStep.op = .run) (rest : List PlanStep) (index : ℕ)
    (state : StepState) :
  ∃ h, (steps settings params resolved total index state (commands ++ rest)).run.Follows h
      (steps settings params resolved total (index + commands.length) state rest).run
    ∧ ∀ planStep ∈ commands, ∃ event ∈ h, event.1 = .run planStep.argv
  := by
  induction commands generalizing index with
  | nil =>
      use []
      use Coroutine.Follows.nil _
      simp
  | cons planStep commands ih =>
      obtain ⟨h, hf, hrun⟩ := ih (fun s hs => hop s (List.mem_cons_of_mem _ hs)) (index + 1)
      rw [Nat.add_assoc, Nat.add_comm 1] at hf
      refine ⟨⟨.progress index total planStep.description, .ok ()⟩ ::
        ⟨.run planStep.argv, .ok ⟨0, "", ""⟩⟩ :: h, ?_, ?_⟩
      · rw [List.cons_append, steps, step, hop planStep List.mem_cons_self]
        exact Coroutine.Follows.cons (Coroutine.Follows.cons hf)
      · intro s hs
        rcases List.mem_cons.mp hs with rfl | hs
        · exact ⟨_, List.mem_cons_of_mem _ List.mem_cons_self, rfl⟩
        · obtain ⟨event, hevent, hargv⟩ := hrun s hs
          exact ⟨event, List.mem_cons_of_mem _ (List.mem_cons_of_mem _ hevent), hargv⟩

/-- Whatever a resolved plan is to write to is written to by a command of the job, if those before it
succeed. -/
theorem exists_command_of_written {resolved : StoragePlanSpec}
    (hresolve : resolve params fresh = .ok resolved) {device : String} (hdevice : device ∈ written resolved) :
  ∃ h c, (body settings params).run.Follows h c ∧ ⟨.gather, .ok fresh⟩ ∈ h
    ∧ ∃ event ∈ h, ∃ argv, event.1 = .run argv ∧ device ∈ targets argv
  := by
  cases hsteps : buildSteps resolved with
  | error e =>
      -- without disks, a plan for a single one cannot be built
      have hnone : written resolved = [] := by
        rw [buildSteps] at hsteps
        rw [written]
        cases hdisks : resolved.diskPaths with
        | nil =>
            cases hlevel : resolved.level with
            | basic => rfl
            | _ => simp [hlevel] at hsteps
        | cons disk disks =>
            cases hlevel : resolved.level with
            | _ => simp [hlevel, hdisks] at hsteps
      rw [hnone] at hdevice
      cases hdevice
  | ok planSteps =>
      obtain ⟨commands, rest, rfl, hop, hrest⟩ := exists_append_of_buildSteps hsteps
      obtain ⟨h, hf, hrun⟩ := @exists_follows_commands settings params resolved
        (commands ++ rest).length commands hop rest 0 ⟨none, ""⟩
      have hexecute : ∃ c, (executeSpec settings params resolved).run.Follows h c := by
        rw [executeSpec, hsteps, Async.ofExcept_ok_bind, ExceptT.run_bind]
        exact ⟨_, Coroutine.follows_bind.mpr (.inl ⟨_, hf, rfl⟩)⟩
      obtain ⟨c, hc⟩ := hexecute
      have hafter : (afterGather settings params fresh).run.Follows h c := by
        rw [afterGather, hresolve, Async.ofExcept_ok_bind]
        exact hc
      refine ⟨⟨.progress 0 1 "Re-checking device safety", .ok ()⟩ :: ⟨.gather, .ok fresh⟩ :: h, c, ?_, ?_,
        ?_⟩
      · exact Coroutine.Follows.cons (Coroutine.Follows.cons hafter)
      · exact List.mem_cons_of_mem _ List.mem_cons_self
      · obtain ⟨planStep, hmem, htarget⟩ := (mem_written_iff hsteps).mp hdevice
        rcases List.mem_append.mp hmem with hmem | hmem
        · obtain ⟨event, hevent, hargv⟩ := hrun planStep hmem
          exact ⟨event, List.mem_cons_of_mem _ (List.mem_cons_of_mem _ hevent), _, hargv, htarget⟩
        · rw [hrest planStep hmem] at htarget
          cases htarget

/-- The paths are those of the devices that the serials of a plan are looked up to. -/
def LookedUp (params : StorageExecutePlanParams) (fresh : StorageInventoryResult) (paths : List String) :
    Prop :=
  List.Forall₂ (fun serial path => ∃ node, carrier fresh serial = some node ∧ node.value.path = path)
    params.spec.diskSerials paths

/-- The serials are looked up in one way. -/
theorem LookedUp.unique {paths paths' : List String} (hpaths : LookedUp params fresh paths)
    (hpaths' : LookedUp params fresh paths') :
  paths = paths'
  := by
  apply List.right_unique_forall₂' _ hpaths hpaths'
  rintro serial path path' ⟨node, hnode, rfl⟩ ⟨node', hnode', rfl⟩
  cases hnode.symm.trans hnode'
  rfl

/-- The execution of a plan whose serials are not resolved is safe: it fails before any step. -/
theorem safe_of_not_resolved {settings : Settings} {params : StorageExecutePlanParams}
    {fresh : StorageInventoryResult} (hno : ∀ resolved, resolve params fresh ≠ .ok resolved) :
  SafeExecution settings params fresh
  := by
  constructor
  · intro resolved hresolved
    apply absurd hresolved (hno resolved)
  · intro e he h c hf hfresh
    apply failed_of_resolve_eq_error he hf hfresh
  · intro h c hf hfresh event hevent argv hargv device hdevice
    obtain ⟨resolved, hresolved, -⟩ := written_of_command hf hfresh hevent hargv hdevice
    apply absurd hresolved (hno resolved)

/-- The execution of a plan whose serials are resolved is safe when nothing that it writes is in use. -/
theorem safe_of_free {settings : Settings} {params : StorageExecutePlanParams}
    {fresh : StorageInventoryResult} {paths : List String}
    (hresolved : resolve params fresh = .ok { params.spec with diskPaths := paths })
    (hpaths : List.Forall₂ (ResolvesTo params fresh) params.spec.diskSerials paths)
    (hfree : ∀ device ∈ written { params.spec with diskPaths := paths }, ¬ InUse fresh device) :
  SafeExecution settings params fresh
  := by
  constructor
  · intro resolved' hresolved'
    cases hresolved.symm.trans hresolved'
    apply List.forall₂_imp_of_mem hpaths
    rintro serial path hmem ⟨node, hnode, -, hsize, rfl⟩
    have hinUse := hfree _ (mem_written_of_disk hmem)
    obtain ⟨hnodeMem, hserial⟩ := carrier_spec hnode
    constructor
    · use node, hnodeMem, hserial, rfl, fun hhosts => hinUse ⟨node, hnodeMem, rfl, hhosts⟩
    · apply hinUse
  · intro e he
    cases hresolved.symm.trans he
  · intro h c hf hfresh event hevent argv hargv device hdevice
    obtain ⟨resolved', hresolved', hwritten⟩ :=
      written_of_command hf hfresh hevent hargv hdevice
    cases hresolved.symm.trans hresolved'
    constructor
    · refine ⟨_, hresolved, madeOf_of_mem_written hwritten, ?_⟩
      intro disk hdisk
      exact hfree disk (mem_written_of_disk hdisk)
    · exact hfree device hwritten

/-- The execution of a plan is safe on an inventory exactly when no device at the path of
the last carrier of a serial of the plan hosts something in use, nor does any at the path of a partition,
of the array or of the logical volume that the plan makes; or a serial of the plan is not accepted. -/
theorem safe_iff (settings : Settings) (params : StorageExecutePlanParams)
    (fresh : StorageInventoryResult) :
  SafeExecution settings params fresh
    ↔ (∀ paths, LookedUp params fresh paths →
          ∀ device ∈ written { params.spec with diskPaths := paths }, ¬ InUse fresh device)
      ∨ ∃ serial ∈ params.spec.diskSerials, ¬ Accepts params fresh serial
  := by
  by_cases haccepts : ∀ serial ∈ params.spec.diskSerials, Accepts params fresh serial
  · obtain ⟨resolved, hresolved⟩ := exists_resolve_iff.mpr haccepts
    obtain ⟨paths, hpaths, rfl⟩ := resolve_eq_ok_iff.mp hresolved
    have hlookedUp : LookedUp params fresh paths := by
      apply hpaths.imp
      rintro serial path ⟨node, hnode, -, -, hpath⟩
      exact ⟨node, hnode, hpath⟩
    constructor
    · intro hsafe
      left
      intro paths' hpaths' device hdevice
      cases hpaths'.unique hlookedUp
      obtain ⟨h, c, hf, hfresh, event, hevent, argv, hargv, htarget⟩ :=
        @exists_command_of_written settings params fresh _ hresolved device hdevice
      exact (hsafe.commands h c hf hfresh event hevent argv hargv device htarget).2
    · intro hcond
      apply safe_of_free hresolved hpaths
      apply hcond.resolve_right _ paths hlookedUp
      rintro ⟨serial, hserial, hno⟩
      apply hno (haccepts serial hserial)
  · have hfails : ∃ serial ∈ params.spec.diskSerials, ¬ Accepts params fresh serial := by
      by_contra hall
      apply haccepts
      intro serial hserial
      by_contra hno
      apply hall ⟨serial, hserial, hno⟩
    apply iff_of_true
    · apply safe_of_not_resolved
      intro resolved hresolved
      apply haccepts (exists_resolve_iff.mp ⟨resolved, hresolved⟩)
    · right
      apply hfails

end

/-! ### A partition with a serial of its own -/

/-- The root partition of a disk, which carries a serial of its own. -/
def rootPartition : BlockDevice :=
  { name := "sda1"
    path := "/dev/sda1"
    type := "part"
    serial := some "P1"
    model := none
    wwn := none
    size := 4000
    rota := false
    transport := "sata"
    fstype := some "xfs"
    mountpoint := some "/"
    uuid := none
    isProtected := false
    protectedReason := none }

/-- The inventory of the disk. -/
def rootInventory : StorageInventoryResult :=
  { disks := [.node { rootPartition with
      name := "sda", path := "/dev/sda", type := "disk", serial := some "S0", mountpoint := none,
      fstype := none } [.node rootPartition []]]
    vgs := []
    lvs := [] }

/-- A plan on the serial of the partition. -/
def rootPlan : StorageExecutePlanParams :=
  { spec :=
      { volumeName := "volume1"
        level := .basic
        filesystem := .xfs
        diskPaths := ["/dev/sda1"]
        diskSerials := ["P1"]
        arrayName := "volume1"
        vgName := "nasos_volume1"
        lvName := "volume1"
        mountpoint := "/volume/volume1" }
    expectedSizes := [("P1", 4000)]
    managedMountpoints := ["/volume/volume1"] }

/-- The job on that inventory, up to its first command. -/
def rootHistory : List (Event StorageOp StorageOp.Answer) :=
  [⟨.progress 0 1 "Re-checking device safety", .ok ()⟩, ⟨.gather, .ok rootInventory⟩,
    ⟨.progress 0 12 "Wipe existing signatures on /dev/sda1", .ok ()⟩,
    ⟨.run ["wipefs", "-a", "/dev/sda1"], .ok ⟨0, "", ""⟩⟩]

/-- The signatures of a mounted root partition are wiped. -/
theorem wipes_root_partition :
  ¬ ∀ settings params fresh, SafeExecution settings params fresh
  := by
  intro hsafe
  obtain ⟨c, hf⟩ : ∃ c, (body ⟨false, "", "/var/lib/nasos"⟩ rootPlan).run.Follows rootHistory c :=
    Coroutine.follows_of_replay (by decide)
  have hfree := ((hsafe _ rootPlan rootInventory).commands _ c hf (by simp [rootHistory])
    ⟨.run ["wipefs", "-a", "/dev/sda1"], .ok ⟨0, "", ""⟩⟩ (by simp [rootHistory]) _ rfl
    "/dev/sda1" (by simp [targets])).2
  apply hfree
  use .node rootPartition [], by simp [rootInventory, RoseTree.subtreesOf, RoseTree.subtrees], rfl
  decide

end ExecutePlan
