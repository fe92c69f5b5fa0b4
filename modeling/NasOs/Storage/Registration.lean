import NasOs.Library.JsonReading
import NasOs.Storage.Dropins
import NasOs.Storage.Safety
import NasOs.Storage.Submission

/-!
# The drop-ins and the volumes

The list that a job writes to the drop-ins is made by the request that has it submitted, of the volumes
that are registered then.  A volume is registered only some time after its job is done, so a list
that is made in between lacks it, and a job that runs later takes it out of the drop-ins.

When lists are made only while no job is pending, one at a time, and once the volumes of all jobs that
are done are registered, the drop-ins always list those volumes.
-/

/-- A drop-in lists a mountpoint. -/
def ListsMountpoint (content : Option String) (mountpoint : String) : Prop :=
  ∃ mountpoints, content = some (renderServiceDropin mountpoints) ∧ mountpoint ∈ mountpoints

/-- The list of a request was made, and its job is to be submitted. -/
def PlanOp.isSubmission : PlanOp → Bool
  | .executePlan _ => true
  | _ => false

/-- A list is made only when no job is pending, no other list is to be submitted, and every volume whose
job is done is registered. -/
def ListsApart (p : PlanPool) : Pool.Label PlanChoice StorageEvent → Prop
  | .task i _ => p.pendingOf i = some .managedMountpoints →
      (∀ job ∈ p.world.jobs, job.isPending = false)
        ∧ (∀ j < p.tasks.length, j ≠ i → (p.pendingOf j).any PlanOp.isSubmission = false)
        ∧ ∀ job ∈ p.world.jobs, job.status = .done →
            job.params.spec.mountpoint ∈ p.world.managedMountpoints
  | .environment _ => True

instance (p : PlanPool) (l : Pool.Label PlanChoice StorageEvent) : Decidable (ListsApart p l) :=
  match l with
  | .task i _ => inferInstanceAs (Decidable (p.pendingOf i = some .managedMountpoints →
      (∀ job ∈ p.world.jobs, job.isPending = false)
        ∧ (∀ j < p.tasks.length, j ≠ i → (p.pendingOf j).any PlanOp.isSubmission = false)
        ∧ ∀ job ∈ p.world.jobs, job.status = .done →
            job.params.spec.mountpoint ∈ p.world.managedMountpoints))
  | .environment _ => isTrue trivial

/-- A running job that has written drop-ins left its list in them. -/
def PlanJob.Sound (settings : Settings) (files : String → Option String) (job : PlanJob) : Prop :=
  ∃ written,
    job.body.Obeys (job.params.protocol settings)
        (Wrote [] (dropinServices.map settings.dropinPath) fun _ => True) (.sound written)
      ∧ ∀ unit ∈ dropinServices, settings.dropinPath unit ∈ written →
          files (settings.dropinPath unit)
            = some (renderServiceDropin job.params.managedMountpoints)

/-- What the jobs say about the drop-ins. -/
structure JobsInv (settings : Settings) (world : StorageWorld) : Prop where
  /-- The list of a job has the mountpoint of its plan. -/
  own : ∀ job ∈ world.jobs, job.params.spec.mountpoint ∈ job.params.managedMountpoints
  /-- What is left of a pending job keeps to its protocol. -/
  sound : ∀ job ∈ world.jobs, job.isPending → job.Sound settings world.files
  /-- One job is pending at most. -/
  one : ∀ (k k' : ℕ) (job job' : PlanJob), world.jobs[k]? = some job → job.isPending →
    world.jobs[k']? = some job' → job'.isPending → k = k'
  /-- The drop-ins list the volumes of the jobs that are done. -/
  lists : ∀ job ∈ world.jobs, job.status = .done → ∀ unit ∈ dropinServices,
    ListsMountpoint (world.files (settings.dropinPath unit)) job.params.spec.mountpoint
  /-- So does the list of a job that is pending. -/
  listed : ∀ job ∈ world.jobs, job.isPending → ∀ done ∈ world.jobs, done.status = .done →
    done.params.spec.mountpoint ∈ job.params.managedMountpoints

/-- The invariant of requests and jobs: while a list is to be submitted no job is pending, it is the only
one, and it has the volumes of the jobs that are done. -/
structure DropinsInv (settings : Settings) (stages : ℕ → RequestStage) (p : PlanPool) : Prop where
  jobs : JobsInv settings p.world
  alone : ∀ i j params params', p.pendingOf i ≠ none → stages i = .ready params →
    p.pendingOf j ≠ none → stages j = .ready params' → i = j
  calm : ∀ i params, p.pendingOf i ≠ none → stages i = .ready params →
    ∀ job ∈ p.world.jobs, job.isPending = false
  own : ∀ i params, p.pendingOf i ≠ none → stages i = .ready params →
    params.spec.mountpoint ∈ params.managedMountpoints
  listed : ∀ i params, p.pendingOf i ≠ none → stages i = .ready params →
    ∀ done ∈ p.world.jobs, done.status = .done →
      done.params.spec.mountpoint ∈ params.managedMountpoints

section

variable {settings : Settings} {world world' : StorageWorld} {job : PlanJob} {op : StorageOp}
  {resume : op.Answer → Coroutine StorageOp StorageOp.Answer (Except Exc Unit)} {choice : JobChoice}
  {k : ℕ}

/-- A drop-in after an operation of a job is what it was, or what the list of the job makes of it. -/
theorem filesAfter_dropin {files : String → Option String} {written : List String}
    {params : StorageExecutePlanParams} {unit : String} (hunit : unit ∈ dropinServices)
    (hallowed : (params.protocol settings).allowed (.sound written) op) :
  op.filesAfter choice files (settings.dropinPath unit) = files (settings.dropinPath unit)
    ∨ op.filesAfter choice files (settings.dropinPath unit)
      = some (renderServiceDropin params.managedMountpoints)
  := by
  cases op with
  | writeAtomic path content =>
      rw [StorageOp.filesAfter]
      split
      · by_cases hpath : settings.dropinPath unit = path
        · right
          subst hpath
          rw [Function.update_self, hallowed ⟨unit, hunit, rfl⟩]
        · left
          apply Function.update_of_ne hpath
      · left
        rfl
  | _ =>
      left
      rfl

/-- A job that is answered goes on as it should. -/
theorem PlanJob.Sound.answer {files : String → Option String} (h : job.Sound settings files)
    (hbody : job.body = .await op resume) (hallows : op.allows choice = true) (message : String) :
  ({ job with message := message, body := resume (op.answer files choice) } : PlanJob).Sound settings
    (op.filesAfter choice files)
  := by
  obtain ⟨written, hobeys, hfiles⟩ := h
  rw [hbody] at hobeys
  obtain ⟨hallowed, hresume⟩ := hobeys
  have hrest := hresume (op.answer files choice)
  have hkept : ∀ unit ∈ dropinServices, settings.dropinPath unit ∈ written →
      op.filesAfter choice files (settings.dropinPath unit)
        = some (renderServiceDropin job.params.managedMountpoints) := by
    intro unit hunit hwritten
    rcases filesAfter_dropin hunit hallowed with hsame | hnew
    · rw [hsame, hfiles unit hunit hwritten]
    · apply hnew
  cases op with
  | writeAtomic path content =>
      cases hraises : choice.raises with
      | some e =>
          simp only [StorageOp.answer, JobChoice.deliver, hraises] at hrest ⊢
          exact ⟨written, hrest, hkept⟩
      | none =>
          simp only [StorageOp.answer, JobChoice.deliver, hraises] at hrest ⊢
          refine ⟨path :: written, hrest, ?_⟩
          intro unit hunit hwritten
          rcases List.mem_cons.mp hwritten with hpath | hwritten
          · subst hpath
            simp only [StorageOp.filesAfter, hraises, or_true, if_true, Function.update_self]
            rw [hallowed ⟨unit, hunit, rfl⟩]
          · apply hkept unit hunit hwritten
  | run argv =>
      have hnext : (job.params.protocol settings).next (.sound written) (.run argv)
          ((StorageOp.run argv).answer files choice) = .sound written := by
        cases hraises : choice.raises with
        | some e =>
            simp only [StorageOp.answer, JobChoice.deliver, hraises]
            rfl
        | none =>
            simp only [StorageOp.answer, JobChoice.deliver, hraises]
            apply if_neg
            rintro ⟨hescape, hslash⟩
            obtain ⟨args, rfl⟩ : ∃ args, argv = "systemd-escape" :: args := by
              cases argv with
              | nil => cases hescape
              | cons arg args =>
                  cases hescape
                  use args
            simp [StorageOp.allows, hslash] at hallows
      rw [hnext] at hrest
      exact ⟨written, hrest, hkept⟩
  | _ => exact ⟨written, hrest, hkept⟩

/-- A job of which nothing changes but its status, which stays pending or not, changes nothing. -/
theorem JobsInv.touch {job' : PlanJob} (h : JobsInv settings world)
    (hjob : world.jobs[k]? = some job) (hparams : job'.params = job.params)
    (hbody : job'.body = job.body) (hpending : job'.isPending = job.isPending)
    (hdone : job'.status = .done → job.status = .done) :
  JobsInv settings { world with jobs := world.jobs.set k job' }
  := by
  have hmem : job ∈ world.jobs := List.mem_of_getElem? hjob
  have hold : ∀ other ∈ world.jobs.set k job', ∃ old ∈ world.jobs, other.params = old.params
      ∧ other.body = old.body ∧ other.isPending = old.isPending
      ∧ (other.status = .done → old.status = .done) := by
    intro other hother
    rcases List.mem_or_eq_of_mem_set hother with hother | rfl
    · exact ⟨other, hother, rfl, rfl, rfl, id⟩
    · exact ⟨job, hmem, hparams, hbody, hpending, hdone⟩
  have hget : ∀ (m : ℕ) (other : PlanJob), (world.jobs.set k job')[m]? = some other →
      ∃ old, world.jobs[m]? = some old ∧ other.isPending = old.isPending := by
    intro m other hother
    rw [List.getElem?_set] at hother
    split at hother
    · rename_i hm
      subst hm
      split at hother
      · cases hother
        exact ⟨job, hjob, hpending⟩
      · cases hother
    · exact ⟨other, hother, rfl⟩
  constructor
  · intro other hother
    obtain ⟨old, hold, hp, -⟩ := hold other hother
    rw [hp]
    apply h.own old hold
  · intro other hother hisPending
    obtain ⟨old, hold, hp, hb, hpend, -⟩ := hold other hother
    rw [hpend] at hisPending
    obtain ⟨written, hobeys, hfiles⟩ := h.sound old hold hisPending
    use written
    rw [hp, hb]
    exact ⟨hobeys, hfiles⟩
  · intro m m' other other' hother hpend hother' hpend'
    obtain ⟨old, hold, heq⟩ := hget m other hother
    obtain ⟨old', hold', heq'⟩ := hget m' other' hother'
    apply h.one m m' old old' hold (heq ▸ hpend) hold' (heq' ▸ hpend')
  · intro other hother hstatus
    obtain ⟨old, hold, hp, -, -, hd⟩ := hold other hother
    rw [hp]
    apply h.lists old hold (hd hstatus)
  · intro other hother hpend done hdone hstatus
    obtain ⟨old, hold', hp, -, heq, -⟩ := hold other hother
    obtain ⟨old₂, hold₂, hp₂, -, -, hd⟩ := hold done hdone
    rw [hp, hp₂]
    apply h.listed old hold' (heq ▸ hpend) old₂ hold₂ (hd hstatus)

/-- A job ends as pending only if it goes on. -/
theorem PlanJob.settle_cases (job : PlanJob) :
  (∃ op resume, job.body = .await op resume ∧ job.settle = job)
    ∨ (job.settle.isPending = false ∧ job.settle.params = job.params
      ∧ (job.settle.status = .done → job.body = .done (.ok ())))
  := by
  rw [settle]
  split
  · rename_i hbody
    right
    cases job.cancelRequested with
    | true => exact ⟨rfl, rfl, fun h => by cases h⟩
    | false => exact ⟨rfl, rfl, fun _ => hbody⟩
  · right
    exact ⟨rfl, rfl, fun h => by cases h⟩
  · rename_i op resume hbody
    left
    exact ⟨op, resume, hbody, rfl⟩

/-- The step of a job. -/
theorem JobsInv.answered (h : JobsInv settings world) (hjob : world.jobs[k]? = some job)
    (hstatus : job.status = .running) (hbody : job.body = .await op resume)
    (hallows : op.allows choice = true) :
  JobsInv settings (world.answered k choice job op resume)
  := by
  have hmem : job ∈ world.jobs := List.mem_of_getElem? hjob
  have hpending : job.isPending = true := by simp [PlanJob.isPending, hstatus]
  have hsound := h.sound job hmem hpending
  have hanswer := hsound.answer hbody hallows (op.messageAfter job.message)
  have hfiles : ∀ unit ∈ dropinServices,
      op.filesAfter choice world.files (settings.dropinPath unit)
          = world.files (settings.dropinPath unit)
        ∨ op.filesAfter choice world.files (settings.dropinPath unit)
          = some (renderServiceDropin job.params.managedMountpoints) := by
    obtain ⟨written, hobeys, -⟩ := hsound
    rw [hbody] at hobeys
    intro unit hunit
    apply filesAfter_dropin hunit hobeys.1
  generalize hnew : ({ job with
    message := op.messageAfter job.message
    body := resume (op.answer world.files choice) } : PlanJob) = job₁ at hanswer
  have hparams : job₁.params = job.params := by
    rw [← hnew]
  have hrunning : job₁.status = .running := by
    rw [← hnew]
    apply hstatus
  have hsettled : (world.answered k choice job op resume).jobs = world.jobs.set k job₁.settle := by
    rw [← hnew]
    rfl
  have hsettle := job₁.settle_cases
  have hsettleParams : job₁.settle.params = job.params := by
    rcases hsettle with ⟨_, _, _, hsame⟩ | ⟨_, hsame, _⟩
    · rw [hsame, hparams]
    · rw [hsame, hparams]
  have hothers : ∀ (m : ℕ) (other : PlanJob), world.jobs[m]? = some other → other.isPending → m = k :=
    fun m other hother hpend => h.one m k other job hother hpend hjob hpending
  have hget : ∀ (m : ℕ) (other : PlanJob), (world.jobs.set k job₁.settle)[m]? = some other →
      m = k ∧ other = job₁.settle ∨ m ≠ k ∧ other ∈ world.jobs ∧ other.isPending = false := by
    intro m other hm
    rw [List.getElem?_set] at hm
    split at hm
    · rename_i hk
      split at hm
      · left
        exact ⟨hk.symm, (Option.some.inj hm).symm⟩
      · cases hm
    · rename_i hne
      right
      refine ⟨Ne.symm hne, List.mem_of_getElem? hm, ?_⟩
      by_contra hpend
      apply hne (hothers m other hm (by simpa using hpend)).symm
  have hcases : ∀ other ∈ world.jobs.set k job₁.settle, other = job₁.settle
      ∨ other ∈ world.jobs ∧ other.isPending = false := by
    intro other hother
    obtain ⟨m, hm⟩ := List.mem_iff_getElem?.mp hother
    rcases hget m other hm with ⟨-, hsame⟩ | ⟨-, hold⟩
    · left
      apply hsame
    · right
      apply hold
  have hdone : ∀ done ∈ world.jobs, done.status = .done →
      done.params.spec.mountpoint ∈ job.params.managedMountpoints :=
    fun done hdone hstatus => h.listed job hmem hpending done hdone hstatus
  have hnotDone : job₁.settle.isPending → job₁.settle.status ≠ .done := by
    intro hpend hdone
    simp [PlanJob.isPending, hdone] at hpend
  constructor
  · rw [hsettled]
    intro other hother
    rcases hcases other hother with rfl | ⟨hother, -⟩
    · rw [hsettleParams]
      apply h.own job hmem
    · apply h.own other hother
  · rw [hsettled]
    intro other hother hpend
    rcases hcases other hother with rfl | ⟨_, hno⟩
    · rcases hsettle with ⟨_, _, _, hsame⟩ | ⟨hno, _⟩
      · rw [hsame]
        apply hanswer
      · rw [hno] at hpend
        cases hpend
    · rw [hno] at hpend
      cases hpend
  · rw [hsettled]
    intro m m' other other' hother hpend hother' hpend'
    rcases hget m other hother with ⟨rfl, -⟩ | ⟨_, _, hno⟩
    · rcases hget m' other' hother' with ⟨rfl, -⟩ | ⟨_, _, hno⟩
      · rfl
      · rw [hno] at hpend'
        cases hpend'
    · rw [hno] at hpend
      cases hpend
  · rw [hsettled]
    intro other hother hdoneOther unit hunit
    rcases hcases other hother with rfl | ⟨hold, _⟩
    · rcases hsettle with ⟨_, _, _, hsame⟩ | ⟨_, _, hend⟩
      · rw [hsame, hrunning] at hdoneOther
        cases hdoneOther
      · obtain ⟨written, hobeys, hwritten⟩ := hanswer
        rw [hend hdoneOther] at hobeys
        obtain ⟨-, hall⟩ := hobeys
        obtain ⟨hneeded, -⟩ := hall () rfl
        use job.params.managedMountpoints
        rw [hsettleParams]
        refine ⟨?_, h.own job hmem⟩
        rw [← hparams]
        apply hwritten unit hunit
        apply hneeded (List.mem_map_of_mem hunit)
    · rcases hfiles unit hunit with hsame | hlist
      · change ListsMountpoint (op.filesAfter choice world.files _) _
        rw [hsame]
        apply h.lists other hold hdoneOther unit hunit
      · exact ⟨_, hlist, hdone other hold hdoneOther⟩
  · rw [hsettled]
    intro other hother hpend done hmemDone hstatusDone
    rcases hcases other hother with rfl | ⟨_, hno⟩
    · rw [hsettleParams]
      rcases hcases done hmemDone with rfl | ⟨hold, _⟩
      · apply absurd hstatusDone (hnotDone hpend)
      · apply hdone done hold hstatusDone
    · rw [hno] at hpend
      cases hpend

/-- A job that is submitted while none is pending, with a list that has the volumes of the jobs that are
done. -/
theorem JobsInv.submit {params : StorageExecutePlanParams} (h : JobsInv settings world)
    (hcalm : ∀ job ∈ world.jobs, job.isPending = false)
    (hown : params.spec.mountpoint ∈ params.managedMountpoints)
    (hlisted : ∀ done ∈ world.jobs, done.status = .done →
      done.params.spec.mountpoint ∈ params.managedMountpoints) (jobId : String) :
  JobsInv settings (world.submit settings jobId params)
  := by
  have hcases : ∀ other ∈ (world.submit settings jobId params).jobs, other ∈ world.jobs
      ∨ other = ⟨jobId, params, .queued, "", false, (ExecutePlan.body settings params).run⟩ := by
    intro other hother
    simpa [StorageWorld.submit] using hother
  have hindex : ∀ (k : ℕ) (other : PlanJob),
      (world.submit settings jobId params).jobs[k]? = some other → other.isPending →
      k = world.jobs.length := by
    intro k other hother hpend
    simp only [StorageWorld.submit, List.getElem?_append] at hother
    split at hother
    · rw [hcalm other (List.mem_of_getElem? hother)] at hpend
      cases hpend
    · rename_i hge
      obtain ⟨hlt, -⟩ := List.getElem?_eq_some_iff.mp hother
      rw [List.length_singleton] at hlt
      omega
  constructor
  · intro other hother
    rcases hcases other hother with hother | rfl
    · apply h.own other hother
    · apply hown
  · intro other hother hpend
    rcases hcases other hother with hother | rfl
    · rw [hcalm other hother] at hpend
      cases hpend
    · use [], obeys_body settings params
      rintro unit _ ⟨⟩
  · intro k k' other other' hother hpend hother' hpend'
    rw [hindex k other hother hpend, hindex k' other' hother' hpend']
  · intro other hother hstatus
    rcases hcases other hother with hother | rfl
    · apply h.lists other hother hstatus
    · cases hstatus
  · intro other hother hpend done hdone hstatus
    rcases hcases done hdone with hdone | rfl
    · rcases hcases other hother with hother | rfl
      · rw [hcalm other hother] at hpend
        cases hpend
      · apply hlisted done hdone hstatus
    · cases hstatus

end

/-- Jobs and files are all that the invariant of jobs is about. -/
theorem JobsInv.congr {settings : Settings} {world world' : StorageWorld} (h : JobsInv settings world)
    (hjobs : world'.jobs = world.jobs) (hfiles : world'.files = world.files) :
  JobsInv settings world'
  := by
  obtain ⟨hown, hsound, hone, hlists, hlisted⟩ := h
  constructor
  · rw [hjobs]
    apply hown
  · rw [hjobs, hfiles]
    apply hsound
  · rw [hjobs]
    apply hone
  · rw [hjobs, hfiles]
    apply hlists
  · rw [hjobs]
    apply hlisted

section

variable {settings : Settings} {stages : ℕ → RequestStage} {p : PlanPool} {i : ℕ} {op : PlanOp}
  {resume : op.Answer → Coroutine PlanOp PlanOp.Answer (Except Exc String)} {r : op.Answer}
  {world' : StorageWorld} {stage' : RequestStage}

/-- A request whose list is made after an answer is the one that was answered, or was so before. -/
theorem ready_of_resumed {j : ℕ} {params : StorageExecutePlanParams}
    (hpending : (p.resumed i op resume r world').pendingOf j ≠ none)
    (hready : Function.update stages i stage' j = .ready params) :
  j = i ∧ stage' = .ready params ∨ j ≠ i ∧ p.pendingOf j ≠ none ∧ stages j = .ready params
  := by
  by_cases hj : j = i
  · left
    rw [hj, Function.update_self] at hready
    exact ⟨hj, hready⟩
  · right
    rw [Function.update_of_ne hj] at hready
    rw [Pool.pendingOf_resumed_of_ne (Ne.symm hj)] at hpending
    exact ⟨hj, hpending, hready⟩

/-- The invariant after an answer to a request that has made no list then. -/
theorem DropinsInv.quiet (h : DropinsInv settings stages p)
    (hstage : ∀ params, stage' ≠ .ready params) (hjobs : world'.jobs = p.world.jobs)
    (hfiles : world'.files = p.world.files) :
  DropinsInv settings (Function.update stages i stage') (p.resumed i op resume r world')
  := by
  have hbefore : ∀ {j params}, (p.resumed i op resume r world').pendingOf j ≠ none →
      Function.update stages i stage' j = .ready params →
      p.pendingOf j ≠ none ∧ stages j = .ready params := by
    intro j params hpending hready
    rcases ready_of_resumed hpending hready with ⟨-, hready⟩ | ⟨-, hbefore⟩
    · apply absurd hready (hstage params)
    · apply hbefore
  have hjobs' : (p.resumed i op resume r world').world.jobs = p.world.jobs := hjobs
  constructor
  · apply h.jobs.congr hjobs hfiles
  · intro j j' params params' hj hready hj' hready'
    obtain ⟨hj, hready⟩ := hbefore hj hready
    obtain ⟨hj', hready'⟩ := hbefore hj' hready'
    apply h.alone j j' params params' hj hready hj' hready'
  · intro j params hj hready
    obtain ⟨hj, hready⟩ := hbefore hj hready
    rw [hjobs']
    apply h.calm j params hj hready
  · intro j params hj hready
    obtain ⟨hj, hready⟩ := hbefore hj hready
    apply h.own j params hj hready
  · intro j params hj hready
    obtain ⟨hj, hready⟩ := hbefore hj hready
    rw [hjobs']
    apply h.listed j params hj hready

/-- The invariant after a request has made its list. -/
theorem DropinsInv.list {plan : Plan} (h : DropinsInv settings stages p)
    (hothers : ∀ j ≠ i, ∀ params, p.pendingOf j ≠ none → stages j ≠ .ready params)
    (hcalm : ∀ job ∈ p.world.jobs, job.isPending = false) {managed : List String}
    (hlisted : ∀ job ∈ p.world.jobs, job.status = .done → job.params.spec.mountpoint ∈ managed)
    (hstage : stage' = .ready ⟨plan.spec, plan.expectedSizes, managed ++ [plan.spec.mountpoint]⟩) :
  DropinsInv settings (Function.update stages i stage') (p.resumed i op resume r p.world)
  := by
  have hself : ∀ {j params}, (p.resumed i op resume r p.world).pendingOf j ≠ none →
      Function.update stages i stage' j = .ready params →
      j = i ∧ params = ⟨plan.spec, plan.expectedSizes, managed ++ [plan.spec.mountpoint]⟩ := by
    intro j params hpending hready
    rcases ready_of_resumed hpending hready with ⟨hj, hlist⟩ | ⟨hne, hold, hlist⟩
    · rw [hstage] at hlist
      cases hlist
      exact ⟨hj, rfl⟩
    · apply absurd hlist (hothers j hne params hold)
  constructor
  · apply h.jobs
  · intro j j' params params' hj hready hj' hready'
    rw [(hself hj hready).1, (hself hj' hready').1]
  · intro j params _ _
    apply hcalm
  · intro j params hj hready
    rw [(hself hj hready).2]
    simp
  · intro j params hj hready done hdone hstatus
    rw [(hself hj hready).2]
    apply List.mem_append_left
    apply hlisted done hdone hstatus

/-- The invariant after a request had its job submitted. -/
theorem DropinsInv.submit {params : StorageExecutePlanParams} (h : DropinsInv settings stages p)
    (hpending : p.pendingOf i ≠ none) (hready : stages i = .ready params)
    (hstage : ∀ params, stage' ≠ .ready params) (jobId : String) :
  DropinsInv settings (Function.update stages i stage')
    (p.resumed i op resume r (p.world.submit settings jobId params))
  := by
  have hnone : ∀ {j params'},
      (p.resumed i op resume r (p.world.submit settings jobId params)).pendingOf j ≠ none →
      Function.update stages i stage' j ≠ .ready params' := by
    intro j params' hj hreadyj
    rcases ready_of_resumed hj hreadyj with ⟨-, hreadyj⟩ | ⟨hne, hj, hreadyj⟩
    · apply hstage params' hreadyj
    · apply hne (h.alone j i params' params hj hreadyj hpending hready)
  constructor
  · apply h.jobs.submit (h.calm i params hpending hready) (h.own i params hpending hready)
      (h.listed i params hpending hready)
  · intro j j' params params' hj hreadyj
    apply absurd hreadyj (hnone hj)
  · intro j params' hj hreadyj
    apply absurd hreadyj (hnone hj)
  · intro j params' hj hreadyj
    apply absurd hreadyj (hnone hj)
  · intro j params' hj hreadyj
    apply absurd hreadyj (hnone hj)

/-- The step lemma of `DropinsInv`. -/
theorem DropinsInv.step {requests : List ExecutePlanRequest} {choice : PlanChoice}
    (h : DropinsInv settings stages p)
    (hobeying : p.Obeying (fun i => (requests.getD i ⟨"", "", ""⟩).protocol)
      (fun _ => ExecutePlanRequest.ends) stages)
    (hpending : p.pendingOf i = some op) (hapart : ListsApart p (.task i choice))
    (hperform : p.world.perform settings op choice = some (r, world')) :
  DropinsInv settings
    (Function.update stages i
      ((requests.getD i ⟨"", "", ""⟩).protocol.next (stages i) op r))
    (p.resumed i op resume r world')
  := by
  have hserved : p.pendingOf i ≠ none := by simp [hpending]
  have hallowed : (requests.getD i ⟨"", "", ""⟩).protocol.allowed (stages i) op :=
    hobeying.allowed hpending
  cases hstage : stages i with
  | before =>
      rw [hstage] at hallowed
      cases hallowed
      cases hperform
      apply h.quiet
      · intro params
        cases ((p.world.store.gc p.world.monotonic).find? (requests.getD i ⟨"", "", ""⟩).planId)
        all_goals rintro ⟨⟩
      · rfl
      · rfl
  | found plan =>
      rw [hstage] at hallowed
      cases hallowed
      obtain ⟨hcalm, hothers, hlisted⟩ := hapart hpending
      cases hraises : choice.raises with
      | some e =>
          simp only [StorageWorld.perform, PlanChoice.deliver, hraises] at hperform
          cases hperform
          apply h.quiet
          · rintro params ⟨⟩
          · rfl
          · rfl
      | none =>
          simp only [StorageWorld.perform, PlanChoice.deliver, hraises] at hperform
          cases hperform
          apply h.list _ hcalm hlisted rfl
          intro j hj params hjpending hready
          obtain ⟨op', hop'⟩ := Option.ne_none_iff_exists'.mp hjpending
          have hallowedj : (requests.getD j ⟨"", "", ""⟩).protocol.allowed (stages j) op' :=
            hobeying.allowed hop'
          rw [hready] at hallowedj
          cases hallowedj
          have hlt : j < p.tasks.length := by
            by_contra hge
            rw [Pool.pendingOf, List.getElem?_eq_none (by omega)] at hop'
            cases hop'
          have hno := hothers j hlt hj
          rw [hop'] at hno
          cases hno
  | ready params =>
      rw [hstage] at hallowed
      cases hallowed
      simp only [StorageWorld.perform] at hperform
      split at hperform
      · split at hperform
        · cases hperform
        · cases hperform
          apply h.submit hserved hstage
          intro params'
          cases choice.deliver choice.jobId
          all_goals rintro ⟨⟩
      · obtain ⟨e, -, hpair⟩ := Option.map_eq_some_iff.mp hperform
        cases hpair
        apply h.quiet
        · rintro params' ⟨⟩
        · rfl
        · rfl
  | submitted =>
      rw [hstage] at hallowed
      cases hallowed
      cases hperform
      apply h.quiet
      · rintro params ⟨⟩
      · rfl
      · rfl
  | ended =>
      rw [hstage] at hallowed
      cases hallowed

end

/-- What happens between the answers to requests keeps the invariant. -/
theorem DropinsInv.environment {settings : Settings} {stages : ℕ → RequestStage} {p : PlanPool}
    {e : StorageEvent} {world' : StorageWorld} (h : DropinsInv settings stages p)
    (henvironment : p.world.environment e = some world') :
  DropinsInv settings stages { p with world := world' }
  := by
  have hframe : JobsInv settings world' →
      (∀ job ∈ world'.jobs, job.isPending → ∃ old ∈ p.world.jobs, old.isPending) →
      (∀ done ∈ world'.jobs, done.status = .done → (∃ old ∈ p.world.jobs, old.isPending)
        ∨ ∃ old ∈ p.world.jobs, old.status = .done ∧ old.params = done.params) →
      DropinsInv settings stages { p with world := world' } := by
    intro hjobs hpend hdone
    have hcalm : ∀ i params, p.pendingOf i ≠ none → stages i = .ready params →
        ¬ ∃ old ∈ p.world.jobs, old.isPending := by
      rintro i params hi hready ⟨old, hold, hpending⟩
      rw [h.calm i params hi hready old hold] at hpending
      cases hpending
    constructor
    · apply hjobs
    · apply h.alone
    · intro i params hi hready job hjob
      by_contra hpending
      apply hcalm i params hi hready
      apply hpend job hjob
      simpa using hpending
    · apply h.own
    · intro i params hi hready done hmem hstatus
      rcases hdone done hmem hstatus with hpending | ⟨old, hold, hstatus', hparams⟩
      · apply absurd hpending (hcalm i params hi hready)
      · rw [← hparams]
        apply h.listed i params hi hready old hold hstatus'
  have hsame : world'.jobs = p.world.jobs → world'.files = p.world.files →
      DropinsInv settings stages { p with world := world' } := by
    intro hjobs hfiles
    apply hframe (h.jobs.congr hjobs hfiles)
    · rw [hjobs]
      intro job hjob hpending
      exact ⟨job, hjob, hpending⟩
    · rw [hjobs]
      intro done hdone hstatus
      right
      exact ⟨done, hdone, hstatus, rfl⟩
  cases e with
  | tick nanoseconds =>
      cases henvironment
      apply hsame rfl rfl
  | createPlan plan =>
      simp only [StorageWorld.environment] at henvironment
      split at henvironment
      · cases henvironment
      · cases henvironment
        apply hsame rfl rfl
  | startJob k =>
      obtain ⟨job, hjob, hqueued, _, rfl⟩ := StorageWorld.startJob_eq_some.mp henvironment
      have hpending : job.isPending = true := by simp [PlanJob.isPending, hqueued]
      have hold : ∃ old ∈ p.world.jobs, old.isPending = true :=
        ⟨job, List.mem_of_getElem? hjob, hpending⟩
      apply hframe
      · apply h.jobs.touch hjob
        · rfl
        · rfl
        · rw [hpending]
          rfl
        · rintro ⟨⟩
      · intro _ _ _
        apply hold
      · intro _ _ _
        left
        apply hold
  | stepJob k choice =>
      obtain ⟨job, op, resume, hjob, hrunning, hbody, hallows, rfl⟩ :=
        StorageWorld.stepJob_eq_some.mp henvironment
      have hold : ∃ old ∈ p.world.jobs, old.isPending = true := by
        use job, List.mem_of_getElem? hjob
        simp [PlanJob.isPending, hrunning]
      apply hframe (h.jobs.answered hjob hrunning hbody hallows)
      · intro _ _ _
        apply hold
      · intro _ _ _
        left
        apply hold
  | cancelJob k =>
      obtain ⟨job, hjob, rfl⟩ := Option.map_eq_some_iff.mp henvironment
      apply hframe
      · apply h.jobs.touch hjob
        · rfl
        · rfl
        · rfl
        · apply id
      · intro other hother hpending
        rcases List.mem_or_eq_of_mem_set hother with hother | rfl
        · exact ⟨other, hother, hpending⟩
        · exact ⟨job, List.mem_of_getElem? hjob, hpending⟩
      · intro done hdone hstatus
        right
        rcases List.mem_or_eq_of_mem_set hdone with hdone | rfl
        · exact ⟨done, hdone, hstatus, rfl⟩
        · exact ⟨job, List.mem_of_getElem? hjob, hstatus, rfl⟩
  | register refused =>
      simp only [StorageWorld.environment] at henvironment
      split at henvironment
      · cases henvironment
      · cases henvironment
        apply hsame rfl rfl
  | loseEvent =>
      cases henvironment
      apply hsame rfl rfl

/-- An unused disk. -/
def unusedDisk (name serial : String) : DiskNode :=
  .node { ExecutePlan.rootPartition with
    name := name, path := "/dev/" ++ name, type := "disk", serial := some serial, size := 1000,
    fstype := none, mountpoint := none } []

/-- A plan for another volume. -/
def photosPlan : Plan :=
  { id := "a81c"
    spec := ⟨"photos", .basic, .ext4, ["/dev/sdc"], ["S2"], "photos", "nasos_photos", "photos",
      "/volumes/photos"⟩
    expectedSizes := [("S2", 1000)]
    confirmText := "S2"
    createdAt := 0 }

/-- Steps of a job in which nothing fails. -/
def jobSteps (k n : ℕ) : List (Pool.Label PlanChoice StorageEvent) :=
  .environment (.startJob k) :: List.replicate n (.environment (.stepJob k
    { inventory := ⟨[unusedDisk "sdb" "S1", unusedDisk "sdc" "S2"], [], []⟩
      command := ⟨0, "v.mount\n", ""⟩
      raises := none
      replaced := true }))

/-- The requests of a user who executes two plans. -/
def volumePool : PlanPool :=
  ExecutePlanRequest.pool mediaHmac [confirmation mediaPlan, confirmation photosPlan]
    (plannedWorld [mediaPlan, photosPlan])

/-- One plan after the other, the first volume being registered in between. -/
def oneByOne : List (Pool.Label PlanChoice StorageEvent) :=
  planOrder [(0, ""), (0, ""), (0, "a1"), (0, "")] ++ jobSteps 0 39
    ++ [.environment (.register false)] ++ planOrder [(1, ""), (1, ""), (1, "b2"), (1, "")]
    ++ jobSteps 1 44

/-- Both jobs are submitted before the first is done. -/
def bothAtOnce : List (Pool.Label PlanChoice StorageEvent) :=
  planOrder [(0, ""), (0, ""), (1, ""), (1, ""), (0, "a1"), (0, ""), (1, "b2"), (1, "")]
    ++ jobSteps 0 39 ++ jobSteps 1 44
