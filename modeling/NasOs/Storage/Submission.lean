import NasOs.Library.Protocol
import NasOs.Storage.World

/-!
# Requests to execute the same plan

A request looks its plan up, and takes it out of the store only when the agent has answered.  Between
the two another request may look it up too, and a plan whose job was submitted stays in the store when
the answer is lost.

When no request looks the plan up while another is being served, or after an answer was lost, at most
one job is submitted.
-/

/-- How far a request has come. -/
inductive RequestStage where
  | before
  | found (plan : Plan)
  | ready (params : StorageExecutePlanParams)
  | submitted
  | ended

namespace ExecutePlanRequest

/-- A request looks its plan up, lists the mountpoints, has the job submitted, and takes the plan out of
the store. -/
def protocol (request : ExecutePlanRequest) : Protocol PlanOp PlanOp.Answer RequestStage where
  allowed stage op :=
    match stage with
    | .before => op = .getPlan request.planId
    | .found _ => op = .managedMountpoints
    | .ready params => op = .executePlan params
    | .submitted => op = .popPlan request.planId
    | .ended => False
  next stage op :=
    match stage, op with
    | .before, .getPlan _ => fun
        | some plan => .found plan
        | none => .ended
    | .found plan, .managedMountpoints => fun
        | .ok managed => .ready ⟨plan.spec, plan.expectedSizes, managed ++ [plan.spec.mountpoint]⟩
        | .error _ => .ended
    | .ready _, .executePlan _ => fun
        | .ok _ => .submitted
        | .error _ => .ended
    | _, _ => fun _ => .ended

/-- A request does not end before it has taken its plan out of the store, once the job was
submitted. -/
def ends (stage : RequestStage) (_ : Except Exc String) : Prop :=
  stage ≠ .submitted

variable {hmac : String → String} {request : ExecutePlanRequest}

/-- The request of the service obeys the protocol. -/
theorem obeys_service :
  (StorageService.executePlan hmac request).run.Obeys request.protocol ends .before
  := by
  constructor
  · rfl
  · rintro (_ | plan)
    · rintro ⟨⟩
    · apply Async.obeys_raiseIf_bind
      · rintro - ⟨⟩
      intro _
      apply Async.obeys_raiseIf_bind
      · rintro - ⟨⟩
      intro _
      constructor
      · rfl
      · rintro (e | managed)
        · rintro ⟨⟩
        · constructor
          · rfl
          · rintro (e | jobId)
            · cases e
              all_goals rintro ⟨⟩
            · constructor
              · rfl
              · intro _
                rintro ⟨⟩

/-- A request obeys its protocol. -/
theorem obeys_executePlan (hmac : String → String) (request : ExecutePlanRequest) :
  (StorageApi.executePlan hmac request).run.Obeys request.protocol ends .before
  := by
  apply obeys_service.tryCatch
  · intro stage _ h
    apply h
  · intro stage e h
    cases e
    all_goals apply h

/-- The requests of a pool obey their protocols. -/
theorem obeying_pool (hmac : String → String) (requests : List ExecutePlanRequest)
    (world : StorageWorld) :
  (pool hmac requests world).Obeying
    (fun i => (requests.getD i ⟨"", "", ""⟩).protocol) (fun _ => ends) fun _ => .before
  := by
  intro i c hc
  obtain ⟨request, hi, rfl⟩ := Option.map_eq_some_iff.mp (List.getElem?_map ▸ hc)
  simp only [List.getD_eq_getElem?_getD, hi, Option.getD_some]
  apply obeys_executePlan

end ExecutePlanRequest

/-! ### At most one job -/

/-- The plan was looked up, and no job was submitted yet. -/
def RequestStage.isServed : RequestStage → Bool
  | .found _ => true
  | .ready _ => true
  | _ => false

/-- A look up of a plan. -/
def PlanOp.isLookup : PlanOp → Bool
  | .getPlan _ => true
  | _ => false

/-- The job that an answer reports. -/
def reportedJob : Event PlanOp PlanOp.Answer → Option String
  | ⟨.executePlan _, .ok jobId⟩ => some jobId
  | _ => none

/-- The jobs that were reported to the requests of a pool. -/
def reported (p : PlanPool) : List String :=
  p.history.filterMap fun e => reportedJob e.2

/-- A request looks its plan up only when no other is between its look up and its end, and every job
submitted since there were `n` was reported. -/
def LookupsApart (n : ℕ) (p : PlanPool) : Pool.Label PlanChoice StorageEvent → Prop
  | .task i _ => (p.pendingOf i).any PlanOp.isLookup →
      (∀ j < p.tasks.length, j ≠ i → (p.pendingOf j).all PlanOp.isLookup)
        ∧ ∀ job ∈ p.world.jobs.drop n, job.id ∈ reported p
  | .environment _ => True

instance (n : ℕ) (p : PlanPool) (l : Pool.Label PlanChoice StorageEvent) :
    Decidable (LookupsApart n p l) :=
  match l with
  | .task i _ => inferInstanceAs (Decidable ((p.pendingOf i).any PlanOp.isLookup →
      (∀ j < p.tasks.length, j ≠ i → (p.pendingOf j).all PlanOp.isLookup)
        ∧ ∀ job ∈ p.world.jobs.drop n, job.id ∈ reported p))
  | .environment _ => isTrue trivial

/-- What happens between the answers to requests submits no job, and puts no plan back into the
store. -/
theorem StorageWorld.of_environment {world world' : StorageWorld} {e : StorageEvent}
    (h : world.environment e = some world') :
  world'.jobs.length = world.jobs.length
    ∧ ∀ planId ∈ world.made, planId ∈ world'.made
        ∧ (world.store.find? planId = none → world'.store.find? planId = none)
  := by
  cases e with
  | tick nanoseconds =>
      cases h
      exact ⟨rfl, fun planId hmade => ⟨hmade, id⟩⟩
  | createPlan plan =>
      simp only [environment] at h
      split at h
      · cases h
      · rename_i hfresh
        cases h
        use rfl
        intro planId hmade
        use List.mem_cons_of_mem _ hmade
        apply PlanStore.find?_put_eq_none
        rintro rfl
        apply hfresh hmade
  | startJob k =>
      obtain ⟨job, _, _, _, rfl⟩ := startJob_eq_some.mp h
      exact ⟨List.length_set, fun planId hmade => ⟨hmade, id⟩⟩
  | stepJob k choice =>
      obtain ⟨job, op, resume, _, _, _, _, rfl⟩ := stepJob_eq_some.mp h
      exact ⟨List.length_set, fun planId hmade => ⟨hmade, id⟩⟩
  | cancelJob k =>
      obtain ⟨job, -, rfl⟩ := Option.map_eq_some_iff.mp h
      exact ⟨List.length_set, fun planId hmade => ⟨hmade, id⟩⟩
  | register refused =>
      simp only [environment] at h
      split at h
      · cases h
      · cases h
        exact ⟨rfl, fun planId hmade => ⟨hmade, id⟩⟩
  | loseEvent =>
      cases h
      exact ⟨rfl, fun planId hmade => ⟨hmade, id⟩⟩

/-- What the stages of requests say about the jobs: none was submitted yet, and at most one request is
being served; or one was, no request is being served, and the plan is gone from the store, or the answer
was lost, or a request is about to take the plan out. -/
def SubmissionInv (planId : String) (n : ℕ) (stages : ℕ → RequestStage) (p : PlanPool) : Prop :=
  planId ∈ p.world.made
    ∧ ((p.world.jobs.length = n ∧ reported p = []
        ∧ ∀ i j, p.pendingOf i ≠ none → (stages i).isServed → p.pendingOf j ≠ none →
          (stages j).isServed → i = j)
      ∨ (p.world.jobs.length = n + 1
        ∧ (∀ i, p.pendingOf i ≠ none → (stages i).isServed = false)
        ∧ (p.world.store.find? planId = none ∨ reported p = []
          ∨ ∃ j, p.pendingOf j = some (.popPlan planId))))

/-- An answer that reports no job. -/
theorem reported_resumed_of_none {p : PlanPool} {i : ℕ} {op : PlanOp}
    {resume : op.Answer → Coroutine PlanOp PlanOp.Answer (Except Exc String)} {r : op.Answer}
    {world : StorageWorld} (h : reportedJob ⟨op, r⟩ = none) :
  reported (p.resumed i op resume r world) = reported p
  := by
  simp [reported, Pool.resumed, h]

section

variable {settings : Settings} {planId : String} {n : ℕ} {stages : ℕ → RequestStage} {p : PlanPool}
  {i : ℕ} {op : PlanOp}
  {resume : op.Answer → Coroutine PlanOp PlanOp.Answer (Except Exc String)} {r : op.Answer}
  {world' : StorageWorld} {stage' : RequestStage}

/-- A request that is being served after an answer is the one that was answered, or was served
before. -/
theorem served_of_resumed {j : ℕ} (hpending : (p.resumed i op resume r world').pendingOf j ≠ none)
    (hserved : (Function.update stages i stage' j).isServed) :
  j = i ∧ stage'.isServed ∨ j ≠ i ∧ p.pendingOf j ≠ none ∧ (stages j).isServed
  := by
  by_cases hj : j = i
  · left
    rw [hj, Function.update_self] at hserved
    exact ⟨hj, hserved⟩
  · right
    rw [Function.update_of_ne hj] at hserved
    rw [Pool.pendingOf_resumed_of_ne (Ne.symm hj)] at hpending
    exact ⟨hj, hpending, hserved⟩

/-- A request that is being served does not await its look up. -/
theorem not_isLookup_of_served {requests : List ExecutePlanRequest} {j : ℕ}
    (hobeying : p.Obeying (fun i => (requests.getD i ⟨"", "", ""⟩).protocol)
      (fun _ => ExecutePlanRequest.ends) stages)
    (hpending : p.pendingOf j ≠ none) (hserved : (stages j).isServed) :
  (p.pendingOf j).all PlanOp.isLookup = false
  := by
  obtain ⟨op, hop⟩ := Option.ne_none_iff_exists'.mp hpending
  have hallowed := hobeying.allowed hop
  rw [hop, Option.all_some]
  cases hstage : stages j with
  | found plan =>
      rw [hstage] at hallowed
      cases hallowed
      rfl
  | ready params =>
      rw [hstage] at hallowed
      cases hallowed
      rfl
  | before =>
      rw [hstage] at hserved
      cases hserved
  | submitted =>
      rw [hstage] at hserved
      cases hserved
  | ended =>
      rw [hstage] at hserved
      cases hserved

/-- The invariant after an answer that submits nothing, to a request that is served afterwards only if
it was before. -/
theorem SubmissionInv.quiet (h : SubmissionInv planId n stages p) (hpending : p.pendingOf i = some op)
    (hserved : stage'.isServed → (stages i).isServed) (hjobs : world'.jobs = p.world.jobs)
    (hmade : world'.made = p.world.made)
    (hstore : p.world.store.find? planId = none → world'.store.find? planId = none)
    (hpop : op = .popPlan planId → world'.store.find? planId = none)
    (hreported : reportedJob ⟨op, r⟩ = none) :
  SubmissionInv planId n (Function.update stages i stage') (p.resumed i op resume r world')
  := by
  have hi : p.pendingOf i ≠ none := by simp [hpending]
  have hbefore : ∀ j, (p.resumed i op resume r world').pendingOf j ≠ none →
      (Function.update stages i stage' j).isServed → p.pendingOf j ≠ none ∧ (stages j).isServed := by
    intro j hj hjserved
    rcases served_of_resumed hj hjserved with ⟨rfl, hstage⟩ | ⟨_, hjpending, hstage⟩
    · exact ⟨hi, hserved hstage⟩
    · exact ⟨hjpending, hstage⟩
  obtain ⟨hplan, h⟩ := h
  constructor
  · change planId ∈ world'.made
    rw [hmade]
    apply hplan
  · rw [reported_resumed_of_none hreported]
    rcases h with ⟨hlength, hnone, hone⟩ | ⟨hlength, hno, hgone⟩
    · left
      refine ⟨(congrArg List.length hjobs).trans hlength, hnone, ?_⟩
      intro a b ha haserved hb hbserved
      obtain ⟨ha, haserved⟩ := hbefore a ha haserved
      obtain ⟨hb, hbserved⟩ := hbefore b hb hbserved
      apply hone a b ha haserved hb hbserved
    · right
      refine ⟨(congrArg List.length hjobs).trans hlength, ?_, ?_⟩
      · intro j hj
        by_contra hjserved
        obtain ⟨hj, hjserved⟩ := hbefore j hj (by simpa using hjserved)
        rw [hno j hj] at hjserved
        cases hjserved
      · rcases hgone with hgone | hnone | ⟨j, hj⟩
        · left
          apply hstore hgone
        · right; left
          apply hnone
        · by_cases hij : j = i
          · subst hij
            left
            apply hpop
            rw [hpending] at hj
            apply Option.some.inj hj
          · right; right
            use j
            rw [Pool.pendingOf_resumed_of_ne (Ne.symm hij)]
            apply hj

/-- A request that looks the plan up. -/
theorem SubmissionInv.lookup {requests : List ExecutePlanRequest} {choice : PlanChoice}
    (h : SubmissionInv planId n stages p)
    (hobeying : p.Obeying (fun i => (requests.getD i ⟨"", "", ""⟩).protocol)
      (fun _ => ExecutePlanRequest.ends) stages)
    {resume : Option Plan → Coroutine PlanOp PlanOp.Answer (Except Exc String)} {r : Option Plan}
    (hpending : p.pendingOf i = some (.getPlan planId)) (hapart : LookupsApart n p (.task i choice))
    (hperform : p.world.perform settings (.getPlan planId) choice = some (r, world'))
    (hstage : ∀ plan, stage' = .found plan → r = some plan)
    (hserved : stage'.isServed → ∃ plan, stage' = .found plan) :
  SubmissionInv planId n (Function.update stages i stage')
    (p.resumed i (.getPlan planId) resume r world')
  := by
  cases hperform
  rw [LookupsApart, hpending] at hapart
  obtain ⟨hothers, hjobs⟩ := hapart rfl
  have hnone : ∀ j ≠ i, p.pendingOf j ≠ none → (stages j).isServed = false := by
    intro j hj hjpending
    by_contra hjserved
    have hlookup := not_isLookup_of_served hobeying hjpending (by simpa using hjserved)
    have hlt : j < p.tasks.length := by
      by_contra hge
      apply hjpending
      rw [Pool.pendingOf, List.getElem?_eq_none (by omega)]
      rfl
    rw [hothers j hlt hj] at hlookup
    cases hlookup
  obtain ⟨hplan, h⟩ := h
  use hplan
  rw [reported_resumed_of_none rfl]
  rcases h with ⟨hlen, hreported, -⟩ | ⟨hlen, -, hgone⟩
  · left
    refine ⟨hlen, hreported, ?_⟩
    have hself : ∀ a, (p.resumed i (.getPlan planId) resume
        (p.world.store.get p.world.monotonic planId).1
        { p.world with store := (p.world.store.get p.world.monotonic planId).2 }).pendingOf a ≠ none →
        (Function.update stages i stage' a).isServed → a = i := by
      intro a ha haserved
      rcases served_of_resumed ha haserved with ⟨rfl, -⟩ | ⟨hne, ha, haserved⟩
      · rfl
      · rw [hnone a hne ha] at haserved
        cases haserved
    intro a b ha haserved hb hbserved
    rw [hself a ha haserved, hself b hb hbserved]
  · right
    use hlen
    rcases hgone with hgone | hreported | ⟨j, hj⟩
    · have hr : (p.world.store.get p.world.monotonic planId).1 = none :=
        PlanStore.find?_gc_eq_none hgone
      constructor
      · intro j hj
        by_contra hjserved
        rcases served_of_resumed hj (by simpa using hjserved) with ⟨rfl, hjstage⟩ | ⟨hne, hj, hjstage⟩
        · obtain ⟨plan, hfound⟩ := hserved hjstage
          cases hr.symm.trans (hstage plan hfound)
        · rw [hnone j hne hj] at hjstage
          cases hjstage
      · left
        apply hr
    · have hpos : 0 < (p.world.jobs.drop n).length := by
        rw [List.length_drop]
        omega
      have hmem := hjobs _ (List.getElem_mem hpos)
      rw [hreported] at hmem
      cases hmem
    · have hne : j ≠ i := by
        rintro rfl
        cases hpending.symm.trans hj
      have hlt : j < p.tasks.length := by
        by_contra hge
        rw [Pool.pendingOf, List.getElem?_eq_none (by omega)] at hj
        cases hj
      have hlookup := hothers j hlt hne
      rw [hj] at hlookup
      cases hlookup

/-- A request that has its job submitted. -/
theorem SubmissionInv.submit {params : StorageExecutePlanParams} {choice : PlanChoice}
    (h : SubmissionInv planId n stages p)
    {resume : Except Exc String → Coroutine PlanOp PlanOp.Answer (Except Exc String)}
    {r : Except Exc String} (hi : p.tasks[i]? = some (.await (.executePlan params) resume))
    (hready : (stages i).isServed) (hstage : stage'.isServed = false)
    (hnext : ∀ jobId, r = .ok jobId → (resume r).pending = some (.popPlan planId))
    (hperform : p.world.perform settings (.executePlan params) choice = some (r, world')) :
  SubmissionInv planId n (Function.update stages i stage')
    (p.resumed i (.executePlan params) resume r world')
  := by
  have hpending : p.pendingOf i = some (.executePlan params) := Pool.pendingOf_eq hi
  have hserved : p.pendingOf i ≠ none := by simp [hpending]
  simp only [StorageWorld.perform] at hperform
  split at hperform
  · split at hperform
    · cases hperform
    · cases hperform
      obtain ⟨hplan, h⟩ := h
      use List.mem_cons_of_mem _ hplan
      rcases h with ⟨hlen, hreported, hone⟩ | ⟨-, hno, -⟩
      · right
        refine ⟨?_, ?_, ?_⟩
        · simp [StorageWorld.submit, Pool.resumed, hlen]
        · intro j hj
          by_contra hjserved
          rcases served_of_resumed hj (by simpa using hjserved) with ⟨rfl, hjstage⟩ | ⟨hne, hj, hjstage⟩
          · rw [hstage] at hjstage
            cases hjstage
          · apply hne (hone j i hj hjstage hserved hready)
        · right
          cases hr : choice.deliver choice.jobId with
          | error e =>
              left
              rw [reported_resumed_of_none rfl]
              apply hreported
          | ok jobId =>
              right
              use i
              have htask := Pool.tasks_resumed_self hi (choice.deliver choice.jobId)
                (p.world.submit settings choice.jobId params)
              rw [hr] at htask
              rw [Pool.pendingOf_eq htask, ← hr]
              apply hnext jobId hr
      · rw [hno i hserved] at hready
        cases hready
  · obtain ⟨e, -, hpair⟩ := Option.map_eq_some_iff.mp hperform
    cases hpair
    apply h.quiet hpending _ rfl rfl id _ rfl
    · rw [hstage]
      rintro ⟨⟩
    · rintro ⟨⟩

/-- The step lemma of `SubmissionInv`. -/
theorem SubmissionInv.step {requests : List ExecutePlanRequest} {choice : PlanChoice}
    (h : SubmissionInv planId n stages p)
    (hobeying : p.Obeying (fun i => (requests.getD i ⟨"", "", ""⟩).protocol)
      (fun _ => ExecutePlanRequest.ends) stages)
    (hplan : (requests.getD i ⟨"", "", ""⟩).planId = planId)
    (hi : p.tasks[i]? = some (.await op resume)) (hapart : LookupsApart n p (.task i choice))
    (hperform : p.world.perform settings op choice = some (r, world')) :
  SubmissionInv planId n
    (Function.update stages i
      ((requests.getD i ⟨"", "", ""⟩).protocol.next (stages i) op r))
    (p.resumed i op resume r world')
  := by
  have hpending : p.pendingOf i = some op := Pool.pendingOf_eq hi
  have hobeys : (Coroutine.await op resume).Obeys (requests.getD i ⟨"", "", ""⟩).protocol
      ExecutePlanRequest.ends (stages i) := hobeying i _ hi
  obtain ⟨hallowed, hresume⟩ := hobeys
  generalize requests.getD i ⟨"", "", ""⟩ = request at hallowed hresume hplan ⊢
  subst hplan
  cases hstage : stages i with
  | before =>
      rw [hstage] at hallowed
      cases hallowed
      apply h.lookup hobeying hpending hapart hperform
      · intro plan hfound
        cases r with
        | none => cases hfound
        | some plan' =>
            cases hfound
            rfl
      · intro hserved
        cases r with
        | none => cases hserved
        | some plan => exact ⟨plan, rfl⟩
  | found plan =>
      rw [hstage] at hallowed
      cases hallowed
      cases hperform
      apply h.quiet hpending _ rfl rfl id _ rfl
      · intro _
        rw [hstage]
        rfl
      · rintro ⟨⟩
  | ready params =>
      rw [hstage] at hallowed
      cases hallowed
      apply h.submit hi _ _ _ hperform
      · rw [hstage]
        rfl
      · cases r
        all_goals rfl
      · rintro jobId rfl
        have hrest := hresume (.ok jobId)
        rw [hstage] at hrest
        cases hc : resume (.ok jobId) with
        | done a =>
            rw [hc] at hrest
            apply absurd rfl hrest
        | await op' resume' =>
            rw [hc] at hrest
            obtain ⟨hpop, -⟩ := hrest
            cases hpop
            rfl
  | submitted =>
      rw [hstage] at hallowed
      cases hallowed
      cases hperform
      apply h.quiet hpending
      · rintro ⟨⟩
      · rfl
      · rfl
      · intro _
        apply PlanStore.find?_pop
      · intro _
        apply PlanStore.find?_pop
      · rfl
  | ended =>
      rw [hstage] at hallowed
      cases hallowed

end

/-- When requests to execute a plan look it up only while no other of them is being served, and after the
answers to all submissions, at most one job is submitted for the plan. -/
theorem submitted_once {hmac : String → String} {settings : Settings} {planId : String}
    {requests : List ExecutePlanRequest} {world : StorageWorld}
    {l : List (Pool.Label PlanChoice StorageEvent)} {p : PlanPool}
    (hmade : planId ∈ world.made) (hplan : ∀ request ∈ requests, request.planId = planId)
    (hapart : (Pool.machine (storageEffects settings)).Along (LookupsApart world.jobs.length)
      (ExecutePlanRequest.pool hmac requests world) l)
    (hrun : (Pool.machine (storageEffects settings)).run
      (ExecutePlanRequest.pool hmac requests world) l = some p) :
  p.world.jobs.length ≤ world.jobs.length + 1
  := by
  have hstart : SubmissionInv planId world.jobs.length (fun _ => .before)
      (ExecutePlanRequest.pool hmac requests world) := by
    use hmade
    left
    refine ⟨rfl, rfl, ?_⟩
    rintro i j - ⟨⟩
  obtain ⟨-, stages, -, -, hinv⟩ := Pool.run_obeys
    (I := SubmissionInv planId world.jobs.length)
    (ExecutePlanRequest.obeying_pool hmac requests world) hstart
    (by
      intro p stages i choice op resume r world' hlength hobeying hinv hD hi _ hperform
      have hrequest : (requests.getD i ⟨"", "", ""⟩).planId = planId := by
        obtain ⟨hlt, -⟩ := List.getElem?_eq_some_iff.mp hi
        rw [hlength, List.length_map] at hlt
        apply hplan
        simp [hlt]
      apply hinv.step hobeying hrequest hi hD hperform)
    (by
      intro p stages e world' hinv _ henvironment
      obtain ⟨hlength, hstore⟩ := StorageWorld.of_environment henvironment
      obtain ⟨hmade, hinv⟩ := hinv
      obtain ⟨hmade', hgone⟩ := hstore planId hmade
      use hmade'
      rcases hinv with ⟨hjobs, hreported, hone⟩ | ⟨hjobs, hno, hcases⟩
      · left
        exact ⟨hlength.trans hjobs, hreported, hone⟩
      · right
        refine ⟨hlength.trans hjobs, hno, ?_⟩
        rcases hcases with hnone | hrest
        · left
          apply hgone hnone
        · right
          apply hrest)
    hapart hrun
  rcases hinv with ⟨hlength, -⟩ | ⟨hlength, -⟩
  · omega
  · omega

/-- A plan that was just made, for a volume on one disk. -/
def mediaPlan : Plan :=
  { id := "6f2d"
    spec := ⟨"media", .basic, .ext4, ["/dev/sdb"], ["S1"], "media", "nasos_media", "media",
      "/volumes/media"⟩
    expectedSizes := [("S1", 1000)]
    confirmText := "S1"
    createdAt := 0 }

/-- The web process after it made plans, and an agent without jobs. -/
def plannedWorld (plans : List Plan) : StorageWorld :=
  { monotonic := 0
    made := plans.map Plan.id
    store := ⟨plans⟩
    volumes := []
    jobs := []
    files := fun _ => none
    events := [] }

/-- The settings of a system in use. -/
def systemSettings : Settings :=
  ⟨false, "", "/var/lib/nasos"⟩

/-- What a keyed hash gives on the payload of the plan. -/
def mediaHmac (_ : String) : String :=
  "9d0c"

/-- The request of a user who confirms a plan. -/
def confirmation (plan : Plan) : ExecutePlanRequest :=
  ⟨plan.id, PlanStore.confirmToken mediaHmac plan, plan.confirmText⟩

/-- Steps of requests in which nothing fails, each with the identifier of a job. -/
def planOrder (order : List (ℕ × String)) : List (Pool.Label PlanChoice StorageEvent) :=
  order.map fun e => .task e.1 ⟨true, none, e.2⟩

/-- The second of two requests one after the other does not find the plan. -/
theorem submitted_once_media :
  ∃ p, (Pool.machine (storageEffects systemSettings)).run
      (ExecutePlanRequest.pool mediaHmac [confirmation mediaPlan, confirmation mediaPlan]
        (plannedWorld [mediaPlan]))
      (planOrder [(0, ""), (0, ""), (0, "a1"), (0, ""), (1, "")]) = some p
    ∧ p.world.jobs.length ≤ 1
  := by
  have hdone : ((Pool.machine (storageEffects systemSettings)).run
      (ExecutePlanRequest.pool mediaHmac [confirmation mediaPlan, confirmation mediaPlan]
        (plannedWorld [mediaPlan]))
      (planOrder [(0, ""), (0, ""), (0, "a1"), (0, ""), (1, "")])).map
        (fun p => p.tasks.map Coroutine.result)
      = some [some (.ok "a1"),
          some (.error (.httpException 400 "plan not found or expired"))] := by
    rfl
  obtain ⟨p, hrun, -⟩ := Option.map_eq_some_iff.mp hdone
  use p, hrun
  apply @submitted_once _ _ "6f2d" _ _ _ _ (by decide) (by decide) (by decide +kernel) hrun

/-- Two requests that look the plan up before either has an answer have it submitted twice. -/
theorem submitted_twice :
  ¬ ∀ (hmac : String → String) (settings : Settings) (planId : String)
      (requests : List ExecutePlanRequest) (world : StorageWorld)
      (l : List (Pool.Label PlanChoice StorageEvent)) (p : PlanPool), planId ∈ world.made →
      (∀ request ∈ requests, request.planId = planId) →
      (Pool.machine (storageEffects settings)).run (ExecutePlanRequest.pool hmac requests world) l
        = some p →
      p.world.jobs.length ≤ world.jobs.length + 1
  := by
  intro hall
  have htwice : ((Pool.machine (storageEffects systemSettings)).run
      (ExecutePlanRequest.pool mediaHmac [confirmation mediaPlan, confirmation mediaPlan]
        (plannedWorld [mediaPlan]))
      (planOrder [(0, ""), (0, ""), (1, ""), (1, ""), (0, "a1"), (1, "b2")])).map
        (fun p => p.world.jobs.length)
      = some 2 := by
    rfl
  obtain ⟨p, hrun, hp⟩ := Option.map_eq_some_iff.mp htwice
  have hle := hall _ _ "6f2d" _ _ _ p (by decide) (by decide) hrun
  rw [hp] at hle
  revert hle
  decide
