import NasOs.Library.Json
import NasOs.Library.Text
import NasOs.Storage.Execute

/-!
# Plans and their execution by requests

The web process keeps the plans that were made in a store, where a plan stays for five minutes.  A
request to execute a plan looks it up, checks a token and a typed confirmation, has the agent submit
the job, and only then takes the plan out of the store.
-/

/-- `Plan`; what is only shown to the user is left out. -/
structure Plan where
  id : String
  spec : StoragePlanSpec
  expectedSizes : List (String × ℤ)
  confirmText : String
  /-- The monotonic clock when the plan was made. -/
  createdAt : ℕ

/-- `PLAN_TTL_SECONDS`, in the nanoseconds of the monotonic clock. -/
def planTtl : ℕ := 300 * 1000000000

/-- `PlanStore`: the plans, by their identifiers. -/
structure PlanStore where
  plans : List Plan

namespace PlanStore

/-- `_gc`. -/
def gc (now : ℕ) (store : PlanStore) : PlanStore :=
  ⟨store.plans.filter fun plan => now - planTtl ≤ plan.createdAt⟩

/-- The plan with an identifier. -/
def find? (store : PlanStore) (planId : String) : Option Plan :=
  store.plans.find? fun plan => plan.id = planId

/-- `put`. -/
def put (now : ℕ) (store : PlanStore) (plan : Plan) : PlanStore :=
  ⟨((store.gc now).plans.filter fun other => other.id ≠ plan.id) ++ [plan]⟩

/-- `get`. -/
def get (now : ℕ) (store : PlanStore) (planId : String) : Option Plan × PlanStore :=
  ((store.gc now).find? planId, store.gc now)

/-- `pop`. -/
def pop (now : ℕ) (store : PlanStore) (planId : String) : Option Plan × PlanStore :=
  ((store.gc now).find? planId, ⟨(store.gc now).plans.filter fun plan => plan.id ≠ planId⟩)

/-- The members of a spec by their names in order. -/
def specJson (spec : StoragePlanSpec) : Json :=
  .obj
    [("array_name", .str spec.arrayName), ("disk_paths", .arr (spec.diskPaths.map .str)),
      ("disk_serials", .arr (spec.diskSerials.map .str)), ("filesystem", .str spec.filesystem.str),
      ("level", .str spec.level.str), ("lv_name", .str spec.lvName),
      ("mountpoint", .str spec.mountpoint), ("vg_name", .str spec.vgName),
      ("volume_name", .str spec.volumeName)]

/-- `confirm_token`, with the keyed hash of the store. -/
def confirmToken (hmac : String → String) (plan : Plan) : String :=
  hmac (String.ofList (Json.print Json.dumps (.obj [("id", .str plan.id), ("spec", specJson plan.spec)])))

/-- A plan that is not there is not there after the old ones are gone. -/
theorem find?_gc_eq_none {now : ℕ} {store : PlanStore} {planId : String}
    (h : store.find? planId = none) :
  (store.gc now).find? planId = none
  := by
  rw [find?, List.find?_eq_none] at h ⊢
  intro plan hplan
  apply h plan (List.mem_filter.mp hplan).1

/-- A plan that was popped is not there. -/
theorem find?_pop (now : ℕ) (store : PlanStore) (planId : String) :
  (store.pop now planId).2.find? planId = none
  := by
  rw [find?, List.find?_eq_none]
  intro plan hplan
  obtain ⟨-, hne⟩ := List.mem_filter.mp hplan
  simpa using hne

/-- Popping a plan adds none. -/
theorem find?_pop_eq_none {now : ℕ} {store : PlanStore} {planId popped : String}
    (h : store.find? planId = none) :
  (store.pop now popped).2.find? planId = none
  := by
  have hgc := @find?_gc_eq_none now store planId h
  rw [find?, List.find?_eq_none] at hgc ⊢
  intro plan hplan
  apply hgc plan (List.mem_filter.mp hplan).1

/-- Putting a plan adds no other. -/
theorem find?_put_eq_none {now : ℕ} {store : PlanStore} {planId : String} {plan : Plan}
    (hne : plan.id ≠ planId) (h : store.find? planId = none) :
  (store.put now plan).find? planId = none
  := by
  have hgc := @find?_gc_eq_none now store planId h
  rw [find?, List.find?_eq_none] at hgc ⊢
  intro other hother
  rcases List.mem_append.mp hother with hother | hother
  · apply hgc other (List.mem_filter.mp hother).1
  · cases List.mem_singleton.mp hother
    simpa using hne

end PlanStore

/-! ### Requests -/

/-- The operations that a request to execute a plan awaits. -/
inductive PlanOp where
  /-- `_store.get`. -/
  | getPlan (planId : String)
  /-- Select the mountpoints of the managed volumes. -/
  | managedMountpoints
  /-- Call `storage.execute_plan`. -/
  | executePlan (params : StorageExecutePlanParams)
  /-- `_store.pop`. -/
  | popPlan (planId : String)
  deriving DecidableEq

/-- The answers to the operations. -/
abbrev PlanOp.Answer : PlanOp → Type
  | .getPlan _ => Option Plan
  | .managedMountpoints => Except Exc (List String)
  | .executePlan _ => Except Exc String
  | .popPlan _ => Option Plan

/-- A computation of a request to execute a plan. -/
abbrev PlanM (α : Type) : Type :=
  Async PlanOp PlanOp.Answer α

/-- What a request to execute a plan carries. -/
structure ExecutePlanRequest where
  planId : String
  confirmToken : String
  typedConfirmation : String

/-- `execute_plan` of the storage service. -/
def StorageService.executePlan (hmac : String → String) (request : ExecutePlanRequest) :
    PlanM String := do
  match ← Async.ask (PlanOp.getPlan request.planId) with
  | none => throw (.serviceError "plan_not_found" "plan not found or expired")
  | some plan =>
      Async.raiseIf (PlanStore.confirmToken hmac plan ≠ request.confirmToken)
        (.serviceError "bad_confirm_token" "confirm token does not match this plan")
      Async.raiseIf (request.typedConfirmation ≠ plan.confirmText)
        (.serviceError "confirmation_mismatch"
          ("type " ++ String.ofList (Text.repr plan.confirmText.toList) ++ " exactly to confirm"))
      let managed ← ExceptT.mk (Coroutine.perform PlanOp.managedMountpoints)
      let jobId ← tryCatch
        (ExceptT.mk (Coroutine.perform (PlanOp.executePlan
          ⟨plan.spec, plan.expectedSizes, managed ++ [plan.spec.mountpoint]⟩)))
        fun
          | .rpcCallError code message => throw (.serviceError code message)
          | e => throw e
      let _ ← Async.ask (PlanOp.popPlan request.planId)
      pure jobId

/-- `execute_plan` of the storage API. -/
def StorageApi.executePlan (hmac : String → String) (request : ExecutePlanRequest) :
    PlanM String :=
  tryCatch (StorageService.executePlan hmac request)
    fun
      | .serviceError _ message => throw (.httpException 400 message)
      | e => throw e
