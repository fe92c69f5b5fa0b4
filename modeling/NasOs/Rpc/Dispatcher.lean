import NasOs.Library.Protocol
import NasOs.Library.Triple

/-!
# Remote calls

A call goes from the web process to the agent: `AgentClient.call` validates the params of
a method, the dispatcher validates them again and runs the method's handler, and the
handler's `RpcException` comes back as an `RpcCallError`.  Every other exception of a
handler becomes an `internal_error`.
-/

/-- The exceptions the program raises, with what they carry. -/
inductive Exc where
  /-- `RpcException`, which a handler raises. -/
  | rpcException (code message : String)
  /-- `RpcCallError`, which a caller gets from a failed call. -/
  | rpcCallError (code message : String)
  /-- The error of a service: `UserServiceError`, `StorageServiceError` and so on. -/
  | serviceError (code message : String)
  /-- `HTTPException`, which becomes the answer to a request. -/
  | httpException (statusCode : ℕ) (detail : String)
  /-- The error of a system adapter: `SystemUserError`, `AclError` and so on. -/
  | adapterError (message : String)
  /-- Any other exception. -/
  | other (message : String)
  deriving DecidableEq

/-- What `str` gives on an exception. -/
def Exc.str : Exc → String
  | .rpcException code message => code ++ ": " ++ message
  | .rpcCallError code message => code ++ ": " ++ message
  | .serviceError _ message => message
  | .httpException statusCode detail => toString statusCode ++ ": " ++ detail
  | .adapterError message => message
  | .other message => message

/-- An `async def` that awaits the operations `Op` and may raise. -/
abbrev Async (Op : Type) (Res : Op → Type) (α : Type) : Type :=
  ExceptT Exc (Coroutine Op Res) α

namespace Async

variable {Op : Type} {Res : Op → Type} {α : Type}

/-- Await an operation whose answer cannot be an exception. -/
def ask (op : Op) : Async Op Res (Res op) :=
  ExceptT.lift (Coroutine.perform op)

/-- Return a value or raise an exception. -/
def ofExcept (a : Except Exc α) : Async Op Res α :=
  ExceptT.mk (pure a)

@[simp]
theorem ofExcept_ok_bind {β : Type} (a : α) (f : α → Async Op Res β) :
  ofExcept (.ok a) >>= f = f a
  := rfl

@[simp]
theorem ofExcept_error_bind {β : Type} (e : Exc) (f : α → Async Op Res β) :
  ofExcept (.error e) >>= f = throw e
  := rfl

/-- A value is returned without awaiting anything. -/
theorem follows_ofExcept {a : Except Exc α} {h : List (Event Op Res)} {b : α} :
  (ofExcept a : Async Op Res α).run.Follows h (.done (.ok b)) ↔ h = [] ∧ a = .ok b
  := by
  change (Coroutine.done a : Coroutine Op Res (Except Exc α)).Follows h _ ↔ _
  rw [Coroutine.follows_done, Coroutine.done.injEq, eq_comm (a := a)]

/-- Raise the exception `e` where the condition holds. -/
def raiseIf (c : Prop) [Decidable c] (e : Exc) : Async Op Res Unit :=
  if c then throw e else pure ()

/-- Where the condition does not hold, what follows is done. -/
theorem raiseIf_bind_of_not {β : Type} {c : Prop} [Decidable c] {e : Exc} (h : ¬ c)
    (f : Unit → Async Op Res β) :
  (raiseIf c e >>= f) = f ()
  := by
  rw [raiseIf, if_neg h]
  rfl

/-- Where the condition holds, the exception is raised. -/
theorem raiseIf_bind_of {β : Type} {c : Prop} [Decidable c] {e : Exc} (h : c)
    (f : Unit → Async Op Res β) :
  (raiseIf c e >>= f) = throw e
  := by
  rw [raiseIf, if_pos h]
  rfl

/-- Raising under a condition ends with the exception, or goes on where the condition does not
hold. -/
theorem ensures_raiseIf_bind {σ β : Type} {f : σ → (op : Op) → Res op × σ} {D : σ → Op → Prop}
    {Q : Except Exc β → σ → Prop} {c : Prop} [Decidable c] {e : Exc} {g : Unit → Async Op Res β} {s : σ}
    (hraised : c → Q (.error e) s) (hg : ¬ c → (g ()).run.Ensures f D Q s) :
  (raiseIf c e >>= g).run.Ensures f D Q s
  := by
  by_cases hc : c
  · rw [raiseIf_bind_of hc]
    apply hraised hc
  · rw [raiseIf_bind_of_not hc]
    apply hg hc

/-- Raising under a condition obeys a protocol, where what follows does. -/
theorem obeys_raiseIf_bind {S β : Type} {protocol : Protocol Op Res S} {Q : S → Except Exc β → Prop}
    {c : Prop} [Decidable c] {e : Exc} {g : Unit → Async Op Res β} {s : S}
    (hraised : c → Q s (.error e)) (hg : ¬ c → (g ()).run.Obeys protocol Q s) :
  (raiseIf c e >>= g).run.Obeys protocol Q s
  := by
  by_cases hc : c
  · rw [raiseIf_bind_of hc]
    apply hraised hc
  · rw [raiseIf_bind_of_not hc]
    apply hg hc

/-- Raising awaits nothing. -/
theorem awaits_raiseIf {Q : Op → Prop} (c : Prop) [Decidable c] (e : Exc) :
  (raiseIf c e : Async Op Res Unit).run.Awaits Q
  := by
  rw [raiseIf]
  split
  · apply Coroutine.awaits_throw
  · apply Coroutine.awaits_pure

/-- Awaiting an operation, run alone. -/
@[simp]
theorem execute_ask {σ : Type} (f : σ → (op : Op) → Res op × σ) (op : Op) (s : σ) :
  (ask op : Async Op Res (Res op)).run.execute f s = (.ok (f s op).1, (f s op).2)
  := rfl

/-- Awaiting an operation and going on with its answer, run alone. -/
theorem execute_ask_bind {σ β : Type} (f : σ → (op : Op) → Res op × σ) (op : Op)
    (g : Res op → Async Op Res β) (s : σ) :
  (ask op >>= g).run.execute f s = (g (f s op).1).run.execute f (f s op).2
  := rfl

/-- What a coroutine raises is a value once it is lifted. -/
@[simp]
theorem execute_lift {σ : Type} (f : σ → (op : Op) → Res op × σ) (c : Coroutine Op Res α) (s : σ) :
  (ExceptT.lift c : Async Op Res α).run.execute f s
    = (.ok (c.execute f s).1, (c.execute f s).2)
  := by
  rw [ExceptT.run_lift, map_eq_pure_bind, Coroutine.execute_bind]
  rfl

/-- Raising under a condition that does not hold is doing nothing. -/
theorem execute_raiseIf_eq_ok {σ : Type} {f : σ → (op : Op) → Res op × σ} {c : Prop} [Decidable c]
    {e : Exc} {s t : σ} {u : Unit} :
  (raiseIf c e : Async Op Res Unit).run.execute f s = (.ok u, t) ↔ ¬ c ∧ s = t
  := by
  rw [raiseIf]
  split
  · rename_i h
    constructor
    · rintro ⟨⟩
    · rintro ⟨hno, -⟩
      apply absurd h hno
  · rename_i h
    constructor
    · rintro ⟨⟩
      exact ⟨h, rfl⟩
    · rintro ⟨-, rfl⟩
      rfl

end Async

/-- `RpcError`: the code and message of a failed call. -/
structure RpcError where
  code : String
  message : String
  deriving DecidableEq

section

variable {Op : Type} {Res : Op → Type} {P α : Type}

/-- `Dispatcher.handle` on a method that is registered and has the handler `fn`:
`validationError` is the text of the error the method's schema raises on params, if it
does. -/
def Dispatcher.handle (validationError : P → Option String) (fn : P → Async Op Res α)
    (params : P) : Coroutine Op Res (Except RpcError α) :=
  match validationError params with
  | some message => pure (.error ⟨"invalid_params", message⟩)
  | none => do
      match ← (fn params).run with
      | .ok result => pure (.ok result)
      | .error (.rpcException code message) => pure (.error ⟨code, message⟩)
      | .error (.rpcCallError code message) => pure (.error ⟨code, message⟩)
      | .error _ => pure (.error ⟨"internal_error", "internal error"⟩)

/-- The error of a call whose handler raised. -/
def Dispatcher.rpcError : Exc → RpcError
  | .rpcException code message => ⟨code, message⟩
  | .rpcCallError code message => ⟨code, message⟩
  | _ => ⟨"internal_error", "internal error"⟩

/-- A call with valid params is the handler, with its exceptions made into errors. -/
theorem Dispatcher.handle_of_valid {validationError : P → Option String} {fn : P → Async Op Res α}
    {params : P} (h : validationError params = none) :
  Dispatcher.handle validationError fn params
    = (fn params).run >>= fun a => pure (a.mapError Dispatcher.rpcError)
  := by
  simp only [Dispatcher.handle, h]
  congr 1
  funext a
  rcases a with (_ | _ | _ | _ | _ | _) | a
  all_goals rfl

/-- `AgentClient.call` over a transport that hands the request to the dispatcher. -/
def AgentClient.call (validationError : P → Option String) (fn : P → Async Op Res α)
    (params : P) : Async Op Res α :=
  match validationError params with
  | some message => throw (.other message)
  | none => do
      match ← ExceptT.lift (Dispatcher.handle validationError fn params) with
      | .ok result => pure result
      | .error error => throw (.rpcCallError error.code error.message)

namespace AgentClient

variable {Q : Op → Prop} {validationError : P → Option String} {fn : P → Async Op Res α}
  {params : P}

/-- The exception a caller gets for one that the handler raised. -/
def callError : Exc → Exc
  | .rpcException code message => .rpcCallError code message
  | .rpcCallError code message => .rpcCallError code message
  | _ => .rpcCallError "internal_error" "internal error"

/-- A call with valid params is the handler, with its exceptions seen from the caller. -/
theorem call_of_valid (h : validationError params = none) :
  (call validationError fn params).run
    = (fn params).run >>= fun a => pure (a.mapError callError)
  := by
  simp only [call, Dispatcher.handle, h]
  rw [ExceptT.run_bind, ExceptT.run_lift, bind_map_left, bind_assoc]
  congr 1
  funext a
  rcases a with (_ | _ | _ | _ | _ | _) | a
  all_goals rfl

/-- A call with valid params, run alone. -/
theorem execute_call {σ : Type} {f : σ → (op : Op) → Res op × σ} (h : validationError params = none)
    (s : σ) :
  (call validationError fn params).run.execute f s
    = (((fn params).run.execute f s).1.mapError callError, ((fn params).run.execute f s).2)
  := by
  rw [call_of_valid h, Coroutine.execute_bind]
  rfl

/-- A call with params that do not validate reaches no handler. -/
theorem call_of_invalid {message : String} (h : validationError params = some message) :
  (call validationError fn params).run = .done (.error (.other message))
  := by
  simp only [call, h]
  rfl

/-- A call awaits what its handler awaits on params that validate. -/
theorem awaits_call (hfn : validationError params = none → (fn params).run.Awaits Q) :
  (call validationError fn params).run.Awaits Q
  := by
  cases h : validationError params with
  | some message =>
      rw [call_of_invalid h]
      trivial
  | none =>
      rw [call_of_valid h]
      apply (hfn h).bind
      intro a
      trivial

/-- A call obeys a protocol that its handler obeys on params that validate. -/
theorem obeys_call {S : Type} {protocol : Protocol Op Res S} {E E' : S → Except Exc α → Prop} {s : S}
    (hfn : validationError params = none → (fn params).run.Obeys protocol E s)
    (hinvalid : ∀ message, validationError params = some message → E' s (.error (.other message)))
    (hends : ∀ s' a, E s' a → E' s' (a.mapError callError)) :
  (call validationError fn params).run.Obeys protocol E' s
  := by
  cases h : validationError params with
  | some message =>
      rw [call_of_invalid h]
      apply hinvalid message h
  | none =>
      rw [call_of_valid h]
      apply (hfn h).bind
      intro s' a ha
      apply hends s' a ha

/-- A call ensures what its handler ensures on params that validate. -/
theorem ensures_call {σ : Type} {f : σ → (op : Op) → Res op × σ} {D : σ → Op → Prop}
    {E E' : Except Exc α → σ → Prop} {s : σ}
    (hfn : validationError params = none → (fn params).run.Ensures f D E s)
    (hinvalid : ∀ message, validationError params = some message → E' (.error (.other message)) s)
    (hends : ∀ a t, E a t → E' (a.mapError callError) t) :
  (call validationError fn params).run.Ensures f D E' s
  := by
  cases h : validationError params with
  | some message =>
      rw [call_of_invalid h]
      apply hinvalid message h
  | none =>
      rw [call_of_valid h]
      apply (hfn h).bind
      intro a t ha
      apply hends a t ha

/-- A call that returns visits what its handler visits on the way to a value. -/
theorem visits_call
    (hfn : validationError params = none → (fn params).run.Visits Q Coroutine.Returned) :
  (call validationError fn params).run.Visits Q Coroutine.Returned
  := by
  cases h : validationError params with
  | some message =>
      rw [call_of_invalid h]
      apply Coroutine.not_returned_error
  | none =>
      rw [call_of_valid h]
      apply (hfn h).bind
      rintro (e | a)
      · right
        apply Coroutine.not_returned_error
      · left
        apply Coroutine.returned_ok

end AgentClient

end
