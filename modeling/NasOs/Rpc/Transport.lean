import Mathlib.Data.Finset.Basic
import NasOs.Library.Json
import NasOs.Library.Machine
import NasOs.Rpc.Dispatcher

/-!
# Calls over a socket

`UnixSocketTransport` has many calls share one connection: each call writes its request and awaits a
future that is pending under the id of the request, and a read loop gives the future of a response its
result.  When the loop ends, it fails all pending futures and forgets the connection, and the next call
opens another one.

Calls and connections are numbered; the transport names calls by random strings.  What happens between
two points where a coroutine may be suspended is one step, and the order of the steps is left open.
-/

/-- `RpcResponse`. -/
structure RpcResponse where
  id : ℕ
  result : Except RpcError Json

/-- What the peer sends. -/
inductive RpcFrame where
  | response (response : RpcResponse)
  | event
  | unknown
  /-- A line that is too long, or no JSON, or not valid, or an event that its handler refuses. -/
  | bad

/-- A connection: its writer is closing, it is lost, its reader has an exception, is at its end, and holds
some frames. -/
structure SocketConnection where
  closing : Bool
  lost : Bool
  broken : Bool
  ended : Bool
  buffer : List RpcFrame

/-- The task of a read loop. -/
inductive ReadLoop where
  /-- The task has not begun; it may be cancelled before. -/
  | fresh (cancelled : Bool)
  /-- It awaits a line from the reader of a connection; it may be cancelled. -/
  | reading (connection : ℕ) (cancelled : Bool)
  /-- It is over, or there is none. -/
  | ended

/-- The loop is over. -/
def ReadLoop.isOver : ReadLoop → Bool
  | .ended => true
  | _ => false

/-- The task was not begun. -/
def ReadLoop.isFresh : ReadLoop → Bool
  | .fresh _ => true
  | _ => false

/-- A loop awaits a line from a connection. -/
def ReadLoop.reads (c : ℕ) : ReadLoop → Bool
  | .reading connection _ => connection = c
  | _ => false

/-- The task is cancelled, unless it is over. -/
def ReadLoop.cancel : ReadLoop → ReadLoop
  | .fresh _ => .fresh true
  | .reading connection _ => .reading connection true
  | .ended => .ended

/-- A task that is cancelled is still there. -/
@[simp]
theorem ReadLoop.isOver_cancel (loop : ReadLoop) :
  loop.cancel.isOver = loop.isOver
  := by
  cases loop with
  | fresh cancelled => rfl
  | reading connection cancelled => rfl
  | ended => rfl

/-- The future of a call. -/
inductive ResponseFuture where
  | waiting
  | result (response : RpcResponse)
  /-- `ConnectionError`. -/
  | failed

/-- The loop is cancelled. -/
def ReadLoop.isCancelled : ReadLoop → Bool
  | .fresh cancelled => cancelled
  | .reading _ cancelled => cancelled
  | .ended => false

/-- How a call ends. -/
inductive CallOutcome where
  | answered (response : RpcResponse)
  | connectionError
  /-- No connection could be opened. -/
  | refused

/-- What the frames of a connection tell the call of an id. -/
def RpcFrame.told (i : ℕ) : List RpcFrame → ResponseFuture
  | [] => .waiting
  | .response answer :: rest => if answer.id = i then .result answer else told i rest
  | .event :: rest => told i rest
  | .unknown :: rest => told i rest
  | .bad :: _ => .failed

/-- What is left of a future at the end of its connection. -/
def ResponseFuture.atEnd (ended : Bool) : ResponseFuture → ResponseFuture
  | .waiting => if ended then .failed else .waiting
  | .result response => .result response
  | .failed => .failed

/-- How a call ends whose future is done. -/
def ResponseFuture.outcome : ResponseFuture → Option CallOutcome
  | .waiting => none
  | .result response => some (.answered response)
  | .failed => some .connectionError

/-- Where a call is. -/
inductive CallStage where
  | idle
  /-- It awaits the connect lock. -/
  | locking
  /-- It has the lock and awaits a connection. -/
  | connecting
  /-- It has written its request and awaits the writer. -/
  | draining
  /-- It awaits its future. -/
  | awaiting
  | ended (outcome : CallOutcome)

/-- A call: where it is, the connection that its request was written on, and its future. -/
structure SocketCall where
  stage : CallStage
  connection : Option ℕ
  future : ResponseFuture

/-- `UnixSocketTransport`.  The reader and the writer are set and cleared together, and the last read loop
that was made is that of the last connection. -/
structure SocketTransport where
  opened : ℕ
  connections : ℕ → SocketConnection
  loops : ℕ → ReadLoop
  current : Option ℕ
  pending : Finset ℕ
  locked : Bool
  calls : ℕ → SocketCall

namespace SocketTransport

/-- A transport without a connection. -/
def start : SocketTransport :=
  ⟨0, fun _ => ⟨false, false, false, false, []⟩, fun _ => .ended, none, ∅, false,
    fun _ => ⟨.idle, none, .waiting⟩⟩

/-! ### What the coroutines do -/

/-- The connection that `_ensure_connected` goes on with. -/
def usable (t : SocketTransport) : Option ℕ :=
  t.current.filter fun c => !(t.connections c).closing

/-- Change where a call is. -/
def move (t : SocketTransport) (i : ℕ) (stage : CallStage) : SocketTransport :=
  { t with calls := Function.update t.calls i { t.calls i with stage } }

/-- Change a connection. -/
def touch (t : SocketTransport) (c : ℕ) (f : SocketConnection → SocketConnection) : SocketTransport :=
  { t with connections := Function.update t.connections c (f (t.connections c)) }

/-- A call writes its request on a connection; when this fails, the connection is closing. -/
def write (t : SocketTransport) (i c : ℕ) (delivered : Bool) : SocketTransport :=
  { t with
    pending := insert i t.pending
    calls := Function.update t.calls i ⟨.draining, some c, .waiting⟩
    connections := Function.update t.connections c
      { t.connections c with closing := (t.connections c).closing || !delivered } }

/-- A call goes on with the connection there is, or it has the lock and opens one. -/
def proceed (t : SocketTransport) (i : ℕ) (delivered : Bool) : SocketTransport :=
  match t.usable with
  | some c => t.write i c delivered
  | none => { t.move i .connecting with locked := true }

/-- A connection was opened, and a read loop is made for it. -/
def install (t : SocketTransport) : SocketTransport :=
  { t with
    opened := t.opened + 1
    connections := Function.update t.connections t.opened ⟨false, false, false, false, []⟩
    loops := Function.update t.loops t.opened (.fresh false)
    current := some t.opened
    locked := false }

/-- The end of `_read_loop`: the pending futures fail, and the connection is forgotten. -/
def terminate (t : SocketTransport) (k : ℕ) : SocketTransport :=
  { t with
    calls := fun i =>
      match (t.calls i).future with
      | .waiting => if i ∈ t.pending then { t.calls i with future := .failed } else t.calls i
      | _ => t.calls i
    pending := ∅
    current := none
    loops := Function.update t.loops k .ended }

/-- `_dispatch_frame`, unless it raises. -/
def dispatch (t : SocketTransport) : RpcFrame → Option SocketTransport
  | .response response =>
      some { t with
        calls :=
          match (t.calls response.id).future with
          | .waiting =>
              if response.id ∈ t.pending then
                Function.update t.calls response.id
                  { t.calls response.id with future := .result response }
              else t.calls
          | _ => t.calls
        pending := t.pending.erase response.id }
  | .event => some t
  | .unknown => some t
  | .bad => none

/-- The reader of a connection has nothing to give yet. -/
def quiet (t : SocketTransport) (c : ℕ) : Bool :=
  (t.connections c).buffer.isEmpty && !(t.connections c).ended && !(t.connections c).broken

/-- `readline` of the reader there is: without one it raises, and so it does when another loop waits for
the same reader. -/
def readline (t : SocketTransport) (k : ℕ) : SocketTransport :=
  match t.current with
  | none => t.terminate k
  | some c =>
      if t.quiet c ∧ ∃ other < t.opened, other ≠ k ∧ (t.loops other).reads c then t.terminate k
      else { t with loops := Function.update t.loops k (.reading c false) }

/-- A loop handles the frame that it got. -/
def handle (t : SocketTransport) (k : ℕ) (frame : RpcFrame) : SocketTransport :=
  match t.dispatch frame with
  | none => t.terminate k
  | some t => t.readline k

/-- A loop goes on until it awaits a line, or it waits for one that is not there. -/
def turn (t : SocketTransport) (k : ℕ) : Option SocketTransport :=
  match t.loops k with
  | .ended => none
  | .fresh cancelled =>
      -- what is raised before the `try` leaves the futures pending
      if cancelled ∨ t.current.isNone then some { t with loops := Function.update t.loops k .ended }
      else some (t.readline k)
  | .reading c cancelled =>
      if cancelled ∨ (t.connections c).broken then some (t.terminate k)
      else
        match (t.connections c).buffer with
        | frame :: rest =>
            some ((t.touch c fun connection => { connection with buffer := rest }).handle k frame)
        | [] => if (t.connections c).ended then some (t.terminate k) else none

/-- `close`. -/
def close (t : SocketTransport) : SocketTransport :=
  { t with
    loops := if t.opened = 0 then t.loops
      else Function.update t.loops (t.opened - 1) (t.loops (t.opened - 1)).cancel
    connections :=
      match t.current with
      | some c => Function.update t.connections c { t.connections c with closing := true }
      | none => t.connections }

end SocketTransport

/-! ### Steps -/

/-- What happens. -/
inductive TransportLabel where
  /-- A call begins; if it writes at once, what it writes may not be delivered. -/
  | call (i : ℕ) (delivered : Bool)
  /-- A call is given the connect lock. -/
  | lock (i : ℕ) (delivered : Bool)
  /-- A connection is opened for a call. -/
  | connect (i : ℕ) (delivered : Bool)
  /-- No connection can be opened. -/
  | refuse (i : ℕ)
  /-- `drain` returns, or it raises because the connection is lost. -/
  | drain (i : ℕ)
  /-- A call is resumed with its future done. -/
  | resume (i : ℕ)
  /-- A read loop takes a turn. -/
  | turn (k : ℕ)
  /-- A line arrives. -/
  | receive (c : ℕ) (frame : RpcFrame)
  /-- The peer has sent all. -/
  | finish (c : ℕ)
  /-- A connection is lost, perhaps with an exception. -/
  | lose (c : ℕ) (broken : Bool)
  | close

namespace SocketTransport

/-- The step of a label. -/
def step (t : SocketTransport) : TransportLabel → Option SocketTransport
  | .call i delivered =>
      match (t.calls i).stage with
      | .idle =>
          match t.usable with
          | some c => some (t.write i c delivered)
          | none => if t.locked then some (t.move i .locking) else some (t.proceed i delivered)
      | _ => none
  | .lock i delivered =>
      match (t.calls i).stage with
      | .locking => if t.locked then none else some (t.proceed i delivered)
      | _ => none
  | .connect i delivered =>
      match (t.calls i).stage with
      | .connecting => some (t.install.write i t.opened delivered)
      | _ => none
  | .refuse i =>
      match (t.calls i).stage with
      | .connecting => some { t.move i (.ended .refused) with locked := false }
      | _ => none
  | .drain i =>
      match (t.calls i).stage, (t.calls i).connection with
      | .draining, some c =>
          if (t.connections c).lost then some (t.move i (.ended .connectionError))
          else some (t.move i .awaiting)
      | _, _ => none
  | .resume i =>
      match (t.calls i).stage, (t.calls i).future with
      | .awaiting, .result response =>
          some { t.move i (.ended (.answered response)) with pending := t.pending.erase i }
      | .awaiting, .failed =>
          some { t.move i (.ended .connectionError) with pending := t.pending.erase i }
      | _, _ => none
  | .turn k => t.turn k
  | .receive c frame =>
      if c < t.opened ∧ (t.connections c).closing = false ∧ (t.connections c).ended = false then
        some (t.touch c fun connection => { connection with buffer := connection.buffer ++ [frame] })
      else none
  | .finish c =>
      if c < t.opened then some (t.touch c fun connection => { connection with ended := true }) else none
  | .lose c broken =>
      if c < t.opened then
        some (t.touch c fun connection =>
          { connection with
            closing := true
            lost := true
            broken := connection.broken || broken
            ended := connection.ended || !broken })
      else none
  | .close => some t.close

/-- The machine of a transport. -/
def machine : Machine SocketTransport TransportLabel :=
  ⟨step⟩

end SocketTransport

/-! ### What holds when loops do not overlap -/

namespace SocketTransport

/-- A connection is opened only when no other read loop is still there, and the transport is closed only
when no read loop has yet to begin. -/
def Orderly (t : SocketTransport) : TransportLabel → Prop
  | .connect _ _ => ∀ k < t.opened, (t.loops k).isOver = true
  | .close => ∀ k < t.opened, (t.loops k).isFresh = false
  | _ => True

instance (t : SocketTransport) (a : TransportLabel) : Decidable (t.Orderly a) :=
  match a with
  | .connect _ _ => inferInstanceAs (Decidable (∀ k < t.opened, (t.loops k).isOver = true))
  | .close => inferInstanceAs (Decidable (∀ k < t.opened, (t.loops k).isFresh = false))
  | .call _ _ => isTrue trivial
  | .lock _ _ => isTrue trivial
  | .refuse _ => isTrue trivial
  | .drain _ => isTrue trivial
  | .resume _ => isTrue trivial
  | .turn _ => isTrue trivial
  | .receive _ _ => isTrue trivial
  | .finish _ => isTrue trivial
  | .lose _ _ => isTrue trivial

/-- What is known of a call: its future is pending as long as it waits, on the current connection; it
fails only when the read loop of its connection is over; what answers it is its own response. -/
structure CallInv (t : SocketTransport) (i : ℕ) (call : SocketCall) : Prop where
  pending : i ∈ t.pending → ∃ c, call.connection = some c ∧ t.current = some c
  waiting : ∀ c, call.connection = some c → call.future = .waiting → i ∈ t.pending
  failed : call.future = .failed → ∃ c, call.connection = some c ∧ (t.loops c).isOver = true
  own : ∀ response, call.future = .result response → response.id = i
  answered : ∀ response, call.stage = .ended (.answered response) → response.id = i
  error : call.stage = .ended .connectionError → ∃ c, call.connection = some c
    ∧ ((t.loops c).isOver = true ∨ (t.connections c).lost = true)
  written : ∀ c, call.connection = some c → c < t.opened

/-- What is known of a transport whose steps were orderly: a read loop that is still there reads the
current connection. -/
structure Inv (t : SocketTransport) : Prop where
  loop : ∀ k, (t.loops k).isOver = false → t.current = some k
  current : ∀ c, t.current = some c → c < t.opened
    ∧ (t.loops c = .fresh false ∨ ∃ cancelled, t.loops c = .reading c cancelled)
  calls : ∀ i, t.CallInv i (t.calls i)

variable {t t' : SocketTransport}

/-- Nothing is known to be wrong at the start. -/
theorem inv_start :
  start.Inv
  := by
  constructor
  · rintro k ⟨⟩
  · rintro c ⟨⟩
  · intro i
    constructor
    · intro hi
      cases hi
    · rintro c ⟨⟩
    · rintro ⟨⟩
    · rintro response ⟨⟩
    · rintro response ⟨⟩
    · rintro ⟨⟩
    · rintro c ⟨⟩

/-- What is known of a call stays when its future is as pending as it was, on the same connection. -/
theorem CallInv.congr {i : ℕ} {call : SocketCall} (h : t.CallInv i call)
    (hpending : i ∈ t'.pending ↔ i ∈ t.pending) (hcurrent : t'.current = t.current)
    (hover : ∀ c < t.opened, (t.loops c).isOver = true → (t'.loops c).isOver = true)
    (hlost : ∀ c < t.opened, (t.connections c).lost = true → (t'.connections c).lost = true)
    (hopened : t.opened ≤ t'.opened) :
  t'.CallInv i call
  := by
  constructor
  · rw [hpending, hcurrent]
    apply h.pending
  · rw [hpending]
    apply h.waiting
  · intro hfuture
    obtain ⟨c, hconnection, hc⟩ := h.failed hfuture
    exact ⟨c, hconnection, hover c (h.written c hconnection) hc⟩
  · apply h.own
  · apply h.answered
  · intro hstage
    obtain ⟨c, hconnection, hc | hc⟩ := h.error hstage
    · exact ⟨c, hconnection, Or.inl (hover c (h.written c hconnection) hc)⟩
    · exact ⟨c, hconnection, Or.inr (hlost c (h.written c hconnection) hc)⟩
  · intro c hconnection
    apply Nat.lt_of_lt_of_le (h.written c hconnection) hopened

/-- What is known of a call is not about other calls, nor about the lock. -/
theorem CallInv.other {i : ℕ} {call : SocketCall} (h : t.CallInv i call) (calls : ℕ → SocketCall)
    (locked : Bool) :
  { t with calls, locked }.CallInv i call
  := by
  apply h.congr
  · rfl
  · rfl
  · exact fun _ _ => id
  · exact fun _ _ => id
  · exact Nat.le_refl _

/-- A change to a connection that forgets no loss. -/
theorem Inv.touch (h : t.Inv) (c : ℕ) {f : SocketConnection → SocketConnection}
    (hlost : (t.connections c).lost = true → (f (t.connections c)).lost = true) :
  (t.touch c f).Inv
  := by
  refine ⟨h.loop, h.current, ?_⟩
  intro i
  apply (h.calls i).congr
  · rfl
  · rfl
  · exact fun _ _ => id
  · intro c' _ hlost'
    by_cases hc : c' = c
    · subst hc
      simpa [SocketTransport.touch] using hlost hlost'
    · simpa [SocketTransport.touch, hc] using hlost'
  · exact Nat.le_refl _

/-- A change to one call. -/
theorem Inv.update (h : t.Inv) (i : ℕ) {call : SocketCall} (hcall : t.CallInv i call) :
  { t with calls := Function.update t.calls i call }.Inv
  := by
  refine ⟨h.loop, h.current, ?_⟩
  intro j
  by_cases hj : j = i
  · subst hj
    dsimp only
    rw [Function.update_self]
    apply hcall.other
  · dsimp only
    rw [Function.update_of_ne hj]
    apply (h.calls j).other

/-- The lock is nothing that the invariant is about. -/
theorem Inv.lock (h : t.Inv) (locked : Bool) :
  { t with locked }.Inv
  := by
  refine ⟨h.loop, h.current, ?_⟩
  intro i
  apply (h.calls i).other

/-- A call that goes on to a stage that fits its future. -/
theorem Inv.move (h : t.Inv) (i : ℕ) {stage : CallStage}
    (hanswered : ∀ response, stage = .ended (.answered response) →
      (t.calls i).future = .result response)
    (herror : stage = .ended .connectionError → ∃ c, (t.calls i).connection = some c
      ∧ ((t.loops c).isOver = true ∨ (t.connections c).lost = true)) :
  (t.move i stage).Inv
  := by
  apply h.update
  have hcall := h.calls i
  refine ⟨hcall.pending, hcall.waiting, hcall.failed, hcall.own, ?_, herror, hcall.written⟩
  intro response hstage
  apply hcall.own response (hanswered response hstage)

/-- A call that writes its request on the current connection. -/
theorem Inv.write (h : t.Inv) (i : ℕ) {c : ℕ} (hc : t.current = some c) (delivered : Bool) :
  (t.write i c delivered).Inv
  := by
  refine ⟨h.loop, h.current, ?_⟩
  intro j
  by_cases hj : j = i
  · subst hj
    simp only [SocketTransport.write, Function.update_self]
    constructor
    · intro _
      exact ⟨c, rfl, hc⟩
    · rintro c' - -
      apply Finset.mem_insert_self
    · rintro ⟨⟩
    · rintro response ⟨⟩
    · rintro response ⟨⟩
    · rintro ⟨⟩
    · rintro c' ⟨⟩
      exact (h.current c hc).1
  · simp only [SocketTransport.write, Function.update_of_ne hj]
    apply (h.calls j).congr
    · simp [hj]
    · rfl
    · exact fun _ _ => id
    · intro c' _ hlost
      by_cases hc' : c' = c
      · subst hc'
        simpa using hlost
      · simpa [hc'] using hlost
    · exact Nat.le_refl _

/-- A call that goes on with the connection there is, or that opens one. -/
theorem Inv.proceed (h : t.Inv) (i : ℕ) (delivered : Bool) :
  (t.proceed i delivered).Inv
  := by
  rw [SocketTransport.proceed]
  split
  · rename_i c hc
    apply h.write i _ delivered
    rw [usable, Option.filter_eq_some_iff] at hc
    apply hc.1
  · apply (h.move i _ _).lock true
    · rintro response ⟨⟩
    · rintro ⟨⟩

/-- A connection that is opened when no read loop is there. -/
theorem Inv.install (h : t.Inv) (hover : ∀ k < t.opened, (t.loops k).isOver = true) :
  t.install.Inv
  := by
  have hcurrent : t.current = none := by
    apply Option.eq_none_iff_forall_ne_some.mpr
    intro c hc
    obtain ⟨hlt, hloop | ⟨cancelled, hloop⟩⟩ := h.current c hc
    · simpa [hloop, ReadLoop.isOver] using hover c hlt
    · simpa [hloop, ReadLoop.isOver] using hover c hlt
  refine ⟨?_, ?_, ?_⟩
  · intro k hk
    by_cases hkn : k = t.opened
    · rw [hkn]
      rfl
    · simp only [SocketTransport.install, Function.update_of_ne hkn] at hk
      have hcontra := h.loop k hk
      rw [hcurrent] at hcontra
      cases hcontra
  · rintro c ⟨⟩
    constructor
    · apply Nat.lt_succ_self
    · left
      apply Function.update_self
  · intro i
    have hcall := h.calls i
    constructor
    · intro hi
      obtain ⟨c, -, hc⟩ := hcall.pending hi
      rw [hcurrent] at hc
      cases hc
    · apply hcall.waiting
    · intro hfuture
      obtain ⟨c, hconnection, hc⟩ := hcall.failed hfuture
      have hne := (hcall.written c hconnection).ne
      refine ⟨c, hconnection, ?_⟩
      simpa [SocketTransport.install, hne] using hc
    · apply hcall.own
    · apply hcall.answered
    · intro hstage
      obtain ⟨c, hconnection, hc⟩ := hcall.error hstage
      have hne := (hcall.written c hconnection).ne
      refine ⟨c, hconnection, ?_⟩
      simpa [SocketTransport.install, hne] using hc
    · intro c hconnection
      apply Nat.lt_succ_of_lt (hcall.written c hconnection)

/-- A loop that ends fails the future of a pending call. -/
theorem terminate_calls (k : ℕ) {i : ℕ} (hwaiting : (t.calls i).future = .waiting)
    (hi : i ∈ t.pending) :
  (t.terminate k).calls i = { t.calls i with future := .failed }
  := by
  simp only [SocketTransport.terminate, hwaiting]
  rw [if_pos hi]

/-- The loop of the current connection ends. -/
theorem Inv.terminate (h : t.Inv) {k : ℕ} (hk : t.current = some k) :
  (t.terminate k).Inv
  := by
  have hover : ∀ c, (t.loops c).isOver = true → ((t.terminate k).loops c).isOver = true := by
    intro c hc
    by_cases hck : c = k
    · simp [SocketTransport.terminate, hck, ReadLoop.isOver]
    · simpa [SocketTransport.terminate, hck] using hc
  refine ⟨?_, ?_, ?_⟩
  · intro k' hk'
    by_cases hkk : k' = k
    · simp [SocketTransport.terminate, hkk, ReadLoop.isOver] at hk'
    · simp only [SocketTransport.terminate, Function.update_of_ne hkk] at hk'
      have hcontra := h.loop k' hk'
      rw [hk] at hcontra
      cases hcontra
      exact absurd rfl hkk
  · rintro c ⟨⟩
  · intro i
    have hcall := h.calls i
    have herror : (t.calls i).stage = .ended .connectionError →
        ∃ c, (t.calls i).connection = some c
          ∧ (((t.terminate k).loops c).isOver = true ∨ (t.connections c).lost = true) := by
      intro hstage
      obtain ⟨c, hconnection, hc⟩ := hcall.error hstage
      exact ⟨c, hconnection, hc.imp_left (hover c)⟩
    by_cases hi : (t.calls i).future = .waiting ∧ i ∈ t.pending
    · rw [terminate_calls k hi.1 hi.2]
      obtain ⟨c, hconnection, hc⟩ := hcall.pending hi.2
      rw [hk] at hc
      cases hc
      constructor
      · rintro ⟨⟩
      · rintro c' - ⟨⟩
      · intro _
        refine ⟨k, hconnection, ?_⟩
        simp [SocketTransport.terminate, ReadLoop.isOver]
      · rintro response ⟨⟩
      · apply hcall.answered
      · apply herror
      · apply hcall.written
    · have heq : (t.terminate k).calls i = t.calls i := by
        simp only [SocketTransport.terminate]
        split
        · rename_i hwaiting
          rw [if_neg fun hmem => hi ⟨hwaiting, hmem⟩]
        · rfl
      rw [heq]
      constructor
      · rintro ⟨⟩
      · intro c hconnection hwaiting
        exact absurd ⟨hwaiting, hcall.waiting c hconnection hwaiting⟩ hi
      · intro hfuture
        obtain ⟨c, hconnection, hc⟩ := hcall.failed hfuture
        exact ⟨c, hconnection, hover c hc⟩
      · apply hcall.own
      · apply hcall.answered
      · apply herror
      · apply hcall.written

/-- A call is no longer pending, and it does not wait. -/
theorem Inv.settle (h : t.Inv) (i : ℕ) {call : SocketCall}
    (hcall : { t with pending := t.pending.erase i }.CallInv i call) :
  { t with
    calls := Function.update t.calls i call
    pending := t.pending.erase i }.Inv
  := by
  refine ⟨h.loop, h.current, ?_⟩
  intro j
  by_cases hj : j = i
  · subst hj
    dsimp only
    rw [Function.update_self]
    apply hcall.other
  · dsimp only
    rw [Function.update_of_ne hj]
    apply (h.calls j).congr
    · simp [hj]
    · rfl
    · exact fun _ _ => id
    · exact fun _ _ => id
    · exact Nat.le_refl _

/-- A frame gives the future of its call a result, or it changes no future. -/
theorem Inv.dispatch (h : t.Inv) {frame : RpcFrame} (hframe : t.dispatch frame = some t') :
  t'.Inv
  := by
  cases frame with
  | event =>
      cases hframe
      apply h
  | unknown =>
      cases hframe
      apply h
  | bad => cases hframe
  | response response =>
      have hcall := h.calls response.id
      by_cases hi : (t.calls response.id).future = .waiting ∧ response.id ∈ t.pending
      · simp only [SocketTransport.dispatch, hi.1, if_pos hi.2, Option.some.injEq] at hframe
        subst hframe
        apply h.settle
        constructor
        · intro hmem
          exact absurd rfl (Finset.mem_erase.mp hmem).1
        · rintro c - ⟨⟩
        · rintro ⟨⟩
        · rintro response' ⟨⟩
          rfl
        · apply hcall.answered
        · apply hcall.error
        · apply hcall.written
      · have heq : some { t with pending := t.pending.erase response.id } = some t' := by
          rw [← hframe, SocketTransport.dispatch]
          congr
          split
          · rename_i hwaiting
            rw [if_neg fun hmem => hi ⟨hwaiting, hmem⟩]
          · rfl
        cases heq
        have hcall' : { t with pending := t.pending.erase response.id }.CallInv response.id
            (t.calls response.id) := by
          constructor
          · intro hmem
            exact absurd rfl (Finset.mem_erase.mp hmem).1
          · intro c hconnection hwaiting
            exact absurd ⟨hwaiting, hcall.waiting c hconnection hwaiting⟩ hi
          · apply hcall.failed
          · apply hcall.own
          · apply hcall.answered
          · apply hcall.error
          · apply hcall.written
        have hsettle := h.settle response.id hcall'
        rwa [Function.update_eq_self] at hsettle

/-- A frame leaves the loops and the connections alone. -/
theorem dispatch_frame {frame : RpcFrame} (hframe : t.dispatch frame = some t') :
  t'.current = t.current ∧ t'.loops = t.loops ∧ t'.connections = t.connections
    ∧ t'.opened = t.opened
  := by
  cases frame with
  | response response =>
      cases hframe
      exact ⟨rfl, rfl, rfl, rfl⟩
  | event =>
      cases hframe
      exact ⟨rfl, rfl, rfl, rfl⟩
  | unknown =>
      cases hframe
      exact ⟨rfl, rfl, rfl, rfl⟩
  | bad => cases hframe

/-- The loop of the current connection awaits a line from it, as no other loop does. -/
theorem Inv.readline_eq (h : t.Inv) {k : ℕ} (hk : t.current = some k) :
  t.readline k = { t with loops := Function.update t.loops k (.reading k false) }
  := by
  simp only [readline, hk]
  rw [if_neg]
  rintro ⟨-, other, -, hne, hreads⟩
  have hcurrent : t.current = some other := by
    apply h.loop
    cases hloop : t.loops other with
    | fresh cancelled => rfl
    | reading c cancelled => rfl
    | ended =>
        rw [hloop] at hreads
        cases hreads
  rw [hk] at hcurrent
  cases hcurrent
  exact hne rfl

/-- The loop of the current connection is there. -/
theorem Inv.not_over (h : t.Inv) {k : ℕ} (hk : t.current = some k) :
  (t.loops k).isOver = false
  := by
  obtain ⟨-, hloop | ⟨cancelled, hloop⟩⟩ := h.current k hk
  · rw [hloop]
    rfl
  · rw [hloop]
    rfl

/-- The loop of the current connection awaits a line from it. -/
theorem Inv.reading (h : t.Inv) {k : ℕ} (hk : t.current = some k) (cancelled : Bool) :
  { t with loops := Function.update t.loops k (.reading k cancelled) }.Inv
  := by
  refine ⟨?_, ?_, ?_⟩
  · intro k' hk'
    by_cases hkk : k' = k
    · rw [hkk]
      exact hk
    · simp only [Function.update_of_ne hkk] at hk'
      apply h.loop k' hk'
  · intro c hc
    have hck : k = c := by
      rw [← Option.some.injEq, ← hk]
      exact hc
    subst hck
    constructor
    · apply (h.current k hk).1
    · right
      use cancelled
      apply Function.update_self
  · intro i
    apply (h.calls i).congr
    · rfl
    · rfl
    · intro c _ hc
      have hck : c ≠ k := by
        rintro rfl
        rw [h.not_over hk] at hc
        cases hc
      simpa [hck] using hc
    · exact fun _ _ => id
    · exact Nat.le_refl _

/-- The loop of the current connection handles a frame. -/
theorem Inv.handle (h : t.Inv) {k : ℕ} (hk : t.current = some k) (frame : RpcFrame) :
  (t.handle k frame).Inv
  := by
  rw [SocketTransport.handle]
  cases hframe : t.dispatch frame with
  | none => apply h.terminate hk
  | some t' =>
      have hk' : t'.current = some k := by
        rw [(dispatch_frame hframe).1, hk]
      have h' := h.dispatch hframe
      dsimp only
      rw [h'.readline_eq hk']
      apply h'.reading hk'

/-- A loop that takes a turn is that of the current connection, which it reads. -/
theorem Inv.turn (h : t.Inv) {k : ℕ} (hturn : t.turn k = some t') :
  t'.Inv
  := by
  rw [SocketTransport.turn] at hturn
  cases hloop : t.loops k with
  | ended =>
      rw [hloop] at hturn
      cases hturn
  | fresh cancelled =>
      have hk : t.current = some k := by
        apply h.loop
        rw [hloop]
        rfl
      obtain ⟨-, hfresh | ⟨cancelled, hreading⟩⟩ := h.current k hk
      · rw [hloop, ReadLoop.fresh.injEq] at hfresh
        subst hfresh
        rw [hloop] at hturn
        simp only [hk, Option.isNone_some, Bool.false_eq_true, or_self, if_false,
          Option.some.injEq] at hturn
        rw [← hturn, h.readline_eq hk]
        apply h.reading hk
      · rw [hloop] at hreading
        cases hreading
  | reading c cancelled =>
      have hk : t.current = some k := by
        apply h.loop
        rw [hloop]
        rfl
      rw [hloop] at hturn
      dsimp only at hturn
      split at hturn
      · cases hturn
        apply h.terminate hk
      · split at hturn
        · cases hturn
          apply (h.touch c _).handle hk
          exact id
        · split at hturn
          · cases hturn
            apply h.terminate hk
          · cases hturn

/-- A loop is cancelled that has begun. -/
theorem Inv.cancel (h : t.Inv) {k : ℕ} (hfresh : (t.loops k).isFresh = false) :
  { t with loops := Function.update t.loops k (t.loops k).cancel }.Inv
  := by
  have hover : ∀ c, ((Function.update t.loops k (t.loops k).cancel) c).isOver = (t.loops c).isOver := by
    intro c
    by_cases hck : c = k
    · subst hck
      rw [Function.update_self, ReadLoop.isOver_cancel]
    · rw [Function.update_of_ne hck]
  refine ⟨?_, ?_, ?_⟩
  · intro k' hk'
    rw [← h.loop k' (by rw [← hover, hk'])]
  · intro c hc
    obtain ⟨hlt, hloop⟩ := h.current c hc
    refine ⟨hlt, ?_⟩
    by_cases hck : c = k
    · subst hck
      obtain hloop | ⟨cancelled, hloop⟩ := hloop
      · rw [hloop] at hfresh
        cases hfresh
      · right
        use true
        simp [hloop, ReadLoop.cancel]
    · simpa [hck] using hloop
  · intro i
    apply (h.calls i).congr
    · rfl
    · rfl
    · intro c _ hc
      rw [← hc]
      apply hover
    · exact fun _ _ => id
    · exact Nat.le_refl _

/-- The transport is closed when no read loop has yet to begin. -/
theorem Inv.close (h : t.Inv) (hfresh : ∀ k < t.opened, (t.loops k).isFresh = false) :
  t.close.Inv
  := by
  have hclosing : { t with connections := t.close.connections }.Inv := by
    cases hcurrent : t.current with
    | none =>
        have heq : t.close.connections = t.connections := by
          simp [SocketTransport.close, hcurrent]
        rw [heq, ← hcurrent]
        exact h
    | some c =>
        have htouch := h.touch c (f := fun connection => { connection with closing := true }) id
        simpa [SocketTransport.touch, SocketTransport.close, hcurrent] using htouch
  by_cases hopened : t.opened = 0
  · simpa [SocketTransport.close, hopened] using hclosing
  · have hcancel := hclosing.cancel (hfresh (t.opened - 1) (by omega))
    simpa [SocketTransport.close, hopened] using hcancel

/-- A call is resumed with its future done. -/
theorem Inv.resume (h : t.Inv) (i : ℕ) {outcome : CallOutcome}
    (hfuture : (∃ response, (t.calls i).future = .result response ∧ outcome = .answered response)
      ∨ (t.calls i).future = .failed ∧ outcome = .connectionError) :
  { t.move i (.ended outcome) with pending := t.pending.erase i }.Inv
  := by
  have hcall := h.calls i
  apply h.settle
  constructor
  · intro hmem
    exact absurd rfl (Finset.mem_erase.mp hmem).1
  · intro c _ hwaiting
    obtain ⟨response, hresult, -⟩ | ⟨hfailed, -⟩ := hfuture
    · cases hresult.symm.trans hwaiting
    · cases hfailed.symm.trans hwaiting
  · apply hcall.failed
  · apply hcall.own
  · intro response hstage
    obtain ⟨response', hresult, rfl⟩ | ⟨-, rfl⟩ := hfuture
    · cases hstage
      apply hcall.own response hresult
    · cases hstage
  · intro hstage
    obtain ⟨response', -, rfl⟩ | ⟨hfailed, -⟩ := hfuture
    · cases hstage
    · obtain ⟨c, hconnection, hc⟩ := hcall.failed hfailed
      exact ⟨c, hconnection, Or.inl hc⟩
  · apply hcall.written

/-- An orderly step keeps what is known. -/
theorem inv_of_step {a : TransportLabel} (h : t.Inv) (horderly : t.Orderly a)
    (hstep : t.step a = some t') :
  t'.Inv
  := by
  cases a with
  | call i delivered =>
      simp only [step] at hstep
      split at hstep
      · split at hstep
        · rename_i c husable
          cases hstep
          apply h.write i _ delivered
          rw [usable, Option.filter_eq_some_iff] at husable
          apply husable.1
        · split at hstep
          · cases hstep
            apply h.move i
            · rintro response ⟨⟩
            · rintro ⟨⟩
          · cases hstep
            apply h.proceed i
      · cases hstep
  | lock i delivered =>
      simp only [step] at hstep
      split at hstep
      · split at hstep
        · cases hstep
        · cases hstep
          apply h.proceed i
      · cases hstep
  | connect i delivered =>
      simp only [step] at hstep
      split at hstep
      · cases hstep
        apply (h.install horderly).write i rfl
      · cases hstep
  | refuse i =>
      simp only [step] at hstep
      split at hstep
      · cases hstep
        apply (h.move i _ _).lock false
        · rintro response ⟨⟩
        · rintro ⟨⟩
      · cases hstep
  | drain i =>
      simp only [step] at hstep
      split at hstep
      · rename_i c hstage hconnection
        split at hstep
        · rename_i hlost
          cases hstep
          apply h.move i
          · rintro response ⟨⟩
          · intro _
            exact ⟨c, hconnection, Or.inr hlost⟩
        · cases hstep
          apply h.move i
          · rintro response ⟨⟩
          · rintro ⟨⟩
      · cases hstep
  | resume i =>
      simp only [step] at hstep
      split at hstep
      · rename_i response hstage hresult
        cases hstep
        apply h.resume i (Or.inl ⟨response, hresult, rfl⟩)
      · rename_i hstage hfailed
        cases hstep
        apply h.resume i (Or.inr ⟨hfailed, rfl⟩)
      · cases hstep
  | turn k => apply h.turn hstep
  | receive c frame =>
      simp only [step] at hstep
      split at hstep
      · cases hstep
        apply h.touch c
        exact id
      · cases hstep
  | finish c =>
      simp only [step] at hstep
      split at hstep
      · cases hstep
        apply h.touch c
        exact id
      · cases hstep
  | lose c broken =>
      simp only [step] at hstep
      split at hstep
      · cases hstep
        apply h.touch c
        exact fun _ => rfl
      · cases hstep
  | close =>
      cases hstep
      apply h.close horderly

/-- What is known at the start is known after every run of orderly steps. -/
theorem inv_of_run {labels : List TransportLabel} (horderly : machine.Along Orderly start labels)
    (hrun : machine.run start labels = some t) :
  t.Inv
  := by
  apply Machine.run_invariant _ inv_start horderly hrun
  intro t₁ a t₂ h horderly hstep
  apply inv_of_step h horderly hstep

/-! ### What the calls get -/

/-- What a call gets from its connection as it is: what the frames there tell it, or else the failure of
the connection. -/
def due (t : SocketTransport) (i c : ℕ) : ResponseFuture :=
  match (t.calls i).future with
  | .waiting =>
      if (t.loops c).isCancelled || (t.connections c).broken then .failed
      else (RpcFrame.told i (t.connections c).buffer).atEnd (t.connections c).ended
  | future => future

/-- A frame that a loop handles tells the calls that wait what it has to tell them. -/
theorem dispatch_calls {i : ℕ} {frame : RpcFrame} (hframe : t.dispatch frame = some t')
    (hwaiting : (t.calls i).future = .waiting) (hi : i ∈ t.pending) :
  t'.calls i = { t.calls i with future := RpcFrame.told i [frame] }
  := by
  have hsame : t.calls i = { t.calls i with future := .waiting } := by
    rw [← hwaiting]
  cases frame with
  | event =>
      cases hframe
      apply hsame
  | unknown =>
      cases hframe
      apply hsame
  | bad => cases hframe
  | response response =>
      cases hframe
      by_cases heq : response.id = i
      · subst heq
        simp [RpcFrame.told, hwaiting, hi]
      · have htold : RpcFrame.told i [.response response] = .waiting := by
          simp [RpcFrame.told, heq]
        rw [htold, ← hsame]
        dsimp only
        cases (t.calls response.id).future with
        | waiting =>
            dsimp only
            split
            · rw [Function.update_of_ne (Ne.symm heq)]
            · rfl
        | result answer => rfl
        | failed => rfl

/-- The loop of a connection handles a frame: it ends, or it goes on with the frames that are left. -/
theorem Inv.turn_cons (h : t.Inv) {i c : ℕ} {frame : RpcFrame} {rest : List RpcFrame}
    (hloop : t.loops c = .reading c false) (hbroken : (t.connections c).broken = false)
    (hbuffer : (t.connections c).buffer = frame :: rest)
    (hwaiting : (t.calls i).future = .waiting) (hi : i ∈ t.pending) :
  ∃ t', t.turn c = some t'
    ∧ t'.calls i = { t.calls i with future := RpcFrame.told i [frame] }
    ∧ (RpcFrame.told i [frame] = .waiting → t'.loops c = .reading c false
      ∧ t'.connections c = { t.connections c with buffer := rest })
  := by
  have hk : t.current = some c := by
    apply h.loop
    rw [hloop]
    rfl
  have hturn : t.turn c
      = some ((t.touch c fun connection => { connection with buffer := rest }).handle c frame) := by
    simp [SocketTransport.turn, hloop, hbroken, hbuffer]
  have htouch : (t.touch c fun connection => { connection with buffer := rest }).Inv :=
    h.touch c id
  refine ⟨_, hturn, ?_⟩
  rw [SocketTransport.handle]
  cases hframe : (t.touch c fun connection => { connection with buffer := rest }).dispatch frame with
  | none =>
      have hbad : RpcFrame.told i [frame] = .failed := by
        cases frame with
        | bad => rfl
        | response response => cases hframe
        | event => cases hframe
        | unknown => cases hframe
      rw [hbad]
      constructor
      · apply terminate_calls
        · exact hwaiting
        · exact hi
      · rintro ⟨⟩
  | some t' =>
      obtain ⟨hcurrent, hloops, hconnections, -⟩ := dispatch_frame hframe
      have hk' : t'.current = some c := by
        rw [hcurrent]
        exact hk
      dsimp only
      rw [(htouch.dispatch hframe).readline_eq hk']
      refine ⟨?_, fun _ => ⟨?_, ?_⟩⟩
      · apply dispatch_calls hframe
        · exact hwaiting
        · exact hi
      · apply Function.update_self
      · dsimp only
        rw [hconnections]
        apply Function.update_self

/-- What a frame and the ones after it tell a call. -/
theorem told_cons (i : ℕ) (frame : RpcFrame) (rest : List RpcFrame) :
  RpcFrame.told i (frame :: rest)
    = match RpcFrame.told i [frame] with
      | .waiting => RpcFrame.told i rest
      | future => future
  := by
  cases frame with
  | response answer =>
      by_cases heq : answer.id = i
      · simp [RpcFrame.told, heq]
      · simp [RpcFrame.told, heq]
  | event => rfl
  | unknown => rfl
  | bad => rfl

/-- A loop that takes its turns gives a call what the frames of its connection tell it. -/
theorem Inv.turns_of_buffer (h : t.Inv) {i c : ℕ} {buffer : List RpcFrame}
    (hloop : t.loops c = .reading c false) (hbroken : (t.connections c).broken = false)
    (hbuffer : (t.connections c).buffer = buffer) (hconnection : (t.calls i).connection = some c)
    (hwaiting : (t.calls i).future = .waiting) :
  ∃ n t', machine.run t (List.replicate n (.turn c)) = some t'
    ∧ t'.calls i = { t.calls i with
        future := (RpcFrame.told i buffer).atEnd (t.connections c).ended }
  := by
  induction buffer generalizing t with
  | nil =>
      cases hended : (t.connections c).ended with
      | false =>
          refine ⟨0, t, rfl, ?_⟩
          rw [RpcFrame.told, ResponseFuture.atEnd, if_neg Bool.false_ne_true, ← hwaiting]
      | true =>
          refine ⟨1, t.terminate c, ?_, ?_⟩
          · simp [machine, step, SocketTransport.turn, hloop, hbroken, hbuffer, hended]
          · rw [RpcFrame.told, ResponseFuture.atEnd, if_pos rfl]
            apply terminate_calls c hwaiting ((h.calls i).waiting c hconnection hwaiting)
  | cons frame rest ih =>
      obtain ⟨t₁, hturn, hcalls, hgoes⟩ := h.turn_cons hloop hbroken hbuffer hwaiting
        ((h.calls i).waiting c hconnection hwaiting)
      rw [told_cons]
      cases htold : RpcFrame.told i [frame] with
      | waiting =>
          obtain ⟨hloop₁, hconnection₁⟩ := hgoes htold
          obtain ⟨n, t', hrun, hcalls'⟩ := ih (h.turn hturn) hloop₁ (by rw [hconnection₁, hbroken])
            (by rw [hconnection₁]) (by rw [hcalls, hconnection]) (by rw [hcalls, htold])
          refine ⟨n + 1, t', ?_, ?_⟩
          · rw [List.replicate_succ, Machine.run_cons_eq_some]
            exact ⟨t₁, hturn, hrun⟩
          · rw [hcalls', hcalls, hconnection₁]
      | result answer =>
          refine ⟨1, t₁, ?_, ?_⟩
          · rw [List.replicate_one, Machine.run_cons_eq_some]
            exact ⟨t₁, hturn, rfl⟩
          · rw [hcalls, htold]
            rfl
      | failed =>
          refine ⟨1, t₁, ?_, ?_⟩
          · rw [List.replicate_one, Machine.run_cons_eq_some]
            exact ⟨t₁, hturn, rfl⟩
          · rw [hcalls, htold]
            rfl

/-- A loop that awaits a line gives a call what is due to it. -/
theorem Inv.turns_of_reading (h : t.Inv) {i c : ℕ} {cancelled : Bool}
    (hloop : t.loops c = .reading c cancelled) (hconnection : (t.calls i).connection = some c)
    (hwaiting : (t.calls i).future = .waiting) :
  ∃ n t', machine.run t (List.replicate n (.turn c)) = some t'
    ∧ t'.calls i = { t.calls i with future := t.due i c }
  := by
  have hi := (h.calls i).waiting c hconnection hwaiting
  by_cases hstops : (cancelled || (t.connections c).broken) = true
  · refine ⟨1, t.terminate c, ?_, ?_⟩
    · rw [Bool.or_eq_true] at hstops
      simp [machine, step, SocketTransport.turn, hloop, hstops]
    · have hdue : t.due i c = .failed := by
        simp only [due, hwaiting, hloop, ReadLoop.isCancelled]
        rw [if_pos hstops]
      rw [hdue]
      apply terminate_calls c hwaiting hi
  · have hdue : t.due i c
        = (RpcFrame.told i (t.connections c).buffer).atEnd (t.connections c).ended := by
      simp only [due, hwaiting, hloop, ReadLoop.isCancelled]
      rw [if_neg hstops]
    rw [Bool.or_eq_true, not_or, Bool.not_eq_true, Bool.not_eq_true] at hstops
    obtain ⟨rfl, hbroken⟩ := hstops
    rw [hdue]
    apply h.turns_of_buffer hloop hbroken rfl hconnection hwaiting

/-- The loop of a connection gives a call on it what is due to it. -/
theorem Inv.turns (h : t.Inv) {i c : ℕ} (hconnection : (t.calls i).connection = some c) :
  ∃ n t', machine.run t (List.replicate n (.turn c)) = some t'
    ∧ t'.calls i = { t.calls i with future := t.due i c }
  := by
  cases hfuture : (t.calls i).future with
  | result answer =>
      have hdue : t.due i c = (t.calls i).future := by
        rw [due, hfuture]
      exact ⟨0, t, rfl, by rw [hdue]⟩
  | failed =>
      have hdue : t.due i c = (t.calls i).future := by
        rw [due, hfuture]
      exact ⟨0, t, rfl, by rw [hdue]⟩
  | waiting =>
      have hi := (h.calls i).waiting c hconnection hfuture
      obtain ⟨c', hconnection', hk⟩ := (h.calls i).pending hi
      rw [hconnection] at hconnection'
      cases hconnection'
      obtain ⟨-, hloop | ⟨cancelled, hloop⟩⟩ := h.current c hk
      · have hturn : t.turn c
            = some { t with loops := Function.update t.loops c (.reading c false) } := by
          rw [← h.readline_eq hk]
          simp [SocketTransport.turn, hloop, hk]
        have hdue : { t with loops := Function.update t.loops c (.reading c false) }.due i c
            = t.due i c := by
          simp [due, hloop, ReadLoop.isCancelled]
        obtain ⟨n, t', hrun, hcalls⟩ := (h.turn hturn).turns_of_reading (i := i) (c := c)
          (Function.update_self ..) hconnection hfuture
        refine ⟨n + 1, t', ?_, ?_⟩
        · rw [List.replicate_succ, Machine.run_cons_eq_some]
          exact ⟨_, hturn, hrun⟩
        · rw [hcalls, hdue]
      · apply h.turns_of_reading hloop hconnection hfuture

/-- What the calls of a transport get. -/
structure Served (t : SocketTransport) : Prop where
  /-- What answers a call is the response to its own request. -/
  own : ∀ i response, (t.calls i).stage = .ended (.answered response) → response.id = i
  /-- A call ends with `ConnectionError` only when its own connection is no longer read or is lost. -/
  error : ∀ i, (t.calls i).stage = .ended .connectionError →
    ∃ c, (t.calls i).connection = some c
      ∧ ((t.loops c).isOver = true ∨ (t.connections c).lost = true)
  /-- No call waits for a response over a connection that is no longer read. -/
  closed : ∀ i c, (t.calls i).connection = some c → (t.loops c).isOver = true →
    (t.calls i).future ≠ .waiting
  /-- What a call gets is up to its own connection: the response to it that comes first there, or
  `ConnectionError` when none comes before the end. -/
  ends : ∀ i c outcome, (t.calls i).stage = .draining ∨ (t.calls i).stage = .awaiting →
    (t.calls i).connection = some c → (t.due i c).outcome = some outcome →
    ∃ labels t', (∀ a ∈ labels, a = .drain i ∨ a = .turn c ∨ a = .resume i)
      ∧ machine.run t labels = some t'
      ∧ ((t'.calls i).stage = .ended outcome
        ∨ (t.connections c).lost = true ∧ (t'.calls i).stage = .ended .connectionError)

/-- A call that is resumed with its future done ends as the future says. -/
theorem resume_stage {i : ℕ} {outcome : CallOutcome} (hstage : (t.calls i).stage = .awaiting)
    (hfuture : (t.calls i).future.outcome = some outcome) :
  ∃ t', t.step (.resume i) = some t' ∧ (t'.calls i).stage = .ended outcome
  := by
  cases hcase : (t.calls i).future with
  | waiting =>
      rw [hcase] at hfuture
      cases hfuture
  | result response =>
      rw [hcase] at hfuture
      cases hfuture
      refine ⟨_, by simp [step, hstage, hcase]; rfl, ?_⟩
      simp [SocketTransport.move]
  | failed =>
      rw [hcase] at hfuture
      cases hfuture
      refine ⟨_, by simp [step, hstage, hcase]; rfl, ?_⟩
      simp [SocketTransport.move]

/-- A call that awaits its future ends by turns of the loop of its connection. -/
theorem Inv.ends_of_awaiting (h : t.Inv) {i c : ℕ} {outcome : CallOutcome}
    (hstage : (t.calls i).stage = .awaiting) (hconnection : (t.calls i).connection = some c)
    (houtcome : (t.due i c).outcome = some outcome) :
  ∃ labels t', (∀ a ∈ labels, a = .turn c ∨ a = .resume i)
    ∧ machine.run t labels = some t' ∧ (t'.calls i).stage = .ended outcome
  := by
  obtain ⟨n, t₁, hrun, hcalls⟩ := h.turns hconnection
  obtain ⟨t', hstep, hended⟩ : ∃ t', t₁.step (.resume i) = some t'
      ∧ (t'.calls i).stage = .ended outcome := by
    apply resume_stage
    · rw [hcalls, hstage]
    · rw [hcalls, houtcome]
  refine ⟨List.replicate n (.turn c) ++ [.resume i], t', ?_, ?_, hended⟩
  · intro a ha
    obtain ha | ha := List.mem_append.mp ha
    · left
      apply List.eq_of_mem_replicate ha
    · right
      apply List.mem_singleton.mp ha
  · rw [Machine.run_append, hrun, Option.bind_some, Machine.run_cons_eq_some]
    exact ⟨t', hstep, rfl⟩

/-- What is known of a transport gives its calls what they are to get. -/
theorem Inv.served (h : t.Inv) :
  t.Served
  := by
  refine ⟨fun i => (h.calls i).answered, fun i => (h.calls i).error, ?_, ?_⟩
  · intro i c hconnection hover hwaiting
    obtain ⟨c', hconnection', hk⟩ :=
      (h.calls i).pending ((h.calls i).waiting c hconnection hwaiting)
    rw [hconnection] at hconnection'
    cases hconnection'
    rw [h.not_over hk] at hover
    cases hover
  · intro i c outcome hstage hconnection houtcome
    obtain hdraining | hawaiting := hstage
    · by_cases hlost : (t.connections c).lost = true
      · refine ⟨[.drain i], t.move i (.ended .connectionError), ?_, ?_, Or.inr ⟨hlost, ?_⟩⟩
        · intro a ha
          left
          apply List.mem_singleton.mp ha
        · simp [machine, step, hdraining, hconnection, hlost]
        · simp [SocketTransport.move]
      · have hdrain : t.step (.drain i) = some (t.move i .awaiting) := by
          simp [step, hdraining, hconnection, hlost]
        have hdue : (t.move i .awaiting).due i c = t.due i c := by
          simp [due, SocketTransport.move]
        obtain ⟨labels, t', hlabels, hrun, hended⟩ :=
          (inv_of_step (a := .drain i) h trivial hdrain).ends_of_awaiting (i := i) (c := c)
            (by simp [SocketTransport.move]) (by simpa [SocketTransport.move] using hconnection)
            (by rw [hdue, houtcome])
        refine ⟨.drain i :: labels, t', ?_, ?_, Or.inl hended⟩
        · intro a ha
          obtain rfl | ha := List.mem_cons.mp ha
          · left
            rfl
          · right
            apply hlabels a ha
        · apply (Machine.run_cons_eq_some _).mpr ⟨_, hdrain, hrun⟩
    · obtain ⟨labels, t', hlabels, hrun, hended⟩ :=
        h.ends_of_awaiting hawaiting hconnection houtcome
      exact ⟨labels, t', fun a ha => Or.inr (hlabels a ha), hrun, Or.inl hended⟩

/-- In every run in which no connection is opened while an earlier read loop is still there, and which
closes the transport only when no read loop has yet to begin, the calls get what they are to get. -/
theorem served_of_run {labels : List TransportLabel}
    (horderly : machine.Along Orderly start labels) (hrun : machine.run start labels = some t) :
  t.Served
  := by
  apply (inv_of_run horderly hrun).served

/-- Two calls share a connection that is lost after one of them was answered; a third one opens another. -/
def dropped : List TransportLabel :=
  [.call 0 true, .connect 0 true, .drain 0, .call 1 true, .drain 1, .turn 0,
    .receive 0 (.response ⟨1, .ok .null⟩), .turn 0, .resume 1, .lose 0 false, .turn 0, .resume 0,
    .call 2 true, .connect 2 true, .turn 1, .receive 1 (.response ⟨2, .ok .null⟩), .turn 1,
    .drain 2, .resume 2]

/-- This is a run of orderly steps. -/
theorem served_dropped :
  ∃ t, machine.run start dropped = some t ∧ t.Served
  := by
  obtain ⟨t, hrun⟩ : ∃ t, machine.run start dropped = some t := ⟨_, rfl⟩
  refine ⟨t, hrun, ?_⟩
  apply served_of_run _ hrun
  decide +kernel

/-- The transport is closed after a call has written its request and before the read loop has begun. -/
def closedEarly : List TransportLabel :=
  [.call 0 true, .connect 0 true, .drain 0, .close, .turn 0, .lose 0 false]

/-- A request cannot be written, and the next call opens a connection while the loop of the first one
still waits for its end. -/
def overlapping : List TransportLabel :=
  [.call 0 true, .connect 0 true, .drain 0, .turn 0, .call 1 false, .call 2 true, .connect 2 true,
    .turn 1, .lose 0 false, .turn 0, .drain 2, .resume 2]

/-- In the one run a call waits for ever, in the other one a call fails whose connection is read. -/
theorem not_served :
  (∃ t, machine.run start closedEarly = some t ∧ ¬ t.Served)
    ∧ ∃ t, machine.run start overlapping = some t ∧ ¬ t.Served
  := by
  constructor
  · refine ⟨_, rfl, ?_⟩
    intro h
    apply h.closed 0 0 rfl rfl rfl
  · refine ⟨_, rfl, ?_⟩
    intro h
    obtain ⟨c, hconnection, hover | hlost⟩ := h.error 2 rfl
    · cases hconnection
      cases hover
    · cases hconnection
      cases hlost

end SocketTransport
