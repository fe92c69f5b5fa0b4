import NasOs.Web.Hub

/-!
# What is delivered to the listeners

The `close` event of a socket has the hub connect again two seconds later, whether or not the socket is
still the hub's.  So if the hub is stopped and started before its old socket has closed, it connects
twice, and both sockets dispatch what the server sends.

As long as the sockets that close while the hub runs are the hub's own, the hub has a single socket that
is connecting or open, or a single timer, and a publication is delivered to a listener at most once.
-/

namespace Socket

/-- The numbers of the publications that are on their way to the page. -/
def inFlight (socket : Socket) : List ℕ :=
  socket.toPage.map WsFrame.data ++ socket.endpoint.pending

/-- A publication is on its way to the page at most once, and if the socket is live it was delivered to no
listener. -/
structure Ok (published : ℕ) (delivered : List (ℕ × ℕ)) (socket : Socket) : Prop where
  endpoint : socket.endpoint.Ok socket.lost
  nodup : socket.inFlight.Nodup
  bound : ∀ n ∈ socket.inFlight, n < published
  fresh : socket.readyState.isLive = true → ∀ n ∈ socket.inFlight, ∀ d ∈ delivered, d.1 ≠ n

/-- A socket without what is on its way to the server. -/
def silent (socket : Socket) : Socket :=
  { socket with toServer := [] }

variable {socket socket' : Socket} {published : ℕ} {delivered : List (ℕ × ℕ)}

/-- A socket changes, and nothing is added to what is on its way. -/
theorem Ok.update (h : socket.Ok published delivered) (hendpoint : socket'.endpoint.Ok socket'.lost)
    (hinFlight : socket'.inFlight.Subperm socket.inFlight)
    (hlive : socket'.readyState.isLive = true → socket.readyState.isLive = true) :
  socket'.Ok published delivered
  := by
  constructor
  · apply hendpoint
  · obtain ⟨l, hperm, hsub⟩ := hinFlight
    apply hperm.nodup_iff.mp (h.nodup.sublist hsub)
  · intro n hn
    apply h.bound n (hinFlight.subset hn)
  · intro hsocket n hn
    apply h.fresh (hlive hsocket) n (hinFlight.subset hn)

/-- What is said of a socket does not depend on what is on its way to the server. -/
theorem Ok.of_silent (h : socket.Ok published delivered) (hsilent : socket'.silent = socket.silent) :
  socket'.Ok published delivered
  := by
  obtain ⟨state, toServer, toPage, endpoint, lost⟩ := socket
  obtain ⟨state', toServer', toPage', endpoint', lost'⟩ := socket'
  cases hsilent
  exact ⟨h.endpoint, h.nodup, h.bound, h.fresh⟩

/-- A socket that was made. -/
theorem ok_new :
  Socket.new.Ok published delivered
  := by
  constructor
  · apply WsEndpoint.ok_accepted
  · apply List.nodup_nil
  · rintro n ⟨⟩
  · rintro - n ⟨⟩

/-- A task gets on, and what it sends is on its way. -/
theorem Ok.setStage (h : socket.Ok published delivered) {k : ℕ} {stage stage' : ForwardStage}
    {sent : List WsFrame} (hstage : socket.endpoint.stageOf k = some stage)
    (hactive : stage'.active = true → stage.active = true)
    (hkeeps : socket.lost = false → stage.active = true → stage'.active = true)
    (hsent : (sent.map WsFrame.data ++ stage'.pending).Subperm stage.pending) :
  Ok published delivered
    { socket with
      toPage := socket.toPage ++ sent
      endpoint := socket.endpoint.setStage k stage' }
  := by
  obtain ⟨rest, hrest, hset⟩ := WsEndpoint.perm_setStage hstage
  apply h.update
  · apply h.endpoint.setStage hstage hactive hkeeps
  · rw [inFlight, inFlight, List.map_append, List.append_assoc, List.subperm_append_left]
    apply ((hset stage').append_left _).subperm.trans
    apply List.Subperm.trans _ hrest.symm.subperm
    rw [← List.append_assoc, List.subperm_append_right]
    apply hsent
  · apply id

/-- A task gets on without sending anything. -/
theorem Ok.advance (h : socket.Ok published delivered) {k : ℕ} {stage : ForwardStage}
    (stage' : ForwardStage) (hstage : socket.endpoint.stageOf k = some stage)
    (hactive : stage'.active = true → stage.active = true)
    (hkeeps : socket.lost = false → stage.active = true → stage'.active = true)
    (hpending : stage'.pending.Subperm stage.pending) :
  Ok published delivered { socket with endpoint := socket.endpoint.setStage k stage' }
  := by
  have hset := @Ok.setStage socket published delivered h k stage stage' [] hstage hactive hkeeps hpending
  rw [List.append_nil] at hset
  apply hset

/-- What the server does adds nothing to what is on its way. -/
theorem Ok.serverStep (h : socket.Ok published delivered) {label : ServerLabel}
    (hstep : socket.serverStep label = some socket') :
  socket'.Ok published delivered
  := by
  cases label with
  | lose =>
      cases hstep
      apply h.update
      · apply h.endpoint.lose
      · apply List.Subperm.refl
      · apply id
  | receive =>
      simp only [Socket.serverStep] at hstep
      split at hstep
      · cases hstep
      · rename_i message rest hmessages
        obtain ⟨-, hstep⟩ := Option.ite_none_left_eq_some.mp hstep
        cases hstep
        apply h.update
        · apply h.endpoint.receive
        · apply (List.subperm_append_left _).mpr
          apply WsEndpoint.subperm_receive
        · apply id
  | disconnect =>
      obtain ⟨⟨hlost, -⟩, hstep⟩ := Option.ite_none_right_eq_some.mp hstep
      cases hstep
      apply h.update
      · have hendpoint := h.endpoint
        rw [hlost] at hendpoint ⊢
        apply hendpoint.disconnect
      · apply (List.subperm_append_left _).mpr
        rw [WsEndpoint.pending_disconnect]
        apply List.nil_subperm
      · apply id
  | begin k =>
      obtain ⟨hstage, hstep⟩ := Option.ite_none_right_eq_some.mp hstep
      cases hstep
      apply h.advance _ hstage
      · exact fun _ => rfl
      · exact fun _ _ => rfl
      · apply List.Subperm.refl
  | send k =>
      simp only [Socket.serverStep] at hstep
      split at hstep
      · rename_i frame queue hstage
        cases hstep
        apply h.setStage hstage
        · exact fun _ => rfl
        · exact fun _ _ => rfl
        · apply List.Subperm.refl
      · cases hstep
  | fail k =>
      simp only [Socket.serverStep] at hstep
      split at hstep
      · rename_i frame queue hstage
        obtain ⟨hlost, hstep⟩ := Option.ite_none_right_eq_some.mp hstep
        cases hstep
        apply h.advance _ hstage
        · rintro ⟨⟩
        · rw [hlost]
          rintro ⟨⟩
        · apply List.nil_subperm
      · cases hstep
  | finish k =>
      obtain ⟨hstage, hstep⟩ := Option.ite_none_right_eq_some.mp hstep
      cases hstep
      apply h.advance _ hstage
      · rintro ⟨⟩
      · rintro - ⟨⟩
      · apply List.Subperm.refl

/-- A publication is on its way once. -/
theorem Ok.publish (h : socket.Ok published delivered) (hbound : ∀ d ∈ delivered, d.1 < published)
    (topic : String) :
  Ok (published + 1) delivered
    { socket with endpoint := socket.endpoint.publish ⟨topic, published⟩ }
  := by
  have hsub : (socket.toPage.map WsFrame.data
      ++ (socket.endpoint.publish ⟨topic, published⟩).pending).Subperm (published :: socket.inFlight) := by
    apply ((List.subperm_append_left _).mpr (h.endpoint.subperm_publish ⟨topic, published⟩)).trans
    apply List.perm_middle.subperm
  have hnew : published ∉ socket.inFlight := fun hmem => absurd (h.bound _ hmem) (Nat.lt_irrefl _)
  constructor
  · apply h.endpoint.publish
  · obtain ⟨l, hperm, hl⟩ := hsub
    apply hperm.nodup_iff.mp ((List.nodup_cons.mpr ⟨hnew, h.nodup⟩).sublist hl)
  · intro n hn
    rcases List.mem_cons.mp (hsub.subset hn) with rfl | hn
    · apply Nat.lt_succ_self
    · apply Nat.lt_succ_of_lt (h.bound n hn)
  · intro hlive n hn d hd
    rcases List.mem_cons.mp (hsub.subset hn) with rfl | hn
    · apply Nat.ne_of_lt (hbound d hd)
    · apply h.fresh hlive n hn d hd

/-- What the server does leaves the socket what it is to the page. -/
theorem readyState_serverStep {label : ServerLabel} (hstep : socket.serverStep label = some socket') :
  socket'.readyState = socket.readyState
  := by
  cases label with
  | lose =>
      cases hstep
      rfl
  | receive =>
      simp only [serverStep] at hstep
      split at hstep
      · cases hstep
      · obtain ⟨-, hstep⟩ := Option.ite_none_left_eq_some.mp hstep
        cases hstep
        rfl
  | disconnect =>
      obtain ⟨-, hstep⟩ := Option.ite_none_right_eq_some.mp hstep
      cases hstep
      rfl
  | begin k =>
      obtain ⟨-, hstep⟩ := Option.ite_none_right_eq_some.mp hstep
      cases hstep
      rfl
  | send k =>
      simp only [serverStep] at hstep
      split at hstep
      · cases hstep
        rfl
      · cases hstep
  | fail k =>
      simp only [serverStep] at hstep
      split at hstep
      · obtain ⟨-, hstep⟩ := Option.ite_none_right_eq_some.mp hstep
        cases hstep
        rfl
      · cases hstep
  | finish k =>
      obtain ⟨-, hstep⟩ := Option.ite_none_right_eq_some.mp hstep
      cases hstep
      rfl

end Socket

namespace Page

/-! ### The socket and the timer of the hub -/

/-- The only socket that may be connecting or open is the hub's. -/
def Current (s : Page) : Prop :=
  ∀ i state, s.stateOf i = some state → state.isLive = true → s.hub.socket = some i

/-- The hub has a single socket that is live, or a single timer, and neither when it does not run. -/
structure Lifecycle (s : Page) : Prop where
  live : s.Current
  running : s.hub.running = true →
    (s.timers = [] ∧ ∃ i state, s.hub.socket = some i ∧ s.stateOf i = some state ∧ state ≠ .closed)
      ∨ (s.hub.socket = none ∧ ∃ t, s.timers = [t] ∧ s.hub.reconnectTimer = some t)
  stopped : s.hub.running = false → s.hub.socket = none ∧ s.timers = []

variable {s s' : Page} {i j : ℕ}

/-- The hub's socket is not changed by what does not concern the sockets. -/
theorem Current.congr (h : s.Current) (hsocket : s'.hub.socket = s.hub.socket)
    (hstates : ∀ i, s'.stateOf i = s.stateOf i) :
  s'.Current
  := by
  intro i state
  rw [hstates, hsocket]
  apply h

/-- What the hub's socket and timer are is not changed by what concerns neither. -/
theorem Lifecycle.congr (h : s.Lifecycle) (hsocket : s'.hub.socket = s.hub.socket)
    (hrunning : s'.hub.running = s.hub.running) (htimer : s'.hub.reconnectTimer = s.hub.reconnectTimer)
    (htimers : s'.timers = s.timers) (hstates : ∀ i, s'.stateOf i = s.stateOf i) :
  s'.Lifecycle
  := by
  constructor
  · apply h.live.congr hsocket hstates
  · rw [hrunning, hsocket, htimer, htimers]
    simp only [hstates]
    apply h.running
  · rw [hrunning, hsocket, htimers]
    apply h.stopped

/-- The states of the sockets when one is changed. -/
theorem stateOf_modify {g : Socket → Socket} {f : ReadyState → ReadyState}
    (hg : ∀ socket, (g socket).readyState = f socket.readyState)
    (hs : s'.sockets = s.sockets.modify i g) (j : ℕ) :
  s'.stateOf j = if i = j then (s.stateOf j).map f else s.stateOf j
  := by
  rw [stateOf, stateOf, hs, List.getElem?_modify]
  cases s.sockets[j]? with
  | none =>
      split
      · rfl
      · rfl
  | some socket =>
      split
      · apply congrArg some (hg socket)
      · rfl

/-- The states of the sockets when one is changed in something else. -/
theorem stateOf_modify_same {g : Socket → Socket}
    (hg : ∀ socket, (g socket).readyState = socket.readyState)
    (hs : s'.sockets = s.sockets.modify i g) (j : ℕ) :
  s'.stateOf j = s.stateOf j
  := by
  rw [stateOf_modify (f := id) hg hs, Option.map_id]
  split
  · rfl
  · rfl

/-- The states of the sockets when a frame is dispatched. -/
theorem stateOf_onMessage (s : Page) (i : ℕ) (frame : WsFrame) (j : ℕ) :
  (s.onMessage i frame).stateOf j = s.stateOf j
  := by
  apply stateOf_modify_same (g := fun socket => { socket with toPage := socket.toPage.tail })
  · exact fun _ => rfl
  · rfl

/-- The states of the sockets when something happens at the server's end of one. -/
theorem stateOf_set {socket socket' : Socket} {label : ServerLabel} (hsocket : s.sockets[i]? = some socket)
    (hserver : socket.serverStep label = some socket') (j : ℕ) :
  stateOf { s with sockets := s.sockets.set i socket' } j = s.stateOf j
  := by
  change ((s.sockets.set i socket')[j]?).map Socket.readyState = _
  by_cases hij : i = j
  · subst hij
    obtain ⟨hi, -⟩ := List.getElem?_eq_some_iff.mp hsocket
    rw [List.getElem?_set_self hi, stateOf, hsocket, Option.map_some, Option.map_some,
      Socket.readyState_serverStep hserver]
  · rw [List.getElem?_set_ne hij]
    rfl

/-- The states of the sockets when something is published. -/
theorem stateOf_publish (s : Page) (topic : String) (j : ℕ) :
  (s.publish topic).stateOf j = s.stateOf j
  := by
  change ((s.sockets.map _)[j]?).map Socket.readyState = _
  rw [List.getElem?_map, Option.map_map]
  rfl

/-- A page without what is on its way to the server. -/
def silent (s : Page) : Page :=
  { s with sockets := s.sockets.map Socket.silent }

/-- Sending leaves all but what is on its way to the server. -/
theorem silent_send (message : HubMessage) (s : Page) :
  (s.send message).silent = s.silent
  := by
  rw [send]
  split
  · rfl
  · rename_i i hi
    have hsockets : (s.sockets.modify i (Socket.send message)).map Socket.silent
        = s.sockets.map Socket.silent := by
      apply List.ext_getElem?
      intro j
      rw [List.getElem?_map, List.getElem?_map, List.getElem?_modify]
      cases s.sockets[j]? with
      | none => rfl
      | some socket =>
          split
          · change some (Socket.silent (Socket.send message socket)) = some socket.silent
            rw [Socket.send]
            split
            · rfl
            · rfl
          · rfl
    rw [silent, hsockets]
    rfl

/-- Sending several messages leaves all but what is on its way to the server. -/
theorem silent_foldl_send (topics : List String) (s : Page) :
  (topics.foldl (fun s topic => s.send (.subscribe topic)) s).silent = s.silent
  := by
  induction topics generalizing s with
  | nil => rfl
  | cons topic topics ih => rw [List.foldl_cons, ih, silent_send]

/-- The states of the sockets do not depend on what is on its way. -/
theorem stateOf_silent (s : Page) (i : ℕ) :
  s.silent.stateOf i = s.stateOf i
  := by
  rw [stateOf, stateOf, silent, List.getElem?_map, Option.map_map]
  rfl

/-- The hub does not depend on what is on its way. -/
theorem hub_eq_of_silent (hsilent : s'.silent = s.silent) :
  s'.hub = s.hub
  := by
  have heq := congrArg Page.hub hsilent
  apply heq

/-- The states of the sockets are those of the page without what is on its way. -/
theorem stateOf_eq_of_silent (hsilent : s'.silent = s.silent) (i : ℕ) :
  s'.stateOf i = s.stateOf i
  := by
  rw [← stateOf_silent, hsilent, stateOf_silent]

/-- What the hub's socket and timer are does not depend on what is on its way. -/
theorem Lifecycle.of_silent (h : s.Lifecycle) (hsilent : s'.silent = s.silent) :
  s'.Lifecycle
  := by
  have hhub := hub_eq_of_silent hsilent
  apply h.congr
  · rw [hhub]
  · rw [hhub]
  · rw [hhub]
  · have heq := congrArg Page.timers hsilent
    apply heq
  · apply stateOf_eq_of_silent hsilent

/-- The socket that the hub connects. -/
theorem stateOf_connect (s : Page) :
  s.connect.stateOf s.sockets.length = some .connecting
  := by
  change (s.sockets ++ [Socket.new])[s.sockets.length]?.map Socket.readyState = _
  rw [List.getElem?_concat_length]
  rfl

/-- The hub connects when no socket is live. -/
theorem Current.connect (hlive : ∀ i state, s.stateOf i = some state → state.isLive = false) :
  s.connect.Current
  := by
  intro i state hstate hisLive
  change some s.sockets.length = some i
  by_cases hi : i < s.sockets.length
  · change (s.sockets ++ [Socket.new])[i]?.map Socket.readyState = _ at hstate
    rw [List.getElem?_append_left hi] at hstate
    rw [hlive i state hstate] at hisLive
    cases hisLive
  · obtain ⟨socket, hsocket, -⟩ := Option.map_eq_some_iff.mp hstate
    obtain ⟨hlt, -⟩ := List.getElem?_eq_some_iff.mp hsocket
    change i < (s.sockets ++ [Socket.new]).length at hlt
    rw [List.length_append, List.length_singleton] at hlt
    rw [show i = s.sockets.length by omega]

/-- No socket is live if the hub has none. -/
theorem Current.not_live (h : s.Current) (hsocket : s.hub.socket = none) {i : ℕ} {state : ReadyState}
    (hstate : s.stateOf i = some state) :
  state.isLive = false
  := by
  apply eq_false_of_ne_true
  intro hlive
  rw [h i state hstate hlive] at hsocket
  cases hsocket

/-- A state that was closed is not live. -/
theorem isLive_close (state : ReadyState) :
  state.close.isLive = false
  := by
  cases state with
  | _ => rfl

/-- The states of the sockets when one is closed by the page. -/
theorem stateOf_close (s : Page) (i j : ℕ) :
  (s.close i).stateOf j = if i = j then (s.stateOf j).map ReadyState.close else s.stateOf j
  := stateOf_modify (fun _ => rfl) rfl j

/-- A socket is live after another was closed by the page only if it was. -/
theorem isLive_of_close {state : ReadyState} (hstate : (s.close i).stateOf j = some state)
    (hlive : state.isLive = true) :
  i ≠ j ∧ s.stateOf j = some state
  := by
  rw [stateOf_close] at hstate
  split at hstate
  · obtain ⟨old, -, rfl⟩ := Option.map_eq_some_iff.mp hstate
    rw [isLive_close] at hlive
    cases hlive
  · rename_i hij
    exact ⟨hij, hstate⟩

/-- A socket has an error. -/
theorem Current.close (h : s.Current) (i : ℕ) :
  (s.close i).Current
  := by
  intro j state hstate hlive
  apply h j state (isLive_of_close hstate hlive).2 hlive

/-- No socket is live once the hub is stopped. -/
theorem Current.not_live_stop (h : s.Current) {i : ℕ} {state : ReadyState}
    (hstate : s.stop.stateOf i = some state) :
  state.isLive = false
  := by
  apply eq_false_of_ne_true
  intro hlive
  cases hsocket : s.hub.socket with
  | none =>
      have hsame : s.stop.stateOf i = s.stateOf i := by
        simp only [Page.stop, hsocket]
        rfl
      rw [hsame] at hstate
      rw [h.not_live hsocket hstate] at hlive
      cases hlive
  | some j =>
      have hsame : s.stop.stateOf i = (s.close j).stateOf i := by
        simp only [Page.stop, hsocket]
        rfl
      rw [hsame] at hstate
      obtain ⟨hne, hold⟩ := isLive_of_close hstate hlive
      have heq := h i state hold hlive
      rw [hsocket, Option.some.injEq] at heq
      apply hne heq

/-- The states of the sockets when one closes. -/
theorem stateOf_onClose (s : Page) (i j : ℕ) :
  (s.onClose i).stateOf j = if i = j then (s.stateOf j).map fun _ => .closed else s.stateOf j
  := by
  apply stateOf_modify (g := fun socket => { socket with readyState := .closed, lost := true })
  · exact fun _ => rfl
  · rw [Page.onClose]
    dsimp only
    split
    · rfl
    · rfl

/-- The socket of the hub when one closes. -/
theorem socket_onClose (s : Page) (i : ℕ) :
  (s.onClose i).hub.socket = if s.hub.socket = some i then none else s.hub.socket
  := by
  by_cases hrunning : s.hub.running = true
  · by_cases hsocket : s.hub.socket = some i
    · simp [Page.onClose, hrunning, hsocket]
    · simp [Page.onClose, hrunning, hsocket]
  · by_cases hsocket : s.hub.socket = some i
    · simp [Page.onClose, hrunning, hsocket]
    · simp [Page.onClose, hrunning, hsocket]

/-- A socket closes. -/
theorem Current.onClose (h : s.Current) (i : ℕ) :
  (s.onClose i).Current
  := by
  intro j state hstate hlive
  rw [stateOf_onClose] at hstate
  split at hstate
  · obtain ⟨old, -, rfl⟩ := Option.map_eq_some_iff.mp hstate
    cases hlive
  · rename_i hij
    have hj := h j state hstate hlive
    rw [socket_onClose, if_neg, hj]
    rw [hj, Option.some.injEq]
    apply Ne.symm hij

/-- When a socket opens, all else that happens is that topics are subscribed to. -/
theorem silent_onOpen (s : Page) (i : ℕ) :
  (s.onOpen i).silent
    = silent { s with
      sockets := s.sockets.modify i fun socket => { socket with readyState := .opened } }
  := silent_foldl_send _ _

/-- The states of the sockets when one opens. -/
theorem stateOf_onOpen (hconnecting : s.stateOf i = some .connecting) (j : ℕ) :
  (s.onOpen i).stateOf j = if i = j then some .opened else s.stateOf j
  := by
  apply (stateOf_eq_of_silent (silent_onOpen s i) j).trans
  rw [stateOf_modify (f := fun _ => .opened) (fun _ => rfl) rfl]
  split
  · rename_i hij
    subst hij
    rw [hconnecting]
    rfl
  · rfl

/-- The hub when a socket opens. -/
theorem hub_onOpen (s : Page) (i : ℕ) :
  (s.onOpen i).hub = s.hub
  := by
  have heq := hub_eq_of_silent (silent_onOpen s i)
  apply heq

/-- A socket opens. -/
theorem Current.onOpen (h : s.Current) (hconnecting : s.stateOf i = some .connecting) :
  (s.onOpen i).Current
  := by
  intro j state hstate hlive
  rw [hub_onOpen]
  rw [stateOf_onOpen hconnecting] at hstate
  split at hstate
  · rename_i hij
    subst hij
    apply h i .connecting hconnecting rfl
  · apply h j state hstate hlive

/-- The hub connects when no socket is live and no timer is set. -/
theorem Lifecycle.connect (hrunning : s.hub.running = true) (htimers : s.timers = [])
    (hlive : ∀ i state, s.stateOf i = some state → state.isLive = false) :
  s.connect.Lifecycle
  := by
  constructor
  · apply Current.connect hlive
  · intro _
    left
    constructor
    · apply htimers
    · exact ⟨_, _, rfl, stateOf_connect s, by rintro ⟨⟩⟩
  · intro hstopped
    rw [show s.connect.hub.running = true from hrunning] at hstopped
    cases hstopped

/-- The hub is started. -/
theorem Lifecycle.start (h : s.Lifecycle) :
  s.start.Lifecycle
  := by
  rw [Page.start]
  split
  · apply h
  · rename_i hrunning
    obtain ⟨hsocket, htimers⟩ := h.stopped (eq_false_of_ne_true hrunning)
    apply Lifecycle.connect
    · rfl
    · apply htimers
    · intro i state hstate
      apply h.live.not_live hsocket hstate

/-- A timer fires. -/
theorem Lifecycle.fire (h : s.Lifecycle) {timer : ℕ} (htimer : timer ∈ s.timers) :
  (s.fire timer).Lifecycle
  := by
  have hrunning : s.hub.running = true := by
    by_contra hstopped
    rw [(h.stopped (eq_false_of_ne_true hstopped)).2] at htimer
    cases htimer
  rcases h.running hrunning with ⟨hnone, -⟩ | ⟨hsocket, t, ht, -⟩
  · rw [hnone] at htimer
    cases htimer
  · rw [ht, List.mem_singleton] at htimer
    subst htimer
    apply Lifecycle.connect
    · apply hrunning
    · change s.timers.filter _ = []
      rw [ht]
      simp
    · intro i state hstate
      apply h.live.not_live hsocket hstate

/-- A socket has an error. -/
theorem Lifecycle.close (h : s.Lifecycle) (i : ℕ) :
  (s.close i).Lifecycle
  := by
  constructor
  · apply h.live.close
  · intro hrunning
    rcases h.running hrunning with ⟨htimers, j, state, hsocket, hstate, hne⟩ | hnone
    · left
      constructor
      · apply htimers
      · by_cases hij : i = j
        · use j, state.close, hsocket
          rw [stateOf_close, if_pos hij, hstate]
          constructor
          · rfl
          · cases state with
            | closed => apply absurd rfl hne
            | _ => rintro ⟨⟩
        · use j, state, hsocket
          rw [stateOf_close, if_neg hij]
          exact ⟨hstate, hne⟩
    · right
      apply hnone
  · apply h.stopped

/-- The hub is stopped. -/
theorem Lifecycle.stop (h : s.Lifecycle) :
  s.stop.Lifecycle
  := by
  have htimers : s.stop.timers = [] := by
    change clearTimeout s.hub.reconnectTimer s.timers = []
    cases hrunning : s.hub.running with
    | false =>
        rw [(h.stopped hrunning).2]
        cases s.hub.reconnectTimer with
        | _ => rfl
    | true =>
        rcases h.running hrunning with ⟨hnone, -⟩ | ⟨-, t, ht, htimer⟩
        · rw [hnone]
          cases s.hub.reconnectTimer with
          | _ => rfl
        · rw [ht, htimer]
          simp [clearTimeout]
  constructor
  · intro i state hstate hisLive
    rw [h.live.not_live_stop hstate] at hisLive
    cases hisLive
  · rintro ⟨⟩
  · intro _
    constructor
    · rfl
    · apply htimers

/-- A socket closes that is the hub's, if the hub runs. -/
theorem Lifecycle.onClose (h : s.Lifecycle) (hown : s.hub.running = true → s.hub.socket = some i) :
  (s.onClose i).Lifecycle
  := by
  cases hrunning : s.hub.running with
  | true =>
      have hsocket := hown hrunning
      have htimers : s.timers = [] := by
        rcases h.running hrunning with ⟨htimers, -⟩ | ⟨hnone, -⟩
        · apply htimers
        · rw [hsocket] at hnone
          cases hnone
      have hclose : s.onClose i = { s with
          hub := ⟨none, s.hub.listeners, some s.timerCount, true⟩
          sockets := (s.onClose i).sockets
          timers := [s.timerCount]
          timerCount := s.timerCount + 1 } := by
        simp [Page.onClose, hrunning, hsocket, htimers]
      constructor
      · apply h.live.onClose
      · intro _
        right
        rw [hclose]
        exact ⟨rfl, _, rfl, rfl⟩
      · rw [hclose]
        rintro ⟨⟩
  | false =>
      obtain ⟨hsocket, htimers⟩ := h.stopped hrunning
      have hclose : s.onClose i = { s with sockets := (s.onClose i).sockets } := by
        simp [Page.onClose, hrunning, hsocket]
      constructor
      · apply h.live.onClose
      · rw [hclose]
        intro hrun
        rw [show s.hub.running = true from hrun] at hrunning
        cases hrunning
      · rw [hclose]
        intro _
        exact ⟨hsocket, htimers⟩

/-- A socket opens. -/
theorem Lifecycle.onOpen (h : s.Lifecycle) (hconnecting : s.stateOf i = some .connecting) :
  (s.onOpen i).Lifecycle
  := by
  have htimers : (s.onOpen i).timers = s.timers := by
    have heq := congrArg Page.timers (silent_onOpen s i)
    apply heq
  constructor
  · apply h.live.onOpen hconnecting
  · rw [hub_onOpen, htimers]
    intro hrunning
    rcases h.running hrunning with ⟨hnone, j, state, hsocket, hstate, hne⟩ | hnone
    · left
      constructor
      · apply hnone
      · by_cases hij : i = j
        · use j, .opened, hsocket
          rw [stateOf_onOpen hconnecting, if_pos hij]
          exact ⟨rfl, by rintro ⟨⟩⟩
        · use j, state, hsocket
          rw [stateOf_onOpen hconnecting, if_neg hij]
          exact ⟨hstate, hne⟩
    · right
      apply hnone
  · rw [hub_onOpen, htimers]
    apply h.stopped

/-- A sole listener comes. -/
theorem Lifecycle.subscribe (h : s.Lifecycle) (topic : String) (listener : ℕ) :
  (s.subscribe topic listener).Lifecycle
  := by
  have hlisteners : (s.listenersOf topic).2.Lifecycle := by
    rw [listenersOf]
    split
    · apply h
    · have hregistered : Lifecycle { s with
          hub := { s.hub with listeners := s.hub.listeners ++ [(topic, s.sets.length)] }
          sets := s.sets ++ [[]] } :=
        h.congr rfl rfl rfl rfl fun _ => rfl
      apply hregistered.of_silent (silent_send _ _)
  exact hlisteners.congr rfl rfl rfl rfl fun _ => rfl

/-- A listener goes. -/
theorem Lifecycle.unsubscribe (h : s.Lifecycle) (k : ℕ) (subscription : Subscription) :
  (s.unsubscribe k subscription).Lifecycle
  := by
  rw [Page.unsubscribe]
  dsimp only
  split
  · apply Lifecycle.of_silent _ (silent_send _ _)
    exact h.congr rfl rfl rfl rfl fun _ => rfl
  · exact h.congr rfl rfl rfl rfl fun _ => rfl

/-- A socket that closes while the hub runs is the hub's. -/
def ClosesOwn (s : Page) : PageLabel → Prop
  | .closed i => s.hub.running = true → s.hub.socket = some i
  | _ => True

instance decidableClosesOwn (s : Page) : (label : PageLabel) → Decidable (s.ClosesOwn label)
  | .closed i => inferInstanceAs (Decidable (s.hub.running = true → s.hub.socket = some i))
  | .start => isTrue trivial
  | .stop => isTrue trivial
  | .subscribe _ _ => isTrue trivial
  | .unsubscribe _ => isTrue trivial
  | .fire _ => isTrue trivial
  | .opened _ => isTrue trivial
  | .message _ => isTrue trivial
  | .error _ => isTrue trivial
  | .server _ _ => isTrue trivial
  | .publish _ => isTrue trivial

/-- Every step with which the hub's own sockets close leaves the hub a single socket or timer. -/
theorem Lifecycle.step (h : s.Lifecycle) {label : PageLabel} (hown : s.ClosesOwn label)
    (hstep : machine.step s label = some s') :
  s'.Lifecycle
  := by
  cases label with
  | start =>
      cases hstep
      apply h.start
  | stop =>
      cases hstep
      apply h.stop
  | subscribe topic listener =>
      cases hstep
      apply h.subscribe
  | unsubscribe k =>
      obtain ⟨subscription, -, rfl⟩ := Option.map_eq_some_iff.mp hstep
      apply h.unsubscribe
  | fire timer =>
      obtain ⟨htimer, hstep⟩ := Option.ite_none_right_eq_some.mp hstep
      cases hstep
      apply h.fire htimer
  | opened i =>
      obtain ⟨hconnecting, hstep⟩ := Option.ite_none_right_eq_some.mp hstep
      cases hstep
      apply h.onOpen hconnecting
  | message i =>
      simp only [machine] at hstep
      split at hstep
      · cases hstep
        exact h.congr rfl rfl rfl rfl (stateOf_onMessage _ _ _)
      · cases hstep
  | error i =>
      obtain ⟨-, hstep⟩ := Option.ite_none_right_eq_some.mp hstep
      cases hstep
      apply h.close
  | closed i =>
      obtain ⟨-, hstep⟩ := Option.ite_none_right_eq_some.mp hstep
      cases hstep
      apply h.onClose hown
  | server i label =>
      obtain ⟨socket', hsocket', rfl⟩ := Option.map_eq_some_iff.mp hstep
      obtain ⟨socket, hsocket, hserver⟩ := Option.bind_eq_some_iff.mp hsocket'
      exact h.congr rfl rfl rfl rfl (stateOf_set hsocket hserver)
  | publish topic =>
      cases hstep
      exact h.congr rfl rfl rfl rfl (stateOf_publish s topic)

/-! ### What is on its way and what was delivered -/

/-- No publication was delivered twice to a listener, and none that was delivered is on its way to a
socket that is live. -/
structure Deliveries (s : Page) : Prop where
  sockets : ∀ (i : ℕ) (socket : Socket), s.sockets[i]? = some socket →
    socket.Ok s.published s.delivered
  nodup : s.delivered.Nodup
  bound : ∀ d ∈ s.delivered, d.1 < s.published
  sets : ∀ set ∈ s.sets, set.Nodup

/-- What was delivered does not depend on what is on its way to the server. -/
theorem Deliveries.of_silent (h : s.Deliveries) (hsilent : s'.silent = s.silent) :
  s'.Deliveries
  := by
  have hsockets : s'.sockets.map Socket.silent = s.sockets.map Socket.silent := by
    have heq := congrArg Page.sockets hsilent
    apply heq
  have hdelivered : s'.delivered = s.delivered := by
    have heq := congrArg Page.delivered hsilent
    apply heq
  have hpublished : s'.published = s.published := by
    have heq := congrArg Page.published hsilent
    apply heq
  have hsets : s'.sets = s.sets := by
    have heq := congrArg Page.sets hsilent
    apply heq
  constructor
  · intro i socket' hsocket'
    have hi := congrArg (fun l => l[i]?) hsockets
    simp only [List.getElem?_map, hsocket', Option.map_some] at hi
    obtain ⟨socket, hsocket, heq⟩ := Option.map_eq_some_iff.mp hi.symm
    rw [hpublished, hdelivered]
    apply (h.sockets i socket hsocket).of_silent heq.symm
  · rw [hdelivered]
    apply h.nodup
  · rw [hdelivered, hpublished]
    apply h.bound
  · rw [hsets]
    apply h.sets

/-- What was delivered remains so when the sockets change. -/
theorem Deliveries.congr (h : s.Deliveries) (hdelivered : s'.delivered = s.delivered)
    (hpublished : s'.published = s.published) (hsets : ∀ set ∈ s'.sets, set.Nodup)
    (hsockets : ∀ (i : ℕ) (socket : Socket), s'.sockets[i]? = some socket →
      socket.Ok s.published s.delivered) :
  s'.Deliveries
  := by
  constructor
  · rw [hdelivered, hpublished]
    apply hsockets
  · rw [hdelivered]
    apply h.nodup
  · rw [hdelivered, hpublished]
    apply h.bound
  · apply hsets

/-- A socket changes. -/
theorem Deliveries.modify (h : s.Deliveries) {g : Socket → Socket}
    (hg : ∀ socket : Socket, s.sockets[i]? = some socket → socket.Ok s.published s.delivered →
      (g socket).Ok s.published s.delivered)
    (hs : s'.sockets = s.sockets.modify i g) (hdelivered : s'.delivered = s.delivered)
    (hpublished : s'.published = s.published) (hsets : s'.sets = s.sets) :
  s'.Deliveries
  := by
  apply h.congr hdelivered hpublished
  · rw [hsets]
    apply h.sets
  · intro j socket hsocket
    rw [hs, List.getElem?_modify] at hsocket
    obtain ⟨old, hold, heq⟩ := Option.map_eq_some_iff.mp hsocket
    split at heq
    · rename_i hij
      subst hij
      rw [← heq]
      apply hg old hold (h.sockets i old hold)
    · obtain rfl : old = socket := heq
      apply h.sockets j old hold

/-- The hub connects. -/
theorem Deliveries.connect (h : s.Deliveries) :
  s.connect.Deliveries
  := by
  apply h.congr
  · rfl
  · rfl
  · apply h.sets
  · intro i socket hsocket
    change (s.sockets ++ [Socket.new])[i]? = some socket at hsocket
    rw [List.getElem?_append] at hsocket
    split at hsocket
    · apply h.sockets i socket hsocket
    · rw [List.getElem?_singleton] at hsocket
      obtain ⟨-, hsocket⟩ := Option.ite_none_right_eq_some.mp hsocket
      cases hsocket
      apply Socket.ok_new

/-- A socket is closed by the page. -/
theorem Deliveries.close (h : s.Deliveries) (i : ℕ) :
  (s.close i).Deliveries
  := by
  refine h.modify (g := Socket.close) ?_ rfl rfl rfl rfl
  intro socket _ hok
  apply hok.update
  · apply hok.endpoint.lose
  · apply List.Subperm.refl
  · intro hlive
    rw [Socket.close, isLive_close] at hlive
    cases hlive

/-- The listeners of a topic are different. -/
theorem Deliveries.nodup_listening (h : s.Deliveries) (topic : String) :
  (s.listening topic).Nodup
  := by
  rw [listening]
  cases hset : (s.hub.listeners.lookup topic).bind fun set => s.sets[set]? with
  | none => apply List.nodup_nil
  | some set =>
      obtain ⟨k, -, hk⟩ := Option.bind_eq_some_iff.mp hset
      apply h.sets set (List.mem_of_getElem? hk)

/-- A frame is dispatched by the only socket that is live. -/
theorem Deliveries.onMessage (h : s.Deliveries) (hcurrent : s.Current) {socket : Socket} {frame : WsFrame}
    {rest : List WsFrame} (hsocket : s.sockets[i]? = some socket) (hopened : socket.readyState = .opened)
    (hframes : socket.toPage = frame :: rest) :
  (s.onMessage i frame).Deliveries
  := by
  have hok := h.sockets i socket hsocket
  have hlive : socket.readyState.isLive = true := by
    rw [hopened]
    rfl
  have hmem : frame.data ∈ socket.inFlight := by
    rw [Socket.inFlight, hframes]
    apply List.mem_append_left _ List.mem_cons_self
  have hfresh : ∀ d ∈ s.delivered, d.1 ≠ frame.data := hok.fresh hlive frame.data hmem
  have hnew : ∀ d ∈ (s.listening frame.topic).map fun listener => (frame.data, listener),
      d.1 = frame.data := by
    intro d hd
    obtain ⟨listener, -, rfl⟩ := List.mem_map.mp hd
    rfl
  constructor
  · intro j other hother
    change (s.sockets.modify i _)[j]? = some other at hother
    rw [List.getElem?_modify] at hother
    obtain ⟨old, hold, hother⟩ := Option.map_eq_some_iff.mp hother
    have holdOk := h.sockets j old hold
    split at hother
    · rename_i hij
      subst hij
      obtain rfl := Option.some.inj (hsocket.symm.trans hold)
      rw [← hother]
      have hinFlight : socket.inFlight
          = frame.data :: (rest.map WsFrame.data ++ socket.endpoint.pending) := by
        rw [Socket.inFlight, hframes]
        rfl
      have hnodup := hok.nodup
      rw [hinFlight, List.nodup_cons] at hnodup
      have hsub : ∀ n ∈ rest.map WsFrame.data ++ socket.endpoint.pending, n ∈ socket.inFlight := by
        intro n hn
        rw [hinFlight]
        apply List.mem_cons_of_mem _ hn
      constructor
      · apply hok.endpoint
      · change (socket.toPage.tail.map WsFrame.data ++ socket.endpoint.pending).Nodup
        rw [hframes]
        apply hnodup.2
      · intro n hn
        change n ∈ socket.toPage.tail.map WsFrame.data ++ socket.endpoint.pending at hn
        rw [hframes] at hn
        apply hok.bound n (hsub n hn)
      · intro _ n hn d hd
        change n ∈ socket.toPage.tail.map WsFrame.data ++ socket.endpoint.pending at hn
        rw [hframes] at hn
        rcases List.mem_append.mp hd with hd | hd
        · apply hok.fresh hlive n (hsub n hn) d hd
        · rw [hnew d hd]
          rintro rfl
          apply hnodup.1 hn
    · rename_i hij
      obtain rfl : old = other := hother
      constructor
      · apply holdOk.endpoint
      · apply holdOk.nodup
      · apply holdOk.bound
      · intro hlive'
        have hi := hcurrent i socket.readyState (by rw [stateOf, hsocket]; rfl) hlive
        have hj := hcurrent j old.readyState (by rw [stateOf, hold]; rfl) hlive'
        rw [hi, Option.some.injEq] at hj
        apply absurd hj hij
  · apply List.nodup_append.mpr ⟨h.nodup, _, _⟩
    · apply (h.nodup_listening frame.topic).map
      intro listener listener' heq
      cases heq
      rfl
    · rintro d hd _ hd' rfl
      apply hfresh d hd (hnew d hd')
  · intro d hd
    rcases List.mem_append.mp hd with hd | hd
    · apply h.bound d hd
    · rw [hnew d hd]
      apply hok.bound _ hmem
  · apply h.sets

/-- Adding a listener to a set leaves its listeners different. -/
theorem nodup_addListener {set : List ℕ} (h : set.Nodup) (listener : ℕ) :
  (addListener listener set).Nodup
  := by
  rw [addListener]
  split
  · apply h
  · rename_i hnew
    apply List.nodup_append.mpr ⟨h, List.nodup_singleton _, _⟩
    rintro other hother _ hlistener rfl
    obtain rfl := List.mem_singleton.mp hlistener
    apply hnew hother

/-- A property of the members of a list is one of those of the list with one changed. -/
theorem forall_mem_modify {α : Type} {P : α → Prop} {l : List α} {g : α → α} {k : ℕ}
    (h : ∀ a ∈ l, P a) (hg : ∀ a, P a → P (g a)) :
  ∀ a ∈ l.modify k g, P a
  := by
  intro a ha
  obtain ⟨j, hj⟩ := List.getElem?_of_mem ha
  rw [List.getElem?_modify] at hj
  obtain ⟨old, hold, rfl⟩ := Option.map_eq_some_iff.mp hj
  split
  · apply hg old (h old (List.mem_of_getElem? hold))
  · apply h old (List.mem_of_getElem? hold)

/-- A listener comes. -/
theorem Deliveries.subscribe (h : s.Deliveries) (topic : String) (listener : ℕ) :
  (s.subscribe topic listener).Deliveries
  := by
  have hlisteners : (s.listenersOf topic).2.Deliveries := by
    rw [listenersOf]
    split
    · apply h
    · apply Deliveries.of_silent _ (silent_send _ _)
      refine h.congr rfl rfl ?_ h.sockets
      apply List.forall_mem_append.mpr ⟨h.sets, _⟩
      intro set hset
      rw [List.mem_singleton.mp hset]
      apply List.nodup_nil
  refine hlisteners.congr rfl rfl ?_ hlisteners.sockets
  apply forall_mem_modify hlisteners.sets
  intro set hset
  apply nodup_addListener hset

/-- A listener goes. -/
theorem Deliveries.unsubscribe (h : s.Deliveries) (k : ℕ) (subscription : Subscription) :
  (s.unsubscribe k subscription).Deliveries
  := by
  have hsets : ∀ set ∈ s.sets.modify subscription.set fun set =>
      set.filter fun listener => listener ≠ subscription.listener, set.Nodup := by
    apply forall_mem_modify h.sets
    intro set hset
    apply hset.filter
  rw [Page.unsubscribe]
  dsimp only
  split
  · apply Deliveries.of_silent _ (silent_send _ _)
    exact h.congr rfl rfl hsets h.sockets
  · exact h.congr rfl rfl hsets h.sockets

/-- A socket closes. -/
theorem Deliveries.onClose (h : s.Deliveries) (i : ℕ) :
  (s.onClose i).Deliveries
  := by
  have hclosed : Deliveries { s with
      sockets := s.sockets.modify i fun socket =>
        { socket with readyState := .closed, lost := true } } := by
    refine h.modify (g := fun socket => { socket with readyState := .closed, lost := true })
      ?_ rfl rfl rfl rfl
    intro socket _ hok
    apply hok.update
    · apply hok.endpoint.lose
    · apply List.Subperm.refl
    · rintro ⟨⟩
  rw [Page.onClose]
  dsimp only
  split
  · exact hclosed.congr rfl rfl h.sets hclosed.sockets
  · exact hclosed.congr rfl rfl h.sets hclosed.sockets

/-- Something is published. -/
theorem Deliveries.publish (h : s.Deliveries) (topic : String) :
  (s.publish topic).Deliveries
  := by
  constructor
  · intro i socket hsocket
    change (s.sockets.map _)[i]? = some socket at hsocket
    rw [List.getElem?_map] at hsocket
    obtain ⟨old, hold, rfl⟩ := Option.map_eq_some_iff.mp hsocket
    apply (h.sockets i old hold).publish h.bound
  · apply h.nodup
  · intro d hd
    apply Nat.lt_succ_of_lt (h.bound d hd)
  · apply h.sets

/-- Every step leaves what was delivered delivered once. -/
theorem Deliveries.step (h : s.Deliveries) (hcurrent : s.Current) {label : PageLabel}
    (hstep : machine.step s label = some s') :
  s'.Deliveries
  := by
  cases label with
  | start =>
      cases hstep
      rw [Page.start]
      split
      · apply h
      · apply Deliveries.connect
        exact h.congr rfl rfl h.sets h.sockets
  | stop =>
      cases hstep
      have hclosed : ∀ i, (s.close i).Deliveries := h.close
      rw [Page.stop]
      split
      · exact h.congr rfl rfl h.sets h.sockets
      · rename_i i _
        exact (hclosed i).congr rfl rfl h.sets (hclosed i).sockets
  | subscribe topic listener =>
      cases hstep
      apply h.subscribe
  | unsubscribe k =>
      obtain ⟨subscription, -, rfl⟩ := Option.map_eq_some_iff.mp hstep
      apply h.unsubscribe
  | fire timer =>
      obtain ⟨-, hstep⟩ := Option.ite_none_right_eq_some.mp hstep
      cases hstep
      apply Deliveries.connect
      exact h.congr rfl rfl h.sets h.sockets
  | opened i =>
      obtain ⟨hconnecting, hstep⟩ := Option.ite_none_right_eq_some.mp hstep
      cases hstep
      apply Deliveries.of_silent _ (silent_onOpen s i)
      refine h.modify (g := fun socket => { socket with readyState := .opened }) ?_ rfl rfl rfl rfl
      intro socket hsocket hok
      apply hok.update
      · apply hok.endpoint
      · apply List.Subperm.refl
      · intro _
        rw [stateOf, hsocket] at hconnecting
        rw [Option.some.inj hconnecting]
        rfl
  | message i =>
      simp only [machine] at hstep
      split at hstep
      · rename_i hsocket
        cases hstep
        apply h.onMessage hcurrent hsocket rfl rfl
      · cases hstep
  | error i =>
      obtain ⟨-, hstep⟩ := Option.ite_none_right_eq_some.mp hstep
      cases hstep
      apply h.close
  | closed i =>
      obtain ⟨-, hstep⟩ := Option.ite_none_right_eq_some.mp hstep
      cases hstep
      apply h.onClose
  | server i label =>
      obtain ⟨socket', hsocket', rfl⟩ := Option.map_eq_some_iff.mp hstep
      obtain ⟨socket, hsocket, hserver⟩ := Option.bind_eq_some_iff.mp hsocket'
      refine h.congr rfl rfl h.sets ?_
      intro j other hother
      by_cases hij : i = j
      · subst hij
        obtain ⟨hi, -⟩ := List.getElem?_eq_some_iff.mp hsocket
        change (s.sockets.set i socket')[i]? = some other at hother
        rw [List.getElem?_set_self hi, Option.some.injEq] at hother
        rw [← hother]
        apply (h.sockets i socket hsocket).serverStep hserver
      · change (s.sockets.set i socket')[j]? = some other at hother
        rw [List.getElem?_set_ne hij] at hother
        apply h.sockets j other hother
  | publish topic =>
      cases hstep
      apply h.publish

/-! ### Runs -/

/-- The socket is open, so that it dispatches what it receives. -/
def Dispatches (s : Page) (i : ℕ) : Prop :=
  s.stateOf i = some .opened

/-- At most one socket dispatches messages, none does while the hub is stopped, and no publication was
delivered twice to a listener. -/
structure DispatchesOnce (s : Page) : Prop where
  single : ∀ i j, s.Dispatches i → s.Dispatches j → i = j
  stopped : s.hub.running = false → ∀ i, ¬ s.Dispatches i
  once : s.delivered.Nodup

/-- A hub with a single socket that is live dispatches once. -/
theorem Lifecycle.dispatchesOnce (h : s.Lifecycle) (hdeliveries : s.Deliveries) :
  s.DispatchesOnce
  := by
  constructor
  · intro i j hi hj
    have heq := (h.live i .opened hi rfl).symm.trans (h.live j .opened hj rfl)
    apply Option.some.inj heq
  · intro hstopped i hi
    have hsocket := h.live i .opened hi rfl
    rw [(h.stopped hstopped).1] at hsocket
    cases hsocket
  · apply hdeliveries.nodup

/-- In every run in which the sockets that close while the hub runs are the hub's, at most one socket
dispatches messages, none does while the hub is stopped, and no publication is delivered twice to a
listener. -/
theorem dispatchesOnce_of_run {labels : List PageLabel} {s : Page}
    (hown : machine.Along ClosesOwn loaded labels) (hrun : machine.run loaded labels = some s) :
  s.DispatchesOnce
  := by
  have hinv : s.Lifecycle ∧ s.Deliveries := by
    apply Machine.run_invariant (I := fun s => s.Lifecycle ∧ s.Deliveries) _ _ hown hrun
    · rintro s label s' ⟨hlife, hdeliveries⟩ hlabel hstep
      exact ⟨hlife.step hlabel hstep, hdeliveries.step hlife.live hstep⟩
    · constructor
      · constructor
        · rintro i state ⟨⟩
        · rintro ⟨⟩
        · exact fun _ => ⟨rfl, rfl⟩
      · constructor
        · rintro i socket ⟨⟩
        · apply List.nodup_nil
        · rintro d ⟨⟩
        · rintro set ⟨⟩
  apply hinv.1.dispatchesOnce hinv.2

/-- The connection of a page is lost, and made again. -/
def reconnects : List PageLabel :=
  [.start, .subscribe "job.progress" 0, .opened 0, .server 0 .receive, .closed 0, .fire 0, .opened 1,
    .server 1 .receive, .server 1 (.begin 0), .publish "job.progress", .server 1 (.send 0), .message 1]

theorem dispatchesOnce_reconnects :
  ∃ s, machine.run loaded reconnects = some s ∧ s.delivered = [(0, 0)] ∧ s.DispatchesOnce
  := by
  have hrun : (machine.run loaded reconnects).any (fun s => s.delivered = [(0, 0)]) = true := by
    decide +kernel
  obtain ⟨s, hs, hdelivered⟩ := (Option.any_eq_true _ _).mp hrun
  use s, hs, of_decide_eq_true hdelivered
  apply dispatchesOnce_of_run _ hs
  decide +kernel

/-- The effect that starts the hub is run, cleaned up and run again, as under `StrictMode`: the close of
the first socket has the hub connect a third time. -/
def mountedTwice : List PageLabel :=
  [.subscribe "job.progress" 0, .start, .stop, .start, .closed 0, .opened 1, .fire 0, .opened 2,
    .server 1 .receive, .server 1 (.begin 0), .server 2 .receive, .server 2 (.begin 0),
    .publish "job.progress", .server 1 (.send 0), .server 2 (.send 0), .message 1, .message 2]

/-- Two sockets dispatch, and the listener hears of a publication twice. -/
theorem not_dispatchesOnce_mountedTwice :
  ¬ ∀ (labels : List PageLabel) (s : Page), machine.run loaded labels = some s → s.DispatchesOnce
  := by
  intro h
  have hrun : (machine.run loaded mountedTwice).any (fun s => s.delivered = [(0, 0), (0, 0)]) = true := by
    decide +kernel
  obtain ⟨s, hs, hdelivered⟩ := (Option.any_eq_true _ _).mp hrun
  have honce := (h mountedTwice s hs).once
  rw [of_decide_eq_true hdelivered] at honce
  apply absurd honce
  decide

end Page
