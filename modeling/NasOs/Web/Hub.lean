import NasOs.Library.Machine
import NasOs.Web.Endpoint

/-!
# The live connection of a page

A page has one `WsHub`.  The hub keeps the listeners of each topic, connects to the server when it is
started and again two seconds after a connection was closed, and tells the server of a topic when its
first listener comes and its last one goes.

The browser delivers the events of a socket later and in any order with the other things that happen, so
that those of an old socket may come when the hub was started again.  An event is dispatched to the page
without anything else happening in between; in particular the listeners do not call the hub.
-/

/-- `WebSocket.readyState`. -/
inductive ReadyState where
  | connecting
  | opened
  | closing
  | closed
  deriving DecidableEq

/-- The socket is connecting or open. -/
def ReadyState.isLive : ReadyState → Bool
  | .connecting => true
  | .opened => true
  | _ => false

/-- `WebSocket.close`. -/
def ReadyState.close : ReadyState → ReadyState
  | .closed => .closed
  | _ => .closing

/-- A socket of the page and its connection: the messages on their way to the server, the frames on their
way to the page, the server's end, and whether the connection was lost or is being closed. -/
structure Socket where
  readyState : ReadyState
  toServer : List HubMessage
  toPage : List WsFrame
  endpoint : WsEndpoint
  lost : Bool
  deriving DecidableEq

namespace Socket

/-- `new WebSocket`. -/
def new : Socket :=
  ⟨.connecting, [], [], .accepted, false⟩

/-- `WebSocket.send` of an open socket. -/
def send (message : HubMessage) (socket : Socket) : Socket :=
  if socket.readyState = .opened then { socket with toServer := socket.toServer ++ [message] }
  else socket

/-- `WebSocket.close`; what was sent is on its way before the close frame. -/
def close (socket : Socket) : Socket :=
  { socket with readyState := socket.readyState.close, lost := true }

end Socket

/-- What happens on the way to the server and there. -/
inductive ServerLabel where
  /-- The connection breaks. -/
  | lose
  /-- The endpoint reads the next message. -/
  | receive
  /-- The endpoint sees that the connection is gone. -/
  | disconnect
  /-- A task begins. -/
  | begin (k : ℕ)
  /-- A task sends the next frame of its queue. -/
  | send (k : ℕ)
  /-- A task cannot send on a connection that is gone. -/
  | fail (k : ℕ)
  /-- A task that was cancelled ends. -/
  | finish (k : ℕ)
  deriving DecidableEq

/-- What the server's side of a connection does. -/
def Socket.serverStep (socket : Socket) : ServerLabel → Option Socket
  | .lose => some { socket with lost := true }
  | .receive =>
      match socket.toServer with
      | [] => none
      | message :: rest =>
          if socket.endpoint.left then none
          else some { socket with toServer := rest, endpoint := socket.endpoint.receive message }
  | .disconnect =>
      if socket.lost ∧ ¬ socket.endpoint.left then
        some { socket with endpoint := socket.endpoint.disconnect }
      else none
  | .begin k =>
      if socket.endpoint.stageOf k = some .created then
        some { socket with endpoint := socket.endpoint.setStage k (.forwarding []) }
      else none
  | .send k =>
      match socket.endpoint.stageOf k with
      | some (.forwarding (frame :: queue)) =>
          some { socket with
            toPage := socket.toPage ++ [frame]
            endpoint := socket.endpoint.setStage k (.forwarding queue) }
      | _ => none
  | .fail k =>
      match socket.endpoint.stageOf k with
      | some (.forwarding (_ :: _)) =>
          if socket.lost then some { socket with endpoint := socket.endpoint.setStage k .ended }
          else none
      | _ => none
  | .finish k =>
      if socket.endpoint.stageOf k = some .cancelled then
        some { socket with endpoint := socket.endpoint.setStage k .ended }
      else none

/-- `WsHub`: the socket by its number, the set of listeners of each topic by its number, the timer, and
whether the hub runs. -/
structure WsHub where
  socket : Option ℕ
  listeners : List (String × ℕ)
  reconnectTimer : Option ℕ
  running : Bool
  deriving DecidableEq

/-- What `subscribe` returned: to remove the listener from the set it was added to. -/
structure Subscription where
  topic : String
  listener : ℕ
  set : ℕ
  /-- It was called. -/
  called : Bool
  deriving DecidableEq

/-- A page: the hub, all its sockets, all its sets of listeners, the timers that are set, how many were,
what `subscribe` returned, which publications were delivered to which listeners, and how many publications
there were. -/
structure Page where
  hub : WsHub
  sockets : List Socket
  sets : List (List ℕ)
  timers : List ℕ
  timerCount : ℕ
  subscriptions : List Subscription
  delivered : List (ℕ × ℕ)
  published : ℕ
  deriving DecidableEq

namespace Page

/-- The page was loaded. -/
def loaded : Page :=
  ⟨⟨none, [], none, false⟩, [], [], [], 0, [], [], 0⟩

/-- `send`: a message goes to the socket of the hub, if that is open. -/
def send (message : HubMessage) (s : Page) : Page :=
  match s.hub.socket with
  | none => s
  | some i => { s with sockets := s.sockets.modify i (Socket.send message) }

/-- `connect`. -/
def connect (s : Page) : Page :=
  { s with
    hub := { s.hub with socket := some s.sockets.length }
    sockets := s.sockets ++ [.new] }

/-- `start`. -/
def start (s : Page) : Page :=
  if s.hub.running then s else connect { s with hub := { s.hub with running := true } }

/-- `window.clearTimeout`. -/
def clearTimeout (timer : Option ℕ) (timers : List ℕ) : List ℕ :=
  match timer with
  | none => timers
  | some t => timers.filter fun other => other ≠ t

/-- `socket.close()` of the socket with a number. -/
def close (i : ℕ) (s : Page) : Page :=
  { s with sockets := s.sockets.modify i Socket.close }

/-- `stop`. -/
def stop (s : Page) : Page :=
  let closed := match s.hub.socket with
    | none => s
    | some i => s.close i
  { closed with
    hub := ⟨none, s.hub.listeners, none, false⟩
    timers := clearTimeout s.hub.reconnectTimer s.timers }

/-- `Set.add`. -/
def addListener (listener : ℕ) (set : List ℕ) : List ℕ :=
  if listener ∈ set then set else set ++ [listener]

/-- The set of listeners of a topic, which is made when there is none. -/
def listenersOf (topic : String) (s : Page) : ℕ × Page :=
  match s.hub.listeners.lookup topic with
  | some set => (set, s)
  | none =>
      (s.sets.length,
        send (.subscribe topic)
          { s with
            hub := { s.hub with listeners := s.hub.listeners ++ [(topic, s.sets.length)] }
            sets := s.sets ++ [[]] })

/-- `subscribe`. -/
def subscribe (topic : String) (listener : ℕ) (s : Page) : Page :=
  let (set, s) := s.listenersOf topic
  { s with
    sets := s.sets.modify set (addListener listener)
    subscriptions := s.subscriptions ++ [⟨topic, listener, set, false⟩] }

/-- What `subscribe` returned is called. -/
def unsubscribe (k : ℕ) (subscription : Subscription) (s : Page) : Page :=
  let s := { s with
    sets := s.sets.modify subscription.set fun set =>
      set.filter fun listener => listener ≠ subscription.listener
    subscriptions := s.subscriptions.modify k fun subscription => { subscription with called := true } }
  if s.sets[subscription.set]? = some [] then
    send (.unsubscribe subscription.topic)
      { s with
        hub := { s.hub with
          listeners := s.hub.listeners.filter fun entry => entry.1 ≠ subscription.topic } }
  else s

/-- The `open` event: all topics with listeners are subscribed to. -/
def onOpen (i : ℕ) (s : Page) : Page :=
  (s.hub.listeners.map Prod.fst).foldl (fun s topic => s.send (.subscribe topic))
    { s with sockets := s.sockets.modify i fun socket => { socket with readyState := .opened } }

/-- The listeners of a topic. -/
def listening (s : Page) (topic : String) : List ℕ :=
  ((s.hub.listeners.lookup topic).bind fun set => s.sets[set]?).getD []

/-- The `message` event. -/
def onMessage (i : ℕ) (frame : WsFrame) (s : Page) : Page :=
  { s with
    sockets := s.sockets.modify i fun socket => { socket with toPage := socket.toPage.tail }
    delivered := s.delivered ++ (s.listening frame.topic).map fun listener => (frame.data, listener) }

/-- The `close` event. -/
def onClose (i : ℕ) (s : Page) : Page :=
  let hub := if s.hub.socket = some i then { s.hub with socket := none } else s.hub
  let sockets := s.sockets.modify i fun socket => { socket with readyState := .closed, lost := true }
  if s.hub.running then
    { s with
      hub := { hub with reconnectTimer := some s.timerCount }
      sockets := sockets
      timers := s.timers ++ [s.timerCount]
      timerCount := s.timerCount + 1 }
  else { s with hub := hub, sockets := sockets }

/-- A timer fires. -/
def fire (timer : ℕ) (s : Page) : Page :=
  connect { s with timers := s.timers.filter fun other => other ≠ timer }

/-- `EventBus.publish`. -/
def publish (topic : String) (s : Page) : Page :=
  { s with
    sockets := s.sockets.map fun socket =>
      { socket with endpoint := socket.endpoint.publish ⟨topic, s.published⟩ }
    published := s.published + 1 }

/-- The state of a socket. -/
def stateOf (s : Page) (i : ℕ) : Option ReadyState :=
  s.sockets[i]?.map Socket.readyState

end Page

/-- What the components, the browser and the server do. -/
inductive PageLabel where
  | start
  | stop
  | subscribe (topic : String) (listener : ℕ)
  /-- What the `k`-th call of `subscribe` returned is called. -/
  | unsubscribe (k : ℕ)
  /-- A timer fires. -/
  | fire (timer : ℕ)
  /-- The events of a socket. -/
  | opened (i : ℕ)
  | message (i : ℕ)
  | error (i : ℕ)
  | closed (i : ℕ)
  /-- What happens at the server's end of a connection. -/
  | server (i : ℕ) (label : ServerLabel)
  /-- Something is published on a topic. -/
  | publish (topic : String)
  deriving DecidableEq

namespace Page

/-- The machine of a page.  A socket that is not open dispatches no message, and one that is closed has no
more events. -/
def machine : Machine Page PageLabel where
  step s
    | .start => some s.start
    | .stop => some s.stop
    | .subscribe topic listener => some (s.subscribe topic listener)
    | .unsubscribe k => s.subscriptions[k]?.map fun subscription => s.unsubscribe k subscription
    | .fire timer => if timer ∈ s.timers then some (s.fire timer) else none
    | .opened i => if s.stateOf i = some .connecting then some (s.onOpen i) else none
    | .message i =>
        match s.sockets[i]? with
        | some ⟨.opened, _, frame :: _, _, _⟩ => some (s.onMessage i frame)
        | _ => none
    | .error i =>
        if (s.stateOf i).isSome ∧ s.stateOf i ≠ some .closed then some (s.close i) else none
    | .closed i =>
        if (s.stateOf i).isSome ∧ s.stateOf i ≠ some .closed then some (s.onClose i) else none
    | .server i label =>
        (s.sockets[i]?.bind fun socket => socket.serverStep label).map fun socket =>
          { s with sockets := s.sockets.set i socket }
    | .publish topic => some (s.publish topic)

end Page
