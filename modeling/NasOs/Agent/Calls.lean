import NasOs.Agent.Clients

/-!
# A call over a connection

`UnixSocketTransport` sends a request as one line and reads lines until the response with the id of the
request comes; `DirectTransport` hands the request to the dispatcher.  The two agree, events among the lines
or not, exactly as long as no line is longer than what a reader takes.  A request that is too long does not
reach the handler; when the response is too long, or an event before it, the handler has run and the call
fails all the same.
-/

/-! ### Messages -/

/-- A text or `None`. -/
def Json.ofOption (s : Option String) : Json :=
  (s.map Json.str).getD .null

/-- `RpcRequest.model_dump_json`, before it is printed. -/
def RpcRequest.toJson (request : RpcRequest) : Json :=
  .obj [("type", .str "request"), ("id", .str request.id), ("method", .str request.method),
    ("params", request.params),
    ("ctx", .obj [("user", Json.ofOption request.ctx.user), ("role", Json.ofOption request.ctx.role),
      ("ip", Json.ofOption request.ctx.ip)])]

/-- What a call raises. -/
inductive CallError where
  | rpcCallError (code message : String)
  | connectionError
  | other

/-- A call with the params of a method, which are an object. -/
structure RpcRequest.IsCall (request : RpcRequest) : Prop where
  params : ∃ members, request.params = .obj members

/-- A text or `None` is read as such. -/
theorem Json.strOrNullField_of_get? {key : String} {j : Json} {s : Option String}
    (h : j.get? key = some (Json.ofOption s)) :
  j.strOrNullField key = some s
  := by
  rw [Json.strOrNullField, h]
  cases s
  all_goals rfl

/-- The context of a request is read as it was printed. -/
theorem RpcContext.modelValidate_toJson (ctx : RpcContext) :
  RpcContext.modelValidate (.obj [("user", Json.ofOption ctx.user), ("role", Json.ofOption ctx.role),
    ("ip", Json.ofOption ctx.ip)]) = some ctx
  := by
  rw [RpcContext.modelValidate, if_pos (by rfl), Json.strOrNullField_of_get? rfl,
    Json.strOrNullField_of_get? rfl, Json.strOrNullField_of_get? rfl]
  rfl

/-- A request is read as it was printed. -/
theorem RpcRequest.modelValidate_toJson {request : RpcRequest} (hcall : request.IsCall) :
  RpcRequest.modelValidate request.toJson = some request
  := by
  obtain ⟨members, hparams⟩ := hcall.params
  have hctx : request.toJson.get? "ctx" = some (.obj [("user", Json.ofOption request.ctx.user),
    ("role", Json.ofOption request.ctx.role), ("ip", Json.ofOption request.ctx.ip)]) := rfl
  have hget : request.toJson.get? "params" = some (.obj members) := by
    rw [← hparams]
    rfl
  rw [RpcRequest.modelValidate, if_pos (by rfl)]
  simp only [hctx, hget, RpcContext.modelValidate_toJson]
  rw [← hparams]
  rfl

/-- `RpcResponse`, as the web process reads it. -/
structure ReceivedResponse where
  id : String
  ok : Bool
  result : Option Json
  error : Option RpcError

/-- `RpcError.model_validate`, if it does not raise. -/
def RpcError.modelValidate (j : Json) : Option RpcError :=
  if j.onlyKeys ["code", "message"] then do
    let code ← j.strField "code"
    let message ← j.strField "message"
    some ⟨code, message⟩
  else none

/-- `RpcResponse.model_validate`, if it does not raise. -/
def ReceivedResponse.modelValidate (j : Json) : Option ReceivedResponse :=
  if j.onlyKeys ["type", "id", "ok", "result", "error"] then do
    guard ((j.get? "type").isNone ∨ j.hasText "type" "response")
    let id ← j.strField "id"
    let ok ←
      match j.get? "ok" with
      | some (.bool ok) => some ok
      | _ => none
    let result ←
      match j.get? "result" with
      | none => some none
      | some .null => some none
      | some (.obj members) => some (some (Json.obj members))
      | _ => none
    let error ←
      match j.get? "error" with
      | none => some none
      | some .null => some none
      | some error => (RpcError.modelValidate error).map some
    some ⟨id, ok, result, error⟩
  else none

/-- `RpcEvent.model_validate` does not raise. -/
def isRpcEvent (j : Json) : Bool :=
  j.onlyKeys ["type", "topic", "data"] && (j.strField "topic").isSome
    && (((j.get? "data").map Json.isObject).getD true)

/-- What a call makes of the response. -/
def ReceivedResponse.outcome (response : ReceivedResponse) : Except CallError Json :=
  if response.ok then .ok (response.result.getD (.obj []))
  else
    match response.error with
    | some error => .error (.rpcCallError error.code error.message)
    | none => .error .other

/-- The response that a reply is read as. -/
def RpcReply.received (reply : RpcReply) : ReceivedResponse :=
  match reply.result with
  | .ok result => ⟨reply.id, true, some result, none⟩
  | .error error => ⟨reply.id, false, none, some error⟩

/-- A reply is read as it was printed, if its result is an object. -/
theorem RpcReply.modelValidate_toJson {reply : RpcReply}
    (hresult : ∀ result, reply.result = .ok result → ∃ members, result = .obj members) :
  ReceivedResponse.modelValidate reply.toJson = some reply.received
  := by
  obtain ⟨id, e | result⟩ := reply
  · rw [ReceivedResponse.modelValidate, if_pos (by rfl)]
    rfl
  · obtain ⟨members, rfl⟩ := hresult _ rfl
    rw [ReceivedResponse.modelValidate, if_pos (by rfl)]
    rfl

/-! ### The two transports -/

/-- `DirectTransport.call`. -/
def DirectTransport.call {σ : Type} (w : WorkerContext σ) (request : RpcRequest) (s : σ) :
    Except CallError Json × σ :=
  match Dispatcher.respond w request s with
  | (reply, s) =>
      match reply.result with
      | .ok result => (.ok result, s)
      | .error error => (.error (.rpcCallError error.code error.message), s)

namespace UnixSocketTransport

/-- What `call` sends. -/
def callFrame (request : RpcRequest) : ConnectionFrame :=
  .line (Json.frameLine Json.compact request.toJson)

/-- A frame that the read loop takes. -/
inductive Taken where
  | response (response : ReceivedResponse)
  /-- An event, or a frame of another type. -/
  | other

/-- `_dispatch_frame`, if it does not raise; `listens` says whether there is an event handler. -/
def dispatchFrame (listens : Bool) (raw : Json) : Option Taken :=
  if raw.isObject then
    if raw.hasText "type" "response" then (ReceivedResponse.modelValidate raw).map .response
    else if raw.hasText "type" "event" && listens then
      if isRpcEvent raw then some .other else none
    else some .other
  else none

/-- A round of `_read_loop`: the frame and the bytes after it; nothing if the loop ends. -/
def nextFrame (listens : Bool) (received : List UInt8) : Option (Taken × List UInt8) :=
  match StreamReader.readline received with
  | .error _ => none
  | .ok (line, rest) =>
      if line = [] then none
      else
        match Json.loads line with
        | .value raw => (dispatchFrame listens raw).map fun frame => (frame, rest)
        | _ => none

/-- A frame comes with fewer bytes after it. -/
theorem length_lt_of_nextFrame {listens : Bool} {received rest : List UInt8} {frame : Taken}
    (h : nextFrame listens received = some (frame, rest)) :
  rest.length < received.length
  := by
  rw [nextFrame] at h
  split at h
  · cases h
  · rename_i line after hline
    split at h
    · cases h
    · rename_i hne
      have hreceived : received ≠ [] := by
        rintro rfl
        cases hline
        apply hne rfl
      split at h
      · obtain ⟨frame', -, hpair⟩ := Option.map_eq_some_iff.mp h
        cases hpair
        apply StreamReader.length_lt_of_readline hline hreceived
      · cases h

/-- What the call of an id gets when the read loop reads these bytes: when the loop ends, its future
fails. -/
def receive (listens : Bool) (id : String) (received : List UInt8) : Except CallError Json :=
  match _ : nextFrame listens received with
  | none => .error .connectionError
  | some (.response response, rest) =>
      if response.id = id then response.outcome else receive listens id rest
  | some (.other, rest) => receive listens id rest
termination_by received.length
decreasing_by
  all_goals apply length_lt_of_nextFrame ‹_›

variable {listens : Bool} {id : String}

/-- When the loop ends, the call fails. -/
theorem receive_of_none {received : List UInt8} (h : nextFrame listens received = none) :
  receive listens id received = .error .connectionError
  := by
  rw [receive]
  split
  · rfl
  · rename_i hframe
    cases h.symm.trans hframe
  · rename_i hframe
    cases h.symm.trans hframe

/-- The response with the id is what the call gets. -/
theorem receive_of_response {received rest : List UInt8} {response : ReceivedResponse}
    (h : nextFrame listens received = some (.response response, rest)) (hid : response.id = id) :
  receive listens id received = response.outcome
  := by
  rw [receive]
  split
  · rename_i hframe
    cases h.symm.trans hframe
  · rename_i hframe
    cases h.symm.trans hframe
    rw [if_pos hid]
  · rename_i hframe
    cases h.symm.trans hframe

/-- Another frame is passed over. -/
theorem receive_of_other {received rest : List UInt8} (h : nextFrame listens received = some (.other, rest)) :
  receive listens id received = receive listens id rest
  := by
  rw [receive]
  split
  · rename_i hframe
    cases h.symm.trans hframe
  · rename_i hframe
    cases h.symm.trans hframe
  · rename_i hframe
    cases h.symm.trans hframe
    rfl

/-! ### What a call gets -/

/-- The lines are not too long, up to the answer. -/
def Readable : List Sent → Prop
  | [] => True
  | .event topic data :: sent => (Sent.event topic data).Fits Json.compact ∧ Readable sent
  | .output out :: _ => (Sent.output out).Fits Json.compact

/-- What is sent is taken by the read loop, if its line is not too long. -/
theorem nextFrame_sent {x : Sent} (hx : x.Fits Json.compact) (rest : List UInt8) :
  nextFrame listens (x.bytes Json.compact ++ rest)
    = (dispatchFrame listens x.value).map fun frame => (frame, x.payload ++ rest)
  := by
  have hne : Json.line (x.style Json.compact) x.value ≠ [] := by
    rw [Json.line]
    simp
  rw [nextFrame, Sent.readline_bytes Json.compact hx]
  dsimp only
  rw [if_neg hne, Json.loads_line]

/-- A line that is too long ends the read loop. -/
theorem nextFrame_of_not_fits {x : Sent} (hx : ¬ x.Fits Json.compact) (rest : List UInt8) :
  nextFrame listens (x.bytes Json.compact ++ rest) = none
  := by
  rw [nextFrame, Sent.readline_bytes_of_not_fits Json.compact hx]

/-- An event is passed over. -/
theorem receive_event {topic : String} {data : List (String × Json)}
    (hfits : (Sent.event topic data).Fits Json.compact) (rest : List UInt8) :
  receive listens id ((Sent.event topic data).bytes Json.compact ++ rest) = receive listens id rest
  := by
  apply receive_of_other
  rw [nextFrame_sent hfits]
  have hdispatch : dispatchFrame listens (Sent.event topic data).value = some .other := by
    cases listens
    all_goals rfl
  rw [hdispatch]
  rfl

/-- Events alone do not answer a call. -/
theorem receive_events {sent : List Sent} (hsent : sent.filterMap Sent.output? = []) :
  receive listens id (Sent.allBytes Json.compact sent) = .error .connectionError
  := by
  induction sent with
  | nil => apply receive_of_none rfl
  | cons x sent ih =>
      cases x with
      | output out => cases hsent
      | event topic data =>
          rw [Sent.allBytes_cons]
          by_cases hfits : (Sent.event topic data).Fits Json.compact
          · rw [receive_event hfits, ih hsent]
          · apply receive_of_none (nextFrame_of_not_fits hfits _)

/-- A reply among events is what its call gets, if the lines up to it are not too long. -/
theorem receive_reply {reply : RpcReply}
    (hresult : ∀ result, reply.result = .ok result → ∃ members, result = .obj members)
    {sent : List Sent} (hsent : sent.filterMap Sent.output? = [.line reply.toJson]) :
  (Readable sent → receive listens reply.id (Sent.allBytes Json.compact sent) = reply.received.outcome)
    ∧ (¬ Readable sent →
        receive listens reply.id (Sent.allBytes Json.compact sent) = .error .connectionError)
  := by
  induction sent with
  | nil => cases hsent
  | cons x sent ih =>
      rw [Sent.allBytes_cons]
      by_cases hfits : x.Fits Json.compact
      · cases x with
        | event topic data =>
            rw [receive_event hfits]
            obtain ⟨hreadable, hnot⟩ := ih hsent
            exact ⟨fun h => hreadable h.2, fun h => hnot fun hlater => h ⟨hfits, hlater⟩⟩
        | output out =>
            have hout : out :: sent.filterMap Sent.output? = [.line reply.toJson] := hsent
            obtain ⟨rfl, -⟩ := List.cons_eq_cons.mp hout
            refine ⟨?_, fun h => absurd hfits h⟩
            intro _
            have hdispatch : dispatchFrame listens (Sent.output (.line reply.toJson)).value
                = some (.response reply.received) := by
              have hmap : dispatchFrame listens (Sent.output (.line reply.toJson)).value
                  = (ReceivedResponse.modelValidate reply.toJson).map .response := by
                obtain ⟨_, _ | _⟩ := reply
                all_goals rfl
              rw [hmap, RpcReply.modelValidate_toJson hresult]
              rfl
            apply receive_of_response
            · rw [nextFrame_sent hfits, hdispatch]
              rfl
            · obtain ⟨_, _ | _⟩ := reply
              all_goals rfl
      · have hends : receive listens reply.id (x.bytes Json.compact ++ Sent.allBytes Json.compact sent)
            = .error .connectionError := receive_of_none (nextFrame_of_not_fits hfits _)
        refine ⟨?_, fun _ => hends⟩
        intro h
        cases x with
        | event topic data => exact absurd h.1 hfits
        | output out => exact absurd h hfits

end UnixSocketTransport

/-! ### What the worker does -/

namespace Connection

open FileworkerLoop UnixSocketTransport

variable {σ : Type} (w : WorkerContext σ)

/-- The reply to a request has its id. -/
theorem id_respond (request : RpcRequest) (s : σ) :
  (Dispatcher.respond w request s).1.id = request.id
  := by
  rw [Dispatcher.respond]
  split
  · rfl
  · split
    · rfl
    · split
      · rfl
      · split
        all_goals rfl

/-- What a call without a connection returns is the outcome of the reply. -/
theorem call_eq (request : RpcRequest) (s : σ) :
  DirectTransport.call w request s
    = ((Dispatcher.respond w request s).1.received.outcome, (Dispatcher.respond w request s).2)
  := by
  rw [DirectTransport.call]
  rcases Dispatcher.respond w request s with ⟨⟨id, _ | _⟩, s'⟩
  all_goals rfl

/-- The connection on which a call was sent, after the turn in which it is served. -/
theorem turn_callFrame (hloads : w.loads = Json.loads) {request : RpcRequest} (hcall : request.IsCall)
    (hfits : (callFrame request).Fits) (s : σ) :
  turn w (accepted (callFrame request).bytes s)
    = ⟨[], false, (Dispatcher.respond w request s).2, [.line (Dispatcher.respond w request s).1.toJson]⟩
  := by
  have hturn := turn_of_frameLine w hfits [] s []
  have hline : w.loads ((Json.frameLine Json.compact request.toJson).1 ++ [10])
      = .value request.toJson := by
    rw [hloads]
    apply Json.loads_line
  have hcontent : valueContent w request.toJson = some (.request request) := by
    have hmap : valueContent w request.toJson = (RpcRequest.modelValidate request.toJson).map .request := rfl
    rw [hmap, RpcRequest.modelValidate_toJson hcall]
    rfl
  rw [hline] at hturn
  dsimp only at hturn
  rw [execute_handleValue_of_content w hcontent _ trivial, List.append_nil] at hturn
  exact hturn

/-- A request that is too long closes the connection, and no handler is run. -/
theorem turn_callFrame_of_long {request : RpcRequest} (hlong : ¬ (callFrame request).Fits) (s : σ) :
  ∃ unread, turn w (accepted (callFrame request).bytes s) = ⟨unread, true, s, []⟩
  := by
  have hlimit : StreamReader.limit < (Json.frameLine Json.compact request.toJson).1.length :=
    Nat.not_le.mp hlong
  have hbytes : (callFrame request).bytes = (Json.frameLine Json.compact request.toJson).1 ++ 10 :: [] := rfl
  rw [hbytes, accepted, turn, body, execute_ask_bind]
  simp only [answer, StreamReader.readline_line, if_pos hlimit]
  exact ⟨_, rfl⟩

end Connection

namespace UnixSocketTransport

open Connection

/-- A call that is alone on a fresh connection to a file worker, where no text has lone surrogates: it gets
what the call without a connection returns, exactly if neither the request nor a line up to the response is
too long; otherwise the connection fails, after the handler has run unless it is the request that is too
long. -/
theorem call_socket {σ : Type} (w : WorkerContext σ) (hloads : w.loads = Json.loads)
    {request : RpcRequest} (hcall : request.IsCall) {s : σ}
    (hresult : ∀ result, (Dispatcher.respond w request s).1.result = .ok result →
      ∃ members, result = .obj members) (listens : Bool) {sent : List Sent}
    (hsent : sent.filterMap Sent.output?
      = (turn w (accepted (callFrame request).bytes s)).written) :
  ((callFrame request).Fits →
      (turn w (accepted (callFrame request).bytes s)).world = (DirectTransport.call w request s).2
        ∧ (Readable sent → receive listens request.id (Sent.allBytes Json.compact sent)
          = (DirectTransport.call w request s).1)
        ∧ (¬ Readable sent → receive listens request.id (Sent.allBytes Json.compact sent)
          = .error .connectionError))
    ∧ (¬ (callFrame request).Fits →
      (turn w (accepted (callFrame request).bytes s)).world = s
        ∧ receive listens request.id (Sent.allBytes Json.compact sent) = .error .connectionError)
  := by
  constructor
  · intro hfits
    rw [turn_callFrame w hloads hcall hfits s] at hsent ⊢
    rw [call_eq, ← id_respond w request s]
    exact ⟨rfl, receive_reply hresult hsent⟩
  · intro hlong
    obtain ⟨unread, hturn⟩ := turn_callFrame_of_long w hlong s
    rw [hturn] at hsent ⊢
    exact ⟨rfl, receive_events hsent⟩

/-- A call of a method that no worker has. -/
def unknownCall : RpcRequest :=
  ⟨"1", "files.none", .obj [], ⟨none, none, none⟩⟩

/-- What is sent while it is answered. -/
def unknownSent : List Sent :=
  [.event "job.progress" [],
    .output (.line (Dispatcher.respond WorkerContext.bare unknownCall ()).1.toJson)]

/-- An unknown method is told as such, also after an event. -/
theorem receive_unknownCall :
  receive true unknownCall.id (Sent.allBytes Json.compact unknownSent)
    = .error (.rpcCallError "unknown_method" "no such method: files.none")
  := by
  have hcall : unknownCall.IsCall := ⟨[], rfl⟩
  have hfits : (callFrame unknownCall).Fits := by
    rw [callFrame, ConnectionFrame.Fits]
    decide +kernel
  have hresult : ∀ result, (Dispatcher.respond WorkerContext.bare unknownCall ()).1.result = .ok result →
      ∃ members, result = .obj members := by
    intro result h
    cases h
  have hreadable : Readable unknownSent := by
    rw [unknownSent, Readable, Readable]
    decide +kernel
  have hwritten : unknownSent.filterMap Sent.output?
      = (turn WorkerContext.bare (accepted (callFrame unknownCall).bytes ())).written := by
    rw [turn_callFrame WorkerContext.bare rfl hcall hfits]
    rfl
  exact ((call_socket WorkerContext.bare rfl hcall hresult true hwritten).1 hfits).2.1 hreadable

end UnixSocketTransport
