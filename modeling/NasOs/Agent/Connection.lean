import NasOs.Files.Content
import NasOs.System.JsonValues

/-!
# A connection of a file worker

The loop of a file worker that serves one connection: it reads a line, and answers a request or an
operation, whose binary frame it reads from the same stream.  The bytes that are sent are the frames
one after the other, so that a frame is read where the one before it ended.

What ends the loop is an exception that nothing catches, and the end of the stream.  A line that is
not JSON is dropped, and an `OSError` of an operation is answered; but a line that is no text, or too
long, or no object, a request that is not valid, and an operation without its fields each raise
something else.  Hence the loop goes on from frame to frame, and answers those that are well formed,
exactly as long as no frame is of one of these kinds.

The events that the worker publishes are written besides the answers, and the idle tracker that a line
touches is left out, as is the close of a file that was read.
-/

/-! ### Requests -/

namespace Json

variable (py : PythonValues)

/-- The value is an object. -/
def isObject : Json → Bool
  | .obj _ => true
  | _ => false

/-- The member of a key is this text. -/
def hasText (key text : String) (j : Json) : Bool :=
  match j.get? key with
  | some (.str s) => s == text
  | _ => false

/-- The member that is a text. -/
theorem get?_of_hasText {key text : String} {j : Json} (h : j.hasText key text = true) :
  j.get? key = some (.str text)
  := by
  rw [hasText] at h
  split at h
  · rename_i s hs
    rw [hs, eq_of_beq h]
  · cases h

/-- A member is not two texts. -/
theorem not_hasText {key text text' : String} {j : Json} (h : j.hasText key text = true)
    (hne : text ≠ text') :
  ¬ j.hasText key text' = true
  := by
  intro h'
  have heq := (get?_of_hasText h).symm.trans (get?_of_hasText h')
  cases heq
  apply hne rfl

/-- Only objects have members. -/
theorem isObject_of_hasText {key text : String} {j : Json} (h : j.hasText key text = true) :
  j.isObject = true
  := by
  cases j with
  | obj members => rfl
  | _ => cases h

/-- An object has no other keys than these. -/
def onlyKeys (keys : List String) : Json → Bool
  | .obj members => members.all fun m => keys.contains m.1
  | _ => false

/-- A field of type `str`. -/
def strField (key : String) (j : Json) : Option String :=
  match j.get? key with
  | some (.str s) => some s
  | _ => none

/-- A field of type `str | None`, which is `None` where it is not there. -/
def strOrNullField (key : String) (j : Json) : Option (Option String) :=
  match j.get? key with
  | none => some none
  | some .null => some none
  | some (.str s) => some (some s)
  | _ => none

/-- `int`, if it does not raise. -/
def pyInt : Json → Option ℤ
  | .bool b => some (if b then 1 else 0)
  | .int z => some z
  | .float x => py.intOfFloat (String.ofList x.1)
  | .str s => Text.int s.toList
  | _ => none

/-- `repr`: only that of a text differs from `str`. -/
def pyRepr : Json → String
  | .str s => String.ofList (Text.repr s.toList)
  | j => j.pyStr py

/-- A value that can be a key of a dictionary. -/
def isHashable : Json → Bool
  | .arr _ => false
  | .obj _ => false
  | _ => true

end Json

/-- `RpcContext`. -/
structure RpcContext where
  user : Option String
  role : Option String
  ip : Option String

/-- `RpcRequest`. -/
structure RpcRequest where
  id : String
  method : String
  params : Json
  ctx : RpcContext

/-- `RpcContext.model_validate`, if it does not raise. -/
def RpcContext.modelValidate (j : Json) : Option RpcContext :=
  if j.onlyKeys ["user", "role", "ip"] then do
    let user ← j.strOrNullField "user"
    let role ← j.strOrNullField "role"
    let ip ← j.strOrNullField "ip"
    some ⟨user, role, ip⟩
  else none

/-- `RpcRequest.model_validate`, if it does not raise. -/
def RpcRequest.modelValidate (j : Json) : Option RpcRequest :=
  if j.onlyKeys ["type", "id", "method", "params", "ctx"] then do
    guard ((j.get? "type").isNone ∨ j.hasText "type" "request")
    let id ← j.strField "id"
    let method ← j.strField "method"
    let params ←
      match j.get? "params" with
      | none => some (Json.obj [])
      | some (.obj members) => some (Json.obj members)
      | _ => none
    let ctx ←
      match j.get? "ctx" with
      | none => some (⟨none, none, none⟩ : RpcContext)
      | some c => RpcContext.modelValidate c
    some ⟨id, method, params, ctx⟩
  else none

/-- `RpcResponse` of a file worker. -/
structure RpcReply where
  id : String
  result : Except RpcError Json

/-- `RpcResponse.model_dump_json`, before it is printed. -/
def RpcReply.toJson (reply : RpcReply) : Json :=
  match reply.result with
  | .ok result =>
      .obj [("type", .str "response"), ("id", .str reply.id), ("ok", .bool true), ("result", result),
        ("error", .null)]
  | .error error =>
      .obj [("type", .str "response"), ("id", .str reply.id), ("ok", .bool false), ("result", .null),
        ("error", .obj [("code", .str error.code), ("message", .str error.message)])]

/-! ### The rest of the worker -/

/-- What a path may be: a text, or the number of a file that the worker has open. -/
inductive FileArg where
  | path (path : String)
  | descriptor (number : ℤ)

/-- What the operations ask of the worker and the file system. -/
inductive FileCall where
  /-- `state.uploads.get`, for the path of the part file. -/
  | getUpload (uploadId : String)
  /-- Open a part file for writing. -/
  | openPart (partPath : String)
  /-- Write at an offset of an open part file, sync it, and tell where the writing ended. -/
  | writePart (partPath : String) (offset : ℤ) (data : List UInt8)
  | getsize (file : FileArg)
  | openRead (file : FileArg)
  | seek (file : FileArg) (offset : ℤ)
  | read (file : FileArg) (size : ℕ)

/-- The answers; an error is the text of an `OSError`. -/
abbrev FileCall.Answer : FileCall → Type
  | .getUpload _ => Option String
  | .openPart _ => Except String Unit
  | .writePart _ _ _ => Except String ℤ
  | .getsize _ => Except String ℕ
  | .openRead _ => Except String Unit
  | .seek _ _ => Except String Unit
  | .read _ _ => Except String (List UInt8)

/-- What `json.loads` makes of a line. -/
inductive Loaded where
  | value (j : Json)
  /-- `JSONDecodeError`. -/
  | decodeError
  /-- Another exception: the line is no text, or it holds a number that is too long, say. -/
  | raised

/-- The rest of a worker.  Its state `σ` is all that the handlers and the file system depend on, with
what other connections and processes will do in the meantime. -/
structure WorkerContext (σ : Type) where
  /-- `json.loads`. -/
  loads : List UInt8 → Loaded
  /-- What the language leaves open. -/
  py : PythonValues
  /-- `REGISTRY`: the text of the error that the schema of a method raises on params, if it does. -/
  registry : String → Option (Json → Option String)
  /-- `_HANDLERS`. -/
  handlers : String → Option (Json → RpcContext → σ → Except Exc Json × σ)
  /-- The file system and the handles of the uploads. -/
  file : σ → (call : FileCall) → call.Answer × σ

/-- `Dispatcher.handle`. -/
def Dispatcher.respond {σ : Type} (w : WorkerContext σ) (request : RpcRequest) (s : σ) : RpcReply × σ :=
  match w.registry request.method with
  | none => (⟨request.id, .error ⟨"unknown_method", "no such method: " ++ request.method⟩⟩, s)
  | some validationError =>
      match w.handlers request.method with
      | none => (⟨request.id, .error ⟨"not_implemented", "no handler for: " ++ request.method⟩⟩, s)
      | some fn =>
          match validationError request.params with
          | some message => (⟨request.id, .error ⟨"invalid_params", message⟩⟩, s)
          | none =>
              match fn request.params request.ctx s with
              | (.ok result, s') => (⟨request.id, .ok result⟩, s')
              | (.error e, s') => (⟨request.id, .error (Dispatcher.rpcError e)⟩, s')

/-! ### The loop -/

/-- An exception, as the loop tells it apart. -/
inductive Raised where
  | osError (str : String)
  | other

namespace StreamReader

/-- The limit of a reader: a line is at most that long. -/
def limit : ℕ := 2 ^ 16

/-- `readline`: the line and what comes after it, or a `ValueError`. -/
def readline (unread : List UInt8) : Except Raised (List UInt8 × List UInt8) :=
  match Text.splitFirst 10 unread with
  | some (line, rest) => if limit < line.length then .error .other else .ok (line ++ [10], rest)
  | none => if limit < unread.length then .error .other else .ok (unread, [])

/-- `readexactly`: the bytes and what comes after them, or an exception if there are not so many. -/
def readexactly (n : ℤ) (unread : List UInt8) : Except Raised (List UInt8 × List UInt8) :=
  if n < 0 ∨ (unread.length : ℤ) < n then .error .other
  else .ok (unread.take n.toNat, unread.drop n.toNat)

end StreamReader

/-- What a connection writes: a line with a value, or a binary frame with its header. -/
inductive Output where
  | line (j : Json)
  | binary (data : List UInt8)

/-- What the loop awaits. -/
inductive ConnectionOp where
  | readline
  | readexactly (n : ℤ)
  | write (out : Output)
  /-- `dispatcher.handle`. -/
  | handle (request : RpcRequest)
  | file (call : FileCall)

/-- The answers. -/
abbrev ConnectionOp.Answer : ConnectionOp → Type
  | .readline => Except Raised (List UInt8)
  | .readexactly _ => Except Raised (List UInt8)
  | .write _ => Unit
  | .handle _ => RpcReply
  | .file call => call.Answer

/-- A computation of the loop. -/
abbrev ConnectionM (α : Type) : Type :=
  ExceptT Raised (Coroutine ConnectionOp ConnectionOp.Answer) α

namespace ConnectionM

/-- Await an answer. -/
def ask (op : ConnectionOp) : ConnectionM op.Answer :=
  ExceptT.lift (Coroutine.perform op)

/-- Return a value, or raise what was raised. -/
def raiseAny {α : Type} : Except Raised α → ConnectionM α
  | .ok a => pure a
  | .error e => throw e

/-- Return what the system returned, or raise the `OSError`. -/
def raiseOs {α : Type} : Except String α → ConnectionM α
  | .ok a => pure a
  | .error message => throw (.osError message)

/-- Return a value, or raise an exception that is no `OSError`. -/
def raiseNone {α : Type} : Option α → ConnectionM α
  | some a => pure a
  | none => throw .other

end ConnectionM

namespace FileworkerLoop

open ConnectionM

/-- `{"ok": False, "error": message}`. -/
def failed (message : String) : Json :=
  .obj [("ok", .bool false), ("error", .str message)]

/-- `{"ok": True}`. -/
def succeeded : Json :=
  .obj [("ok", .bool true)]

/-- `{"ok": True, "offset": offset}`. -/
def written (offset : ℤ) : Json :=
  .obj [("ok", .bool true), ("offset", .int offset)]

/-- The offsets that a file can be set to. -/
def isOffset (offset : ℤ) : Bool :=
  -2 ^ 63 ≤ offset && offset < 2 ^ 63

/-- A path as the file system takes it: no text with a null character, and a number that fits the
type of the descriptors. -/
def fileArg : Json → Option FileArg
  | .str path => if Char.ofNat 0 ∈ path.toList then none else some (.path path)
  | .bool b => some (.descriptor (if b then 1 else 0))
  | .int n => if -2 ^ 31 ≤ n ∧ n < 2 ^ 31 then some (.descriptor n) else none
  | _ => none

variable {σ : Type} (w : WorkerContext σ)

/-- `_read_bin_frame`. -/
def readBinFrame : ConnectionM (List UInt8) := do
  let headerLine ← raiseAny (← ask .readline)
  if headerLine = [] then
    throw (.osError "connection closed before binary frame header")
  match w.loads headerLine with
  | .value header =>
      let length ← raiseNone ((header.get? "bin").bind (Json.pyInt w.py))
      raiseAny (← ask (.readexactly length))
  | _ => throw .other

/-- `state.uploads.get` on a value. -/
def findUpload (uploadId : Json) : ConnectionM (Option String) :=
  match uploadId with
  | .str uploadId => ask (.file (.getUpload uploadId))
  | j => if j.isHashable then pure none else throw .other

/-- `filedata.write_chunk`. -/
def writeChunk (partPath : String) (offset : ℤ) (data : List UInt8) : ConnectionM ℤ := do
  raiseOs (← ask (.file (.openPart partPath)))
  if isOffset offset then
    raiseOs (← ask (.file (.writePart partPath offset data)))
  else throw .other

/-- `_op_upload_chunk`. -/
def opUploadChunk (op : Json) : ConnectionM Unit := do
  let uploadId ← raiseNone (op.get? "upload_id")
  let offset ← raiseNone ((op.get? "offset").bind (Json.pyInt w.py))
  let data ← readBinFrame w
  match ← findUpload uploadId with
  | none => ask (.write (.line (failed ("unknown upload_id: " ++ uploadId.pyStr w.py))))
  | some partPath =>
      let newOffset ← writeChunk partPath offset data
      ask (.write (.line (written newOffset)))

/-- The loop of `filedata.read_range`, with what is done with each of its chunks. -/
def sendRange (file : FileArg) (remaining : ℕ) : ConnectionM Unit :=
  if 0 < remaining then do
    let chunk ← raiseOs (← ask (.file (.read file (min downloadFrameSize remaining))))
    if _ : chunk = [] then pure ()
    else
      ask (.write (.binary chunk))
      sendRange file (remaining - chunk.length)
  else pure ()
termination_by remaining
decreasing_by
  have := List.length_pos_iff.mpr ‹¬ chunk = []›
  omega

/-- How many bytes `filedata.read_range` reads at most. -/
def remaining (size : ℕ) (offset : ℤ) (length : Option ℤ) : ℕ :=
  (length.getD ((size : ℤ) - offset)).toNat

/-- `op.get("offset", 0)` as an integer. -/
def offsetOf (op : Json) : Option ℤ :=
  match op.get? "offset" with
  | none => some 0
  | some offset => offset.pyInt w.py

/-- `op.get("length")` as an integer, unless it is `None`. -/
def lengthOf (op : Json) : Option (Option ℤ) :=
  match op.get? "length" with
  | none => some none
  | some .null => some none
  | some length => (length.pyInt w.py).map some

/-- `_op_download_range`. -/
def opDownloadRange (op : Json) : ConnectionM Unit := do
  let path ← raiseNone (op.get? "path")
  let offset ← raiseNone (offsetOf w op)
  let length ← raiseNone (lengthOf w op)
  let file ← raiseNone (fileArg path)
  let size ← raiseOs (← ask (.file (.getsize file)))
  raiseOs (← ask (.file (.openRead file)))
  if isOffset offset then
    raiseOs (← ask (.file (.seek file offset)))
    sendRange file (remaining size offset length)
    ask (.write (.line succeeded))
  else throw .other

/-- `_handle_op_line`. -/
def handleOpLine (op : Json) : ConnectionM Unit :=
  tryCatch
    (if op.hasText "op" "upload_chunk" then opUploadChunk w op
    else if op.hasText "op" "download_range" then opDownloadRange w op
    else ask (.write (.line (failed
      ("unknown op: " ++ ((op.get? "op").map (Json.pyRepr w.py)).getD "None")))))
    fun
      | .osError message => ask (.write (.line (failed message)))
      | .other => throw .other

/-- What the loop does with the value of a line. -/
def handleValue (raw : Json) : ConnectionM Unit :=
  if raw.isObject then
    if raw.hasText "type" "request" then do
      let request ← raiseNone (RpcRequest.modelValidate raw)
      let response ← ask (.handle request)
      ask (.write (.line response.toJson))
    else if (raw.get? "op").isSome then handleOpLine w raw
    else pure ()
  else throw .other

/-- The body of the loop: whether it goes on. -/
def body : ConnectionM Bool := do
  let line ← raiseAny (← ask .readline)
  if line = [] then pure false
  else
    match w.loads line with
    | .decodeError => pure true
    | .raised => throw .other
    | .value raw =>
        handleValue w raw
        pure true

end FileworkerLoop

/-! ### Connections -/

/-- A connection: the bytes that were not read yet, whether it was closed, the state of the rest of the
worker, and what was written. -/
structure Connection (σ : Type) where
  unread : List UInt8
  closed : Bool
  world : σ
  written : List Output

namespace Connection

variable {σ : Type} (w : WorkerContext σ)

/-- Answer an operation of the loop. -/
def answer (c : Connection σ) : (op : ConnectionOp) → op.Answer × Connection σ
  | .readline =>
      match StreamReader.readline c.unread with
      | .error e => (.error e, c)
      | .ok (line, rest) => (.ok line, { c with unread := rest })
  | .readexactly n =>
      match StreamReader.readexactly n c.unread with
      | .error e => (.error e, c)
      | .ok (data, rest) => (.ok data, { c with unread := rest })
  | .write out => ((), { c with written := c.written ++ [out] })
  | .handle request =>
      ((Dispatcher.respond w request c.world).1,
        { c with world := (Dispatcher.respond w request c.world).2 })
  | .file call => ((w.file c.world call).1, { c with world := (w.file c.world call).2 })

/-- One turn of the loop of `_handle_connection`: an exception and the end of the stream close the
connection. -/
def turn (c : Connection σ) : Connection σ :=
  if c.closed then c
  else
    match (FileworkerLoop.body w).run.execute (answer w) c with
    | (.ok true, c') => c'
    | (_, c') => { c' with closed := true }

/-- A connection of a trusted peer that sent these bytes. -/
def accepted (sent : List UInt8) (s : σ) : Connection σ :=
  ⟨sent, false, s, []⟩

end Connection

/-! ### Frames -/

/-- A line without its end. -/
abbrev FrameLine : Type :=
  { text : List UInt8 // (10 : UInt8) ∉ text }

/-- What a peer sends at a time. -/
inductive ConnectionFrame where
  /-- A line that carries no binary frame. -/
  | line (text : FrameLine)
  /-- A line with a binary frame: a header line, and the data. -/
  | chunk (op header : FrameLine) (data : List UInt8)

namespace ConnectionFrame

/-- The bytes of a frame. -/
def bytes : ConnectionFrame → List UInt8
  | .line text => text.1 ++ [10]
  | .chunk op header data => op.1 ++ 10 :: (header.1 ++ 10 :: data)

/-- The bytes of some frames. -/
def allBytes (frames : List ConnectionFrame) : List UInt8 :=
  frames.flatMap bytes

/-- No line of a frame is longer than the limit of a reader. -/
def Fits : ConnectionFrame → Prop
  | .line text => text.1.length ≤ StreamReader.limit
  | .chunk op header _ => op.1.length ≤ StreamReader.limit ∧ header.1.length ≤ StreamReader.limit

end ConnectionFrame

/-- What a well-formed frame asks for. -/
inductive FrameContent where
  | request (request : RpcRequest)
  | uploadChunk (uploadId : Json) (offset : ℤ) (data : List UInt8)
  | downloadRange (file : FileArg) (offset : ℤ) (length : Option ℤ)

section

open FileworkerLoop

variable {σ : Type} (w : WorkerContext σ)

/-- The content of an object that carries no binary frame. -/
def valueContent (raw : Json) : Option FrameContent :=
  if raw.hasText "type" "request" then (RpcRequest.modelValidate raw).map .request
  else if raw.hasText "op" "download_range" then do
    let file ← (raw.get? "path").bind fileArg
    let offset ← offsetOf w raw
    let length ← lengthOf w raw
    some (.downloadRange file offset length)
  else none

/-- The content of an object that carries a binary frame. -/
def uploadContent (raw header : Json) (data : List UInt8) : Option FrameContent :=
  if raw.isObject ∧ ¬ raw.hasText "type" "request" ∧ raw.hasText "op" "upload_chunk"
      ∧ (header.get? "bin").bind (Json.pyInt w.py) = some (data.length : ℤ) then do
    let uploadId ← raw.get? "upload_id"
    guard uploadId.isHashable
    let offset ← (raw.get? "offset").bind (Json.pyInt w.py)
    some (.uploadChunk uploadId offset data)
  else none

/-- The content of a frame, which is there if the frame is well formed. -/
def ConnectionFrame.content : ConnectionFrame → Option FrameContent
  | .line text =>
      match w.loads (text.1 ++ [10]) with
      | .value raw => valueContent w raw
      | _ => none
  | .chunk op header data =>
      match w.loads (op.1 ++ [10]), w.loads (header.1 ++ [10]) with
      | .value raw, .value header => uploadContent w raw header data
      | _, _ => none

/-- The answer of `state.uploads.get`. -/
def WorkerContext.findUpload (s : σ) (uploadId : Json) : Option String × σ :=
  match uploadId with
  | .str uploadId => w.file s (.getUpload uploadId)
  | _ => (none, s)

/-- The answer to an upload, and the state after it. -/
def uploadAnswer (uploadId : Json) (offset : ℤ) (data : List UInt8) (s : σ) : Json × σ :=
  match w.findUpload s uploadId with
  | (none, s) => (failed ("unknown upload_id: " ++ uploadId.pyStr w.py), s)
  | (some partPath, s) =>
      match w.file s (.openPart partPath) with
      | (.error e, s) => (failed e, s)
      | (.ok _, s) =>
          match w.file s (.writePart partPath offset data) with
          | (.error e, s) => (failed e, s)
          | (.ok newOffset, s) => (written newOffset, s)

/-- The chunks that are read from a file, the answer after them, and the state. -/
def rangeAnswer (file : FileArg) (remaining : ℕ) (s : σ) : List Output × σ :=
  if 0 < remaining then
    match w.file s (.read file (min downloadFrameSize remaining)) with
    | (.error e, s) => ([.line (failed e)], s)
    | (.ok chunk, s) =>
        if _ : chunk = [] then ([.line succeeded], s)
        else
          (.binary chunk :: (rangeAnswer file (remaining - chunk.length) s).1,
            (rangeAnswer file (remaining - chunk.length) s).2)
  else ([.line succeeded], s)
termination_by remaining
decreasing_by
  all_goals
    have := List.length_pos_iff.mpr ‹¬ chunk = []›
    omega

/-- The answer to a download, and the state after it. -/
def downloadAnswer (file : FileArg) (offset : ℤ) (length : Option ℤ) (s : σ) : List Output × σ :=
  match w.file s (.getsize file) with
  | (.error e, s) => ([.line (failed e)], s)
  | (.ok size, s) =>
      match w.file s (.openRead file) with
      | (.error e, s) => ([.line (failed e)], s)
      | (.ok _, s) =>
          match w.file s (.seek file offset) with
          | (.error e, s) => ([.line (failed e)], s)
          | (.ok _, s) => rangeAnswer w file (remaining size offset length) s

/-- The answer that a well-formed frame should get, and the state after it. -/
def FrameContent.answer (s : σ) : FrameContent → List Output × σ
  | .request r => ([.line (Dispatcher.respond w r s).1.toJson], (Dispatcher.respond w r s).2)
  | .uploadChunk uploadId offset data =>
      ([.line (uploadAnswer w uploadId offset data s).1], (uploadAnswer w uploadId offset data s).2)
  | .downloadRange file offset length => downloadAnswer w file offset length s

/-- No file is set to an offset that is beyond all files. -/
def FrameContent.Seekable (s : σ) : FrameContent → Prop
  | .request _ => True
  | .uploadChunk uploadId offset _ =>
      ∀ partPath, (w.findUpload s uploadId).1 = some partPath →
        (w.file (w.findUpload s uploadId).2 (.openPart partPath)).1 = .ok () → isOffset offset = true
  | .downloadRange file offset _ =>
      ∀ size, (w.file s (.getsize file)).1 = .ok size →
        (w.file (w.file s (.getsize file)).2 (.openRead file)).1 = .ok () → isOffset offset = true

/-- A line that is not well formed and does no harm: it is not JSON, or an object that is no request,
no upload and no download. -/
def ConnectionFrame.Harmless : ConnectionFrame → Prop
  | .line text =>
      match w.loads (text.1 ++ [10]) with
      | .value raw =>
          raw.isObject = true ∧ raw.hasText "type" "request" = false
            ∧ raw.hasText "op" "upload_chunk" = false ∧ raw.hasText "op" "download_range" = false
      | .decodeError => True
      | .raised => False
  | .chunk _ _ _ => False

/-- The loop survives a frame: its lines are not too long, and it is well formed, and does not ask for an
offset beyond all files, or it is harmless. -/
def ConnectionFrame.Survived (s : σ) (frame : ConnectionFrame) : Prop :=
  frame.Fits ∧
    ((∃ content, frame.content w = some content ∧ content.Seekable w s) ∨ frame.Harmless w)

/-- A frame has its answer: a well-formed frame the one that it asks for, another frame none or an
error, which changes nothing. -/
inductive FrameAnswered (s : σ) (frame : ConnectionFrame) : List Output → σ → Prop where
  | wellFormed {content : FrameContent} (h : frame.content w = some content) :
      FrameAnswered s frame (content.answer w s).1 (content.answer w s).2
  | dropped (h : frame.content w = none) : FrameAnswered s frame [] s
  | refused (h : frame.content w = none) (error : String) :
      FrameAnswered s frame [.line (failed error)] s

/-- Each of some frames has its answer, in order. -/
inductive FramesAnswered : σ → List ConnectionFrame → List Output → σ → Prop where
  | nil (s : σ) : FramesAnswered s [] [] s
  | cons {s s₁ s₂ : σ} {frame : ConnectionFrame} {frames : List ConnectionFrame} {out outs : List Output}
      (h : FrameAnswered w s frame out s₁) (htail : FramesAnswered s₁ frames outs s₂) :
      FramesAnswered s (frame :: frames) (out ++ outs) s₂

/-- A connection keeps to the frames: after each of them it is open, reads on where the frame ended, and
the frames so far have their answers. -/
def KeepsToFrames (s : σ) (frames : List ConnectionFrame) : Prop :=
  ∀ sent later rest, frames = sent ++ later →
    ∃ out s', (Connection.turn w)^[sent.length]
        (Connection.accepted (ConnectionFrame.allBytes frames ++ rest) s)
          = ⟨ConnectionFrame.allBytes later ++ rest, false, s', out⟩
      ∧ FramesAnswered w s sent out s'

/-- Every frame is survived in the state in which it is read. -/
def AllSurvived : σ → List ConnectionFrame → Prop
  | _, [] => True
  | s, frame :: frames =>
      frame.Survived w s
        ∧ AllSurvived (Connection.turn w (Connection.accepted frame.bytes s)).world frames

end
