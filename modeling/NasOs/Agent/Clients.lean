import NasOs.Agent.Framing
import NasOs.Library.JsonLines

/-!
# The clients of the data of a worker

`SocketFileDataClient` opens a connection to a worker for each operation, sends the operation and reads the
frames that come back; `DirectFileDataClient` calls the same functions without a connection.  The two agree
on the bytes and on the texts of the errors, and the worker is left in the same state.  But a worker tells
all its connections of its jobs: an event that is sent before the last frame of an operation ends the
operation on the side of the client, with an error that says nothing.
-/

/-- The line of a value is read as the value. -/
theorem Json.loads_line (style : Json.Style) (j : Json) :
  Json.loads (Json.line style j) = .value j
  := by
  rw [Json.loads, Json.fromUTF8?_line]
  dsimp only
  rw [String.toList_ofList, Json.read_print_newline]

/-- The text of a value as the line of a frame. -/
def Json.frameLine (style : Json.Style) (j : Json) : FrameLine :=
  ⟨Json.bytes style j, Json.newline_notMem_bytes style j⟩

/-- What a client raises. -/
inductive ClientError where
  | rpcCallError (code message : String)
  | osError (str : String)
  | other

/-! ### Without a connection -/

namespace DirectFileDataClient

open FileworkerLoop

variable {σ : Type} (w : WorkerContext σ)

/-- The loop of `filedata.read_range`: the chunks that it yields, how it ends, and the state after it. -/
def chunks (file : FileArg) (remaining : ℕ) (s : σ) :
    (List (List UInt8) × Except ClientError Unit) × σ :=
  if 0 < remaining then
    match w.file s (.read file (min downloadFrameSize remaining)) with
    | (.error e, s) => (([], .error (.osError e)), s)
    | (.ok chunk, s) =>
        if _ : chunk = [] then (([], .ok ()), s)
        else
          let later := chunks file (remaining - chunk.length) s
          ((chunk :: later.1.1, later.1.2), later.2)
  else (([], .ok ()), s)
termination_by remaining
decreasing_by
  have := List.length_pos_iff.mpr ‹¬ chunk = []›
  omega

/-- `read_range`. -/
def readRange (path : String) (offset : ℤ) (length : Option ℤ) (s : σ) :
    (List (List UInt8) × Except ClientError Unit) × σ :=
  match fileArg (.str path) with
  | none => (([], .error .other), s)
  | some file =>
      match w.file s (.getsize file) with
      | (.error e, s) => (([], .error (.osError e)), s)
      | (.ok size, s) =>
          match w.file s (.openRead file) with
          | (.error e, s) => (([], .error (.osError e)), s)
          | (.ok _, s) =>
              if isOffset offset then
                match w.file s (.seek file offset) with
                | (.error e, s) => (([], .error (.osError e)), s)
                | (.ok _, s) => chunks w file (remaining size offset length) s
              else (([], .error .other), s)

/-- `write_chunk`. -/
def writeChunk (uploadId : String) (offset : ℤ) (data : List UInt8) (s : σ) :
    Except ClientError ℤ × σ :=
  match w.file s (.getUpload uploadId) with
  | (none, s) => (.error (.rpcCallError "not_found" ("unknown upload_id: " ++ uploadId)), s)
  | (some partPath, s) =>
      match w.file s (.openPart partPath) with
      | (.error e, s) => (.error (.osError e), s)
      | (.ok _, s) =>
          if isOffset offset then
            match w.file s (.writePart partPath offset data) with
            | (.error e, s) => (.error (.osError e), s)
            | (.ok newOffset, s) => (.ok newOffset, s)
          else (.error .other, s)

end DirectFileDataClient

/-! ### Over a connection -/

/-- What a worker sends over a connection: what its loop writes, and the events that it publishes. -/
inductive Sent where
  | output (out : Output)
  | event (topic : String) (data : List (String × Json))

namespace Sent

/-- What the loop wrote, if it did. -/
def output? : Sent → Option Output
  | .output out => some out
  | .event _ _ => none

/-- How the value of the line is printed: the answers in a style of their own, events by
`model_dump_json`. -/
def style (answers : Json.Style) : Sent → Json.Style
  | .output _ => answers
  | .event _ _ => Json.compact

/-- The value of the line. -/
def value : Sent → Json
  | .output (.line j) => j
  | .output (.binary data) => .obj [("bin", .int data.length)]
  | .event topic data => .obj [("type", .str "event"), ("topic", .str topic), ("data", .obj data)]

/-- The bytes after the line. -/
def payload : Sent → List UInt8
  | .output (.binary data) => data
  | _ => []

variable (answers : Json.Style)

/-- The bytes that are sent. -/
def bytes (x : Sent) : List UInt8 :=
  Json.line (x.style answers) x.value ++ x.payload

/-- The line is not too long for a reader. -/
def Fits (x : Sent) : Prop :=
  (Json.bytes (x.style answers) x.value).length ≤ StreamReader.limit

instance (x : Sent) : Decidable (x.Fits answers) :=
  inferInstanceAs (Decidable (_ ≤ _))

/-- The bytes that are sent one after the other. -/
def allBytes (sent : List Sent) : List UInt8 :=
  sent.flatMap (bytes answers)

@[simp]
theorem allBytes_cons (x : Sent) (sent : List Sent) :
  allBytes answers (x :: sent) = x.bytes answers ++ allBytes answers sent
  := rfl

/-- What is sent is the line, and what comes after it. -/
theorem bytes_append (x : Sent) (rest : List UInt8) :
  x.bytes answers ++ rest
    = (Json.frameLine (x.style answers) x.value).1 ++ 10 :: (x.payload ++ rest)
  := by
  rw [bytes, Json.line, List.append_assoc, List.append_assoc]
  rfl

/-- The line of what is sent is read first. -/
theorem readline_bytes {x : Sent} (hx : x.Fits answers) (rest : List UInt8) :
  StreamReader.readline (x.bytes answers ++ rest)
    = .ok (Json.line (x.style answers) x.value, x.payload ++ rest)
  := by
  have hlimit : (Json.frameLine (x.style answers) x.value).1.length ≤ StreamReader.limit := hx
  rw [bytes_append, StreamReader.readline_line, if_neg (Nat.not_lt.mpr hlimit)]
  rfl

/-- A line that is too long cannot be read. -/
theorem readline_bytes_of_not_fits {x : Sent} (hx : ¬ x.Fits answers) (rest : List UInt8) :
  StreamReader.readline (x.bytes answers ++ rest) = .error .other
  := by
  have hlimit : StreamReader.limit < (Json.frameLine (x.style answers) x.value).1.length :=
    Nat.not_le.mp hx
  rw [bytes_append, StreamReader.readline_line, if_pos hlimit]

end Sent

namespace SocketFileDataClient

open FileworkerLoop

/-- The operation of `read_range`. -/
def downloadOp (path : String) (offset : ℤ) (length : Option ℤ) : Json :=
  .obj [("op", .str "download_range"), ("path", .str path), ("offset", .int offset),
    ("length", (length.map Json.int).getD .null)]

/-- The operation of `write_chunk`. -/
def uploadOp (uploadId : String) (offset : ℤ) : Json :=
  .obj [("op", .str "upload_chunk"), ("upload_id", .str uploadId), ("offset", .int offset)]

/-- What `read_range` sends. -/
def downloadFrame (path : String) (offset : ℤ) (length : Option ℤ) : ConnectionFrame :=
  .line (Json.frameLine Json.dumps (downloadOp path offset length))

/-- What `write_chunk` sends. -/
def uploadFrame (uploadId : String) (offset : ℤ) (data : List UInt8) : ConnectionFrame :=
  .chunk (Json.frameLine Json.dumps (uploadOp uploadId offset))
    (Json.frameLine Json.dumps (.obj [("bin", .int data.length)])) data

variable (py : PythonValues)

/-- The error of a frame whose `ok` is not true. -/
def frameError (frame : Json) : ClientError :=
  .rpcCallError "io_error" (((frame.get? "error").map (Json.pyStr py)).getD "None")

/-- A frame whose `ok` is true. -/
def frameOk (frame : Json) : Bool :=
  (frame.get? "ok").any (Json.isTrue py)

/-- One round of the loop of `read_range`: a chunk, with the bytes after it, or the end. -/
def nextFrame (received : List UInt8) : (List UInt8 × List UInt8) ⊕ Except ClientError Unit :=
  match StreamReader.readline received with
  | .error _ => .inr (.error .other)
  | .ok (line, rest) =>
      if line = [] then .inr (.error (.rpcCallError "io_error" "connection closed mid-download"))
      else
        match Json.loads line with
        | .value (.obj members) =>
            match (Json.obj members).get? "bin" with
            | some size =>
                match size.pyInt py with
                | none => .inr (.error .other)
                | some n =>
                    match StreamReader.readexactly n rest with
                    | .error _ => .inr (.error .other)
                    | .ok (chunk, rest) => .inl (chunk, rest)
            | none =>
                if frameOk py (.obj members) then .inr (.ok ())
                else .inr (.error (frameError py (.obj members)))
        | _ => .inr (.error .other)

/-- A chunk comes with fewer bytes after it. -/
theorem length_lt_of_nextFrame {received chunk rest : List UInt8}
    (h : nextFrame py received = .inl (chunk, rest)) :
  rest.length < received.length
  := by
  rw [nextFrame] at h
  split at h
  · cases h
  · rename_i line after hline
    split at h
    · cases h
    · rename_i hne
      have hreceived : received ≠ [] := by
        rintro rfl
        cases hline
        apply hne rfl
      have hafter := StreamReader.length_lt_of_readline hline hreceived
      split at h
      · split at h
        · split at h
          · cases h
          · split at h
            · cases h
            · rename_i hexactly
              cases h
              rw [StreamReader.readexactly] at hexactly
              split at hexactly
              · cases hexactly
              · cases hexactly
                rw [List.length_drop]
                omega
        · split at h
          all_goals cases h
      · cases h

/-- The chunks that `read_range` yields of the bytes that it receives, and how it ends. -/
def readRange (received : List UInt8) : List (List UInt8) × Except ClientError Unit :=
  match _ : nextFrame py received with
  | .inr r => ([], r)
  | .inl (chunk, rest) => (chunk :: (readRange rest).1, (readRange rest).2)
termination_by received.length
decreasing_by
  all_goals apply length_lt_of_nextFrame py ‹_›

/-- What `write_chunk` returns when it receives these bytes. -/
def writeChunk (received : List UInt8) : Except ClientError ℤ :=
  match StreamReader.readline received with
  | .error _ => .error .other
  | .ok (line, _) =>
      match Json.loads line with
      | .value (.obj members) =>
          if frameOk py (.obj members) then
            match ((Json.obj members).get? "offset").bind (Json.pyInt py) with
            | some newOffset => .ok newOffset
            | none => .error .other
          else .error (frameError py (.obj members))
      | _ => .error .other

/-! ### What the client reads -/

/-- No line is empty. -/
theorem line_ne_nil (style : Json.Style) (j : Json) :
  Json.line style j ≠ []
  := by
  rw [Json.line]
  simp

/-- A binary frame is a chunk. -/
theorem nextFrame_binary {data : List UInt8} (hdata : (Sent.output (.binary data)).Fits Json.dumps)
    (rest : List UInt8) :
  nextFrame py ((Sent.output (.binary data)).bytes Json.dumps ++ rest) = .inl (data, rest)
  := by
  rw [nextFrame, Sent.readline_bytes Json.dumps hdata]
  dsimp only
  rw [if_neg (line_ne_nil _ _), Json.loads_line]
  dsimp only [Sent.value, Sent.payload]
  have hbin : (Json.obj [("bin", .int data.length)]).get? "bin" = some (.int data.length) := rfl
  rw [hbin]
  dsimp only [Json.pyInt]
  rw [StreamReader.readexactly_append]

/-- A frame that is not binary ends `read_range`. -/
theorem nextFrame_line {x : Sent} (hx : x.Fits Json.dumps) {members : List (String × Json)}
    (hvalue : x.value = .obj members) (hbin : (Json.obj members).get? "bin" = none)
    (rest : List UInt8) :
  nextFrame py (x.bytes Json.dumps ++ rest)
    = .inr (if frameOk py (.obj members) then .ok () else .error (frameError py (.obj members)))
  := by
  rw [nextFrame, Sent.readline_bytes Json.dumps hx]
  dsimp only
  rw [if_neg (line_ne_nil _ _), Json.loads_line, hvalue]
  dsimp only
  rw [hbin]
  dsimp only
  split
  all_goals rfl

/-- At the end of the stream `read_range` raises. -/
theorem nextFrame_nil :
  nextFrame py [] = .inr (.error (.rpcCallError "io_error" "connection closed mid-download"))
  := rfl

end SocketFileDataClient

/-! ### What the worker does -/

namespace Connection

open FileworkerLoop ConnectionM SocketFileDataClient

/-- What the loop writes when an operation ends: nothing, if what is raised is no `OSError`. -/
def lastOutput (r : Except ClientError Unit) : List Output :=
  match r with
  | .ok _ => [.line succeeded]
  | .error (.osError e) => [.line (failed e)]
  | .error (.rpcCallError _ message) => [.line (failed message)]
  | .error .other => []

/-- What the loop writes of the chunks of a range and the end of it. -/
def outputsOf (r : List (List UInt8) × Except ClientError Unit) : List Output :=
  r.1.map .binary ++ lastOutput r.2

/-- What the loop writes of the result of an upload. -/
def uploadOutput (r : Except ClientError ℤ) : List Output :=
  match r with
  | .ok newOffset => [.line (FileworkerLoop.written newOffset)]
  | .error (.osError e) => [.line (failed e)]
  | .error (.rpcCallError _ message) => [.line (failed message)]
  | .error .other => []

/-- What the loop raises when an operation ends. -/
def raisedBy {α : Type} (r : Except ClientError α) : Except Raised Unit :=
  match r with
  | .error .other => .error .other
  | _ => .ok ()

variable {σ : Type} (w : WorkerContext σ)

/-- What the loop writes of a range is what the loop of `read_range` yields. -/
theorem rangeAnswer_eq (file : FileArg) (remaining : ℕ) (s : σ) :
  rangeAnswer w file remaining s
    = (outputsOf (DirectFileDataClient.chunks w file remaining s).1,
        (DirectFileDataClient.chunks w file remaining s).2)
  := by
  induction remaining using Nat.strong_induction_on generalizing s with
  | _ remaining ih =>
      rw [rangeAnswer, DirectFileDataClient.chunks]
      split
      · rcases w.file s (.read file (min downloadFrameSize remaining)) with ⟨e | chunk, s'⟩
        · rfl
        · dsimp only
          split
          · rfl
          · rename_i hchunk
            have hlength : 0 < chunk.length := List.length_pos_iff.mpr hchunk
            rw [ih _ (by omega)]
            rfl
      · rfl

/-- The loop does not raise within a range. -/
theorem raisedBy_chunks (file : FileArg) (remaining : ℕ) (s : σ) :
  raisedBy (DirectFileDataClient.chunks w file remaining s).1.2 = .ok ()
  := by
  induction remaining using Nat.strong_induction_on generalizing s with
  | _ remaining ih =>
      rw [DirectFileDataClient.chunks]
      split
      · rcases w.file s (.read file (min downloadFrameSize remaining)) with ⟨e | chunk, s'⟩
        · rfl
        · dsimp only
          split
          · rfl
          · rename_i hchunk
            have hlength : 0 < chunk.length := List.length_pos_iff.mpr hchunk
            apply ih _ (by omega)
      · rfl

/-- A connection to which nothing is told. -/
theorem told_nil (c : Connection σ) (s : σ) :
  c.told ([], s) = { c with world := s }
  := by
  rw [told, List.append_nil]

/-- The operation of `read_range` is answered with what `read_range` yields without a connection. -/
theorem reported_downloadOp (path : String) (offset : ℤ) (length : Option ℤ) (c : Connection σ) :
  reported ((opDownloadRange w (downloadOp path offset length)).run.execute (answer w) c)
    = (raisedBy (DirectFileDataClient.readRange w path offset length c.world).1.2,
        c.told (outputsOf (DirectFileDataClient.readRange w path offset length c.world).1,
          (DirectFileDataClient.readRange w path offset length c.world).2))
  := by
  have hpath : (downloadOp path offset length).get? "path" = some (.str path) := rfl
  have hoffset : offsetOf w (downloadOp path offset length) = some offset := rfl
  have hlength : lengthOf w (downloadOp path offset length) = some length := by
    cases length
    all_goals rfl
  rw [opDownloadRange, DirectFileDataClient.readRange]
  simp only [hpath, hoffset, hlength, raiseNone_some_bind]
  cases fileArg (.str path) with
  | none =>
      rw [raiseNone_none_bind]
      dsimp only
      rw [outputsOf, lastOutput, List.map_nil, List.nil_append, told_nil]
      rfl
  | some file =>
      rw [raiseNone_some_bind, execute_file_bind]
      dsimp only
      rcases w.file c.world (.getsize file) with ⟨e | size, s₁⟩
      · rfl
      rw [raiseOs_ok_bind, execute_file_bind]
      dsimp only
      rcases w.file s₁ (.openRead file) with ⟨e | ⟨⟩, s₂⟩
      · rfl
      rw [raiseOs_ok_bind]
      dsimp only
      split
      · rw [execute_file_bind]
        dsimp only
        rcases w.file s₂ (.seek file offset) with ⟨e | ⟨⟩, s₃⟩
        · rfl
        · rw [raiseOs_ok_bind, reported_sendRange, raisedBy_chunks, rangeAnswer_eq]
          rfl
      · dsimp only
        rw [outputsOf, lastOutput, List.map_nil, List.nil_append, told_nil]
        rfl

/-- The line of a download is handled as the operation. -/
theorem execute_handleValue_of_download {raw : Json} (hrequest : raw.hasText "type" "request" = false)
    (hdownload : raw.hasText "op" "download_range" = true) (c : Connection σ) :
  (handleValue w raw).run.execute (answer w) c
    = reported ((opDownloadRange w raw).run.execute (answer w) c)
  := by
  have hop : (raw.get? "op").isSome = true := by
    rw [Json.get?_of_hasText hdownload]
    rfl
  have hupload := Json.not_hasText hdownload (show "download_range" ≠ "upload_chunk" by decide)
  rw [handleValue, if_pos (Json.isObject_of_hasText hdownload), if_neg (by simp [hrequest]), if_pos hop,
    execute_handleOpLine, if_neg hupload, if_pos hdownload]

/-- What became of a connection on which an operation was answered. -/
theorem settled_raisedBy {α : Type} (r : Except ClientError α) (c : Connection σ) (hc : c.closed = false) :
  ∃ closed, settled (raisedBy r, c) = { c with closed := closed }
  := by
  cases r with
  | ok _ => exact ⟨false, by rw [← hc]; rfl⟩
  | error e =>
      cases e with
      | other => exact ⟨true, rfl⟩
      | _ => exact ⟨false, by rw [← hc]; rfl⟩

/-- The connection on which a client has sent `read_range`, after the turn in which it is served. -/
theorem turn_downloadFrame (hloads : w.loads = Json.loads) {path : String} {offset : ℤ}
    {length : Option ℤ}
    (hfits : (Json.bytes Json.dumps (downloadOp path offset length)).length ≤ StreamReader.limit)
    (s : σ) :
  ∃ closed, turn w (accepted (downloadFrame path offset length).bytes s)
    = ⟨[], closed, (DirectFileDataClient.readRange w path offset length s).2,
        outputsOf (DirectFileDataClient.readRange w path offset length s).1⟩
  := by
  have hlimit : (Json.frameLine Json.dumps (downloadOp path offset length)).1.length
    ≤ StreamReader.limit := hfits
  have hturn := turn_of_frameLine w hlimit [] s []
  have hline : w.loads ((Json.frameLine Json.dumps (downloadOp path offset length)).1 ++ [10])
      = .value (downloadOp path offset length) := by
    rw [hloads]
    apply Json.loads_line
  rw [hline] at hturn
  dsimp only at hturn
  rw [execute_handleValue_of_download w rfl rfl, reported_downloadOp, List.append_nil] at hturn
  obtain ⟨closed, hclosed⟩ := settled_raisedBy
    (DirectFileDataClient.readRange w path offset length s).1.2
    (told ⟨[], false, s, []⟩ (outputsOf (DirectFileDataClient.readRange w path offset length s).1,
      (DirectFileDataClient.readRange w path offset length s).2)) rfl
  exact ⟨closed, hturn.trans hclosed⟩

/-- The operation of `write_chunk` is answered with the result of `write_chunk` without a connection. -/
theorem reported_uploadOp {uploadId : String} {offset : ℤ} (header : FrameLine) (data rest : List UInt8)
    {value : Json} (hfits : header.1.length ≤ StreamReader.limit)
    (hvalue : w.loads (header.1 ++ [10]) = .value value)
    (hbin : (value.get? "bin").bind (Json.pyInt w.py) = some (data.length : ℤ)) (c : Connection σ)
    (hc : c.unread = header.1 ++ 10 :: (data ++ rest)) :
  reported ((opUploadChunk w (uploadOp uploadId offset)).run.execute (answer w) c)
    = (raisedBy (DirectFileDataClient.writeChunk w uploadId offset data c.world).1,
        { c with unread := rest }.told
          (uploadOutput (DirectFileDataClient.writeChunk w uploadId offset data c.world).1,
            (DirectFileDataClient.writeChunk w uploadId offset data c.world).2))
  := by
  have hid : (uploadOp uploadId offset).get? "upload_id" = some (.str uploadId) := rfl
  have hoffset : ((uploadOp uploadId offset).get? "offset").bind (Json.pyInt w.py) = some offset := rfl
  rw [opUploadChunk, hid, raiseNone_some_bind, hoffset, raiseNone_some_bind,
    execute_readBinFrame w header data rest hfits hvalue hbin _ c hc,
    execute_findUpload_bind w (.str uploadId) rfl, DirectFileDataClient.writeChunk]
  dsimp only [WorkerContext.findUpload]
  rcases w.file c.world (.getUpload uploadId) with ⟨_ | partPath, s₁⟩
  · rfl
  dsimp only
  rw [FileworkerLoop.writeChunk, bind_assoc, execute_file_bind]
  dsimp only
  rcases w.file s₁ (.openPart partPath) with ⟨e | ⟨⟩, s₂⟩
  · rfl
  rw [raiseOs_ok_bind]
  dsimp only
  split
  · rw [bind_assoc, execute_file_bind]
    dsimp only
    rcases w.file s₂ (.writePart partPath offset data) with ⟨e | newOffset, s₃⟩
    all_goals rfl
  · dsimp only
    rw [uploadOutput, told_nil]
    rfl

/-- The connection on which a client has sent `write_chunk`, after the turn in which it is served. -/
theorem turn_uploadFrame (hloads : w.loads = Json.loads) {uploadId : String} {offset : ℤ}
    {data : List UInt8} (hfits : (uploadFrame uploadId offset data).Fits) (s : σ) :
  ∃ closed, turn w (accepted (uploadFrame uploadId offset data).bytes s)
    = ⟨[], closed, (DirectFileDataClient.writeChunk w uploadId offset data s).2,
        uploadOutput (DirectFileDataClient.writeChunk w uploadId offset data s).1⟩
  := by
  have hturn := turn_of_frameChunk w hfits.1 (Json.frameLine Json.dumps (.obj [("bin", .int data.length)]))
    data [] s []
  have hline : ∀ j, w.loads ((Json.frameLine Json.dumps j).1 ++ [10]) = .value j := by
    intro j
    rw [hloads]
    apply Json.loads_line
  rw [hline] at hturn
  dsimp only at hturn
  rw [execute_handleValue_of_upload w rfl rfl,
    reported_uploadOp w _ data [] hfits.2 (hline _) rfl _ rfl, List.append_nil] at hturn
  obtain ⟨closed, hclosed⟩ := settled_raisedBy (DirectFileDataClient.writeChunk w uploadId offset data s).1
    (told ⟨[], false, s, []⟩ (uploadOutput (DirectFileDataClient.writeChunk w uploadId offset data s).1,
      (DirectFileDataClient.writeChunk w uploadId offset data s).2)) rfl
  exact ⟨closed, hturn.trans hclosed⟩

end Connection

/-! ### A range over a connection -/

namespace SocketFileDataClient

open FileworkerLoop Connection

variable (py : PythonValues)

/-- How an operation without a connection ends, as it is seen over a connection: the codes of errors and
what is no `OSError` are not. -/
def seen : Except ClientError Unit → Except ClientError Unit
  | .ok _ => .ok ()
  | .error (.osError e) => .error (.rpcCallError "io_error" e)
  | .error (.rpcCallError _ message) => .error (.rpcCallError "io_error" message)
  | .error .other => .error (.rpcCallError "io_error" "connection closed mid-download")

/-- The error of an event that is taken for an answer. -/
def eventError : ClientError :=
  .rpcCallError "io_error" "None"

/-- A frame that is not binary ends `read_range`. -/
theorem readRange_of_nextFrame {received : List UInt8} {r : Except ClientError Unit}
    (h : nextFrame py received = .inr r) :
  readRange py received = ([], r)
  := by
  rw [readRange]
  split
  · rename_i r' hr
    cases h.symm.trans hr
    rfl
  · rename_i hr
    cases h.symm.trans hr

/-- A binary frame is a chunk. -/
theorem readRange_binary {chunk : List UInt8} (hfits : (Sent.output (.binary chunk)).Fits Json.dumps)
    (rest : List UInt8) :
  readRange py ((Sent.output (.binary chunk)).bytes Json.dumps ++ rest)
    = (chunk :: (readRange py rest).1, (readRange py rest).2)
  := by
  have hframe := nextFrame_binary py hfits rest
  rw [readRange]
  split
  · rename_i r hr
    cases hframe.symm.trans hr
  · rename_i chunk' rest' hr
    cases hframe.symm.trans hr
    rfl

/-- An operation that ends without a frame has its connection closed. -/
theorem readRange_closed {r : Except ClientError Unit} (hlast : lastOutput r = []) :
  readRange py [] = ([], seen r)
  := by
  rcases r with (_ | _ | _) | _
  · cases hlast
  · cases hlast
  · exact readRange_of_nextFrame py (nextFrame_nil py)
  · cases hlast

/-- The last frame of an operation is a line. -/
theorem exists_of_lastOutput {r : Except ClientError Unit} {out : Output} {outs : List Output}
    (hlast : lastOutput r = out :: outs) :
  ∃ j, out = .line j
  := by
  rcases r with (_ | _ | _) | _
  · exact ⟨_, (List.cons_eq_cons.mp hlast).1.symm⟩
  · exact ⟨_, (List.cons_eq_cons.mp hlast).1.symm⟩
  · cases hlast
  · exact ⟨_, (List.cons_eq_cons.mp hlast).1.symm⟩

/-- The last frame of an operation says how it ends. -/
theorem readRange_last {r : Except ClientError Unit} {out : Output} {outs : List Output}
    (hlast : lastOutput r = out :: outs) (hfits : (Sent.output out).Fits Json.dumps) (rest : List UInt8) :
  readRange py ((Sent.output out).bytes Json.dumps ++ rest) = ([], seen r)
  := by
  have hline : ∀ {members : List (String × Json)}, out = .line (.obj members) →
      (Json.obj members).get? "bin" = none →
      readRange py ((Sent.output out).bytes Json.dumps ++ rest)
        = ([], if frameOk py (.obj members) then .ok () else .error (frameError py (.obj members))) := by
    rintro members rfl hbin
    exact readRange_of_nextFrame py (nextFrame_line py hfits rfl hbin rest)
  rcases r with (_ | _ | _) | _
  · exact hline (List.cons_eq_cons.mp hlast).1.symm rfl
  · exact hline (List.cons_eq_cons.mp hlast).1.symm rfl
  · cases hlast
  · exact hline (List.cons_eq_cons.mp hlast).1.symm rfl

/-- An event ends `read_range` with an error that says nothing. -/
theorem readRange_event {topic : String} {data : List (String × Json)}
    (hfits : (Sent.event topic data).Fits Json.dumps) (rest : List UInt8) :
  readRange py ((Sent.event topic data).bytes Json.dumps ++ rest) = ([], .error eventError)
  := readRange_of_nextFrame py (nextFrame_line py hfits rfl rfl rest)

/-- No event is sent before the last frame of an operation. -/
def Undisturbed : List Sent → Prop
  | [] => True
  | .event _ _ :: _ => False
  | .output (.line _) :: _ => True
  | .output (.binary _) :: sent => Undisturbed sent

/-- What `read_range` yields of the chunks of a range and the end of it, and how it ends, with events among
them. -/
theorem readRange_outputsOf {sent : List Sent} (hfits : ∀ x ∈ sent, x.Fits Json.dumps)
    {chunks : List (List UInt8)} {r : Except ClientError Unit}
    (hsent : sent.filterMap Sent.output? = outputsOf (chunks, r)) :
  (Undisturbed sent → readRange py (Sent.allBytes Json.dumps sent) = (chunks, seen r))
    ∧ (¬ Undisturbed sent → (readRange py (Sent.allBytes Json.dumps sent)).1 <+: chunks
      ∧ (readRange py (Sent.allBytes Json.dumps sent)).2 = .error eventError)
  := by
  induction sent generalizing chunks with
  | nil =>
      obtain ⟨hchunks, hlast⟩ := List.append_eq_nil_iff.mp hsent.symm
      cases List.map_eq_nil_iff.mp hchunks
      constructor
      · intro _
        apply readRange_closed py hlast
      · intro h
        exact absurd trivial h
  | cons x sent ih =>
      rw [List.forall_mem_cons] at hfits
      rw [Sent.allBytes_cons]
      cases x with
      | event topic data =>
          constructor
          · intro h
            cases h
          · intro _
            rw [readRange_event py hfits.1]
            exact ⟨List.nil_prefix, rfl⟩
      | output out =>
          have hsent : out :: sent.filterMap Sent.output? = outputsOf (chunks, r) := hsent
          cases chunks with
          | nil =>
              have hlast : lastOutput r = out :: sent.filterMap Sent.output? := hsent.symm
              obtain ⟨j, rfl⟩ := exists_of_lastOutput hlast
              constructor
              · intro _
                apply readRange_last py hlast hfits.1
              · intro h
                exact absurd trivial h
          | cons chunk chunks =>
              have hsent : out :: sent.filterMap Sent.output? = .binary chunk :: outputsOf (chunks, r) :=
                hsent
              obtain ⟨rfl, hlater⟩ := List.cons_eq_cons.mp hsent
              obtain ⟨hundisturbed, hdisturbed⟩ := ih hfits.2 hlater
              rw [readRange_binary py hfits.1]
              constructor
              · intro h
                rw [hundisturbed h]
              · intro h
                obtain ⟨hfront, herror⟩ := hdisturbed h
                exact ⟨(List.prefix_cons_inj chunk).mpr hfront, herror⟩

/-- A range that is read over a connection: the worker is left in the state in which the same call without a
connection leaves it.  The client gets the same chunks, and an error with the same text, if no event is sent
before the last frame; otherwise it gets some of the chunks, and an error that says nothing. -/
theorem readRange_socket {σ : Type} (w : WorkerContext σ) (hloads : w.loads = Json.loads) {path : String}
    {offset : ℤ} {length : Option ℤ} {s : σ}
    (hrequest : (Json.bytes Json.dumps (downloadOp path offset length)).length ≤ StreamReader.limit)
    {sent : List Sent} (hfits : ∀ x ∈ sent, x.Fits Json.dumps)
    (hsent : sent.filterMap Sent.output?
      = (turn w (accepted (downloadFrame path offset length).bytes s)).written) :
  (turn w (accepted (downloadFrame path offset length).bytes s)).world
      = (DirectFileDataClient.readRange w path offset length s).2
    ∧ (Undisturbed sent → readRange py (Sent.allBytes Json.dumps sent)
        = ((DirectFileDataClient.readRange w path offset length s).1.1,
          seen (DirectFileDataClient.readRange w path offset length s).1.2))
    ∧ (¬ Undisturbed sent →
        (readRange py (Sent.allBytes Json.dumps sent)).1
            <+: (DirectFileDataClient.readRange w path offset length s).1.1
          ∧ (readRange py (Sent.allBytes Json.dumps sent)).2 = .error eventError)
  := by
  obtain ⟨closed, hturn⟩ := turn_downloadFrame w hloads hrequest s
  rw [hturn] at hsent ⊢
  exact ⟨rfl, readRange_outputsOf py hfits hsent⟩

/-- The answer about a file that does not exist. -/
def missing : Sent :=
  .output (.line (failed "No such file or directory"))

/-- The event of a job. -/
def jobEvent : Sent :=
  .event "job.progress" [("status", .str "running")]

/-- Both fit in a line. -/
theorem fits_missing :
  missing.Fits Json.dumps ∧ jobEvent.Fits Json.dumps
  := by
  rw [Sent.Fits, Sent.Fits]
  decide +kernel

/-- A file that does not exist is told as such, unless an event is sent first. -/
theorem readRange_missing :
  readRange WorkerContext.bare.py (Sent.allBytes Json.dumps [missing, jobEvent])
      = ([], .error (.rpcCallError "io_error" "No such file or directory"))
    ∧ (readRange WorkerContext.bare.py (Sent.allBytes Json.dumps [jobEvent, missing])).2 = .error eventError
  := by
  have hrequest : (Json.bytes Json.dumps (downloadOp "/a" 0 none)).length ≤ StreamReader.limit := by
    decide +kernel
  obtain ⟨closed, hturn⟩ := turn_downloadFrame WorkerContext.bare rfl hrequest ()
  have hwritten : [failed "No such file or directory"].map Output.line
      = (turn WorkerContext.bare (accepted (downloadFrame "/a" 0 none).bytes ())).written := by
    rw [hturn]
    rfl
  obtain ⟨hmissing, hevent⟩ := fits_missing
  have hfirst : ∀ x ∈ [missing, jobEvent], x.Fits Json.dumps := by simp [hmissing, hevent]
  have hlast : ∀ x ∈ [jobEvent, missing], x.Fits Json.dumps := by simp [hmissing, hevent]
  constructor
  · exact (readRange_socket _ WorkerContext.bare rfl hrequest hfirst hwritten).2.1 trivial
  · exact ((readRange_socket _ WorkerContext.bare rfl hrequest hlast hwritten).2.2 id).2

/-! ### A chunk over a connection -/

/-- The result of `write_chunk` without a connection, as it is seen over a connection. -/
def seenUpload : Except ClientError ℤ → Except ClientError ℤ
  | .ok newOffset => .ok newOffset
  | .error (.osError e) => .error (.rpcCallError "io_error" e)
  | .error (.rpcCallError _ message) => .error (.rpcCallError "io_error" message)
  | .error .other => .error .other

/-- The first frame is taken for the answer to `write_chunk`. -/
theorem writeChunk_line {x : Sent} (hx : x.Fits Json.dumps) {members : List (String × Json)}
    (hvalue : x.value = .obj members) (rest : List UInt8) :
  writeChunk py (x.bytes Json.dumps ++ rest)
    = if frameOk py (.obj members) then
        match ((Json.obj members).get? "offset").bind (Json.pyInt py) with
        | some newOffset => .ok newOffset
        | none => .error .other
      else .error (frameError py (.obj members))
  := by
  rw [writeChunk, Sent.readline_bytes Json.dumps hx]
  dsimp only
  rw [Json.loads_line, hvalue]

/-- A chunk that is written over a connection: the worker is left in the state in which the same call
without a connection leaves it.  The client gets the same offset, or an error with the same text, if no event
is sent before the answer; otherwise it gets an error that says nothing, also if the chunk was written. -/
theorem writeChunk_socket {σ : Type} (w : WorkerContext σ) (hloads : w.loads = Json.loads)
    {uploadId : String} {offset : ℤ} {data : List UInt8} {s : σ}
    (hrequest : (uploadFrame uploadId offset data).Fits) {sent : List Sent}
    (hfits : ∀ x ∈ sent, x.Fits Json.dumps)
    (hsent : sent.filterMap Sent.output?
      = (turn w (accepted (uploadFrame uploadId offset data).bytes s)).written) :
  (turn w (accepted (uploadFrame uploadId offset data).bytes s)).world
      = (DirectFileDataClient.writeChunk w uploadId offset data s).2
    ∧ (Undisturbed sent → writeChunk py (Sent.allBytes Json.dumps sent)
        = seenUpload (DirectFileDataClient.writeChunk w uploadId offset data s).1)
    ∧ (¬ Undisturbed sent → writeChunk py (Sent.allBytes Json.dumps sent) = .error eventError)
  := by
  obtain ⟨closed, hturn⟩ := turn_uploadFrame w hloads hrequest s
  rw [hturn] at hsent ⊢
  use rfl
  generalize (DirectFileDataClient.writeChunk w uploadId offset data s).1 = r at hsent
  dsimp only at hsent ⊢
  cases sent with
  | nil =>
      constructor
      · intro _
        rcases r with (_ | _ | _) | _
        · cases hsent
        · cases hsent
        · rfl
        · cases hsent
      · intro h
        exact absurd trivial h
  | cons x sent =>
      have hx := (List.forall_mem_cons.mp hfits).1
      rw [Sent.allBytes_cons]
      cases x with
      | event topic data =>
          constructor
          · intro h
            cases h
          · intro _
            exact writeChunk_line py hx rfl _
      | output out =>
          have hsent : out :: sent.filterMap Sent.output? = uploadOutput r := hsent
          have hline : ∀ {members : List (String × Json)}, out = .line (.obj members) →
              Undisturbed (.output out :: sent)
                ∧ writeChunk py ((Sent.output out).bytes Json.dumps ++ Sent.allBytes Json.dumps sent)
                  = if frameOk py (.obj members) then
                      match ((Json.obj members).get? "offset").bind (Json.pyInt py) with
                      | some newOffset => .ok newOffset
                      | none => .error .other
                    else .error (frameError py (.obj members)) := by
            rintro members rfl
            exact ⟨trivial, writeChunk_line py hx rfl _⟩
          have hresult : Undisturbed (.output out :: sent)
              ∧ writeChunk py ((Sent.output out).bytes Json.dumps ++ Sent.allBytes Json.dumps sent)
                = seenUpload r := by
            rcases r with (_ | _ | _) | _
            · exact hline (List.cons_eq_cons.mp hsent).1
            · exact hline (List.cons_eq_cons.mp hsent).1
            · cases hsent
            · exact hline (List.cons_eq_cons.mp hsent).1
          exact ⟨fun _ => hresult.2, fun h => absurd hresult.1 h⟩

/-- The answer about an upload that does not exist. -/
def unknown : Sent :=
  .output (.line (failed "unknown upload_id: u"))

/-- A chunk for an upload that does not exist is refused, and the error is lost if an event is sent first. -/
theorem writeChunk_unknown :
  writeChunk WorkerContext.bare.py (Sent.allBytes Json.dumps [unknown, jobEvent])
      = .error (.rpcCallError "io_error" "unknown upload_id: u")
    ∧ writeChunk WorkerContext.bare.py (Sent.allBytes Json.dumps [jobEvent, unknown]) = .error eventError
  := by
  have hrequest : (uploadFrame "u" 0 [1, 2]).Fits := by
    rw [uploadFrame, ConnectionFrame.Fits]
    decide +kernel
  obtain ⟨closed, hturn⟩ := turn_uploadFrame WorkerContext.bare rfl hrequest ()
  have hwritten : [failed "unknown upload_id: u"].map Output.line
      = (turn WorkerContext.bare (accepted (uploadFrame "u" 0 [1, 2]).bytes ())).written := by
    rw [hturn]
    rfl
  have hunknown : unknown.Fits Json.dumps := by
    rw [Sent.Fits]
    decide +kernel
  have hfirst : ∀ x ∈ [unknown, jobEvent], x.Fits Json.dumps := by simp [hunknown, fits_missing.2]
  have hlast : ∀ x ∈ [jobEvent, unknown], x.Fits Json.dumps := by simp [hunknown, fits_missing.2]
  constructor
  · exact (writeChunk_socket _ WorkerContext.bare rfl hrequest hfirst hwritten).2.1 trivial
  · exact (writeChunk_socket _ WorkerContext.bare rfl hrequest hlast hwritten).2.2 id

end SocketFileDataClient
