import NasOs.Agent.Connection

/-!
# The frames of a connection

One turn of the loop on one frame.  What the loop survives it answers, and it has read the frame and no
more; for what it does not survive, the connection is closed, or it reads on where no frame begins.
Hence a connection keeps to the frames that are sent exactly if it survives each of them, by
induction on the frames.
-/

/-! ### Reading -/

namespace StreamReader

/-- A line is read up to its end, unless it is too long. -/
theorem readline_line (text : FrameLine) (rest : List UInt8) :
  readline (text.1 ++ 10 :: rest)
    = if limit < text.1.length then .error .other else .ok (text.1 ++ [10], rest)
  := by
  rw [readline, Text.splitFirst_append text.2]

/-- Reading a line from a stream that is not at its end takes some bytes. -/
theorem length_lt_of_readline {unread line rest : List UInt8} (h : readline unread = .ok (line, rest))
    (hunread : unread ≠ []) :
  rest.length < unread.length
  := by
  rw [readline] at h
  split at h
  · rename_i first after hsplit
    split at h
    · cases h
    · cases h
      rw [Text.eq_of_splitFirst hsplit, List.length_append, List.length_cons]
      omega
  · split at h
    · cases h
    · cases h
      apply List.length_pos_iff.mpr hunread

/-- The data of a frame is read exactly. -/
theorem readexactly_append (data rest : List UInt8) :
  readexactly data.length (data ++ rest) = .ok (data, rest)
  := by
  rw [readexactly, if_neg, Int.toNat_natCast, List.take_left, List.drop_left]
  rw [List.length_append]
  omega

/-- What is read exactly is no more than there is. -/
theorem of_readexactly_eq_ok {n : ℤ} {unread data rest : List UInt8}
    (h : readexactly n unread = .ok (data, rest)) :
  (rest.length : ℤ) + n = unread.length
  := by
  rw [readexactly] at h
  split at h
  · cases h
  · cases h
    rw [List.length_drop]
    omega

end StreamReader

/-! ### One turn -/

namespace Connection

open FileworkerLoop ConnectionM

variable {σ : Type} (w : WorkerContext σ)

/-- A connection on which something was written, the rest of the worker being in another state. -/
def told (c : Connection σ) (answer : List Output × σ) : Connection σ :=
  { c with world := answer.2, written := c.written ++ answer.1 }

@[simp]
theorem execute_ask_bind {α : Type} (op : ConnectionOp) (g : op.Answer → ConnectionM α)
    (c : Connection σ) :
  (ask op >>= g).run.execute (answer w) c
    = (g (answer w c op).1).run.execute (answer w) (answer w c op).2
  := rfl

@[simp]
theorem execute_throw {α : Type} (e : Raised) (c : Connection σ) :
  (throw e : ConnectionM α).run.execute (answer w) c = (.error e, c)
  := rfl

@[simp]
theorem execute_pure {α : Type} (a : α) (c : Connection σ) :
  (pure a : ConnectionM α).run.execute (answer w) c = (.ok a, c)
  := rfl

@[simp]
theorem execute_write (out : Output) (c : Connection σ) :
  (ask (.write out)).run.execute (answer w) c = (.ok (), c.told ([out], c.world))
  := rfl

/-- Writing and going on. -/
@[simp]
theorem execute_write_bind {α : Type} (out : Output) (g : Unit → ConnectionM α) (c : Connection σ) :
  (ask (.write out) >>= g).run.execute (answer w) c
    = (g ()).run.execute (answer w) (c.told ([out], c.world))
  := rfl

/-- Asking the file system and going on. -/
@[simp]
theorem execute_file_bind {α : Type} (call : FileCall) (g : call.Answer → ConnectionM α)
    (c : Connection σ) :
  (ask (.file call) >>= g).run.execute (answer w) c
    = (g (w.file c.world call).1).run.execute (answer w) { c with world := (w.file c.world call).2 }
  := rfl

end Connection

namespace ConnectionM

variable {α β : Type} (g : α → ConnectionM β)

@[simp]
theorem raiseAny_ok_bind (a : α) :
  raiseAny (.ok a) >>= g = g a
  := rfl

@[simp]
theorem raiseAny_error_bind (e : Raised) :
  raiseAny (.error e) >>= g = throw e
  := rfl

@[simp]
theorem raiseOs_ok_bind (a : α) :
  raiseOs (.ok a) >>= g = g a
  := rfl

@[simp]
theorem raiseOs_error_bind (message : String) :
  raiseOs (.error message) >>= g = throw (.osError message)
  := rfl

@[simp]
theorem raiseNone_some_bind (a : α) :
  raiseNone (some a) >>= g = g a
  := rfl

@[simp]
theorem raiseNone_none_bind :
  raiseNone none >>= g = throw .other
  := rfl

end ConnectionM

namespace Connection

open FileworkerLoop ConnectionM

variable {σ : Type} (w : WorkerContext σ)

/-- An operation answers its `OSError`. -/
def reported : Except Raised Unit × Connection σ → Except Raised Unit × Connection σ
  | (.error (.osError message), c) => (.ok (), c.told ([.line (failed message)], c.world))
  | r => r

/-- The line of an operation, run alone. -/
theorem execute_handleOpLine (op : Json) (c : Connection σ) :
  (handleOpLine w op).run.execute (answer w) c
    = reported
        ((if op.hasText "op" "upload_chunk" then opUploadChunk w op
          else if op.hasText "op" "download_range" then opDownloadRange w op
          else ask (.write (.line (failed
            ("unknown op: " ++ ((op.get? "op").map (Json.pyRepr w.py)).getD "None"))))).run.execute
          (answer w) c)
  := by
  rw [handleOpLine, Coroutine.execute_tryCatch]
  split
  · rename_i h
    rw [h]
    rfl
  · rename_i e t h
    rw [h]
    cases e with
    | osError message => rfl
    | other => rfl

/-- The chunks of a file are sent, and the answer after them. -/
theorem reported_sendRange (file : FileArg) (remaining : ℕ) (c : Connection σ) :
  reported ((sendRange file remaining >>= fun _ => ask (.write (.line succeeded))).run.execute
      (answer w) c)
    = (.ok (), c.told (rangeAnswer w file remaining c.world))
  := by
  induction remaining using Nat.strong_induction_on generalizing c with
  | _ remaining ih =>
      rw [sendRange, rangeAnswer]
      split
      · rename_i hremaining
        rw [bind_assoc, execute_file_bind]
        rcases w.file c.world (.read file (min downloadFrameSize remaining)) with ⟨e | chunk, s⟩
        · rfl
        · simp only [raiseOs_ok_bind]
          split
          · rfl
          · rename_i hchunk
            rw [bind_assoc, execute_write_bind, ih]
            · rw [told, told, told, List.append_assoc]
              rfl
            · have hlength : 0 < chunk.length := List.length_pos_iff.mpr hchunk
              omega
      · rfl

/-- A download is answered, if its offset is not beyond all files. -/
theorem reported_download {raw : Json} {file : FileArg} {offset : ℤ} {length : Option ℤ}
    (hfile : (raw.get? "path").bind fileArg = some file) (hoffset : offsetOf w raw = some offset)
    (hlength : lengthOf w raw = some length) (c : Connection σ)
    (h : (FrameContent.downloadRange file offset length).Seekable w c.world) :
  reported ((opDownloadRange w raw).run.execute (answer w) c)
    = (.ok (), c.told (downloadAnswer w file offset length c.world))
  := by
  obtain ⟨path, hpath, hfile⟩ := Option.bind_eq_some_iff.mp hfile
  rw [opDownloadRange, downloadAnswer]
  simp only [hpath, hoffset, hlength, hfile, raiseNone_some_bind]
  rw [execute_file_bind]
  rcases hsize : w.file c.world (.getsize file) with ⟨e | size, s₁⟩
  · rfl
  rw [raiseOs_ok_bind, execute_file_bind]
  dsimp only
  rcases hopen : w.file s₁ (.openRead file) with ⟨e | ⟨⟩, s₂⟩
  · rfl
  have hseek : isOffset offset = true := by
    apply h size
    · rw [hsize]
    · rw [hsize, hopen]
  rw [raiseOs_ok_bind, if_pos hseek, execute_file_bind]
  dsimp only
  rcases w.file s₂ (.seek file offset) with ⟨e | ⟨⟩, s₃⟩
  · rfl
  · rw [raiseOs_ok_bind]
    apply reported_sendRange

/-- An offset beyond all files ends a download whose file is there. -/
theorem reported_download_of_not_seekable {raw : Json} {file : FileArg} {offset : ℤ} {length : Option ℤ}
    (hfile : (raw.get? "path").bind fileArg = some file) (hoffset : offsetOf w raw = some offset)
    (hlength : lengthOf w raw = some length) (c : Connection σ)
    (h : ¬ (FrameContent.downloadRange file offset length).Seekable w c.world) :
  ∃ c', reported ((opDownloadRange w raw).run.execute (answer w) c) = (.error .other, c')
  := by
  obtain ⟨path, hpath, hfile⟩ := Option.bind_eq_some_iff.mp hfile
  simp only [FrameContent.Seekable, not_forall] at h
  obtain ⟨size, hsize, hopen, hseek⟩ := h
  rw [opDownloadRange]
  simp only [hpath, hoffset, hlength, hfile, raiseNone_some_bind]
  rw [execute_file_bind, hsize, raiseOs_ok_bind, execute_file_bind, hopen, raiseOs_ok_bind, if_neg hseek]
  exact ⟨_, rfl⟩

/-- A download without its fields raises what nothing catches. -/
theorem reported_download_of_none {raw : Json} (c : Connection σ)
    (h : (do
      let file ← (raw.get? "path").bind fileArg
      let offset ← offsetOf w raw
      let length ← lengthOf w raw
      some (FrameContent.downloadRange file offset length)) = none) :
  ∃ c', reported ((opDownloadRange w raw).run.execute (answer w) c) = (.error .other, c')
  := by
  rw [opDownloadRange]
  cases hpath : raw.get? "path" with
  | none => exact ⟨c, rfl⟩
  | some path =>
      cases hoffset : offsetOf w raw with
      | none => exact ⟨c, rfl⟩
      | some offset =>
          cases hlength : lengthOf w raw with
          | none => exact ⟨c, rfl⟩
          | some length =>
              cases hfile : fileArg path with
              | none =>
                  use c
                  simp only [raiseNone_some_bind]
                  rw [hfile]
                  rfl
              | some file => simp [hpath, hoffset, hlength, hfile] at h

/-! ### Uploads -/

/-- A frame is read if its header tells how long its data is. -/
theorem execute_readBinFrame {α : Type} (header : FrameLine) (data rest : List UInt8) {value : Json}
    (hfits : header.1.length ≤ StreamReader.limit) (hvalue : w.loads (header.1 ++ [10]) = .value value)
    (hbin : (value.get? "bin").bind (Json.pyInt w.py) = some (data.length : ℤ))
    (g : List UInt8 → ConnectionM α) (c : Connection σ)
    (hc : c.unread = header.1 ++ 10 :: (data ++ rest)) :
  (readBinFrame w >>= g).run.execute (answer w) c
    = (g data).run.execute (answer w) { c with unread := rest }
  := by
  have hline : StreamReader.readline c.unread = .ok (header.1 ++ [10], data ++ rest) := by
    rw [hc, StreamReader.readline_line, if_neg (Nat.not_lt.mpr hfits)]
  have hne : header.1 ++ [10] ≠ ([] : List UInt8) := by simp
  rw [readBinFrame, bind_assoc, execute_ask_bind]
  simp only [answer, hline, raiseAny_ok_bind, if_neg hne, hvalue, hbin, raiseNone_some_bind, bind_assoc]
  rw [execute_ask_bind]
  simp only [answer, StreamReader.readexactly_append, raiseAny_ok_bind]

/-- Looking for an upload and going on. -/
theorem execute_findUpload_bind {α : Type} (uploadId : Json) (hhash : uploadId.isHashable = true)
    (g : Option String → ConnectionM α) (c : Connection σ) :
  (findUpload uploadId >>= g).run.execute (answer w) c
    = (g (w.findUpload c.world uploadId).1).run.execute (answer w)
        { c with world := (w.findUpload c.world uploadId).2 }
  := by
  cases uploadId with
  | arr elements => cases hhash
  | obj members => cases hhash
  | _ => rfl

/-- An upload is answered, if its offset is not beyond all files. -/
theorem reported_upload {raw uploadId : Json} {offset : ℤ} (header : FrameLine)
    (data rest : List UInt8) {value : Json} (hid : raw.get? "upload_id" = some uploadId)
    (hhash : uploadId.isHashable = true)
    (hoffset : (raw.get? "offset").bind (Json.pyInt w.py) = some offset)
    (hfits : header.1.length ≤ StreamReader.limit) (hvalue : w.loads (header.1 ++ [10]) = .value value)
    (hbin : (value.get? "bin").bind (Json.pyInt w.py) = some (data.length : ℤ)) (c : Connection σ)
    (hc : c.unread = header.1 ++ 10 :: (data ++ rest))
    (h : (FrameContent.uploadChunk uploadId offset data).Seekable w c.world) :
  reported ((opUploadChunk w raw).run.execute (answer w) c)
    = (.ok (), { c with unread := rest }.told
        ([.line (uploadAnswer w uploadId offset data c.world).1],
          (uploadAnswer w uploadId offset data c.world).2))
  := by
  rw [opUploadChunk, hid, raiseNone_some_bind, hoffset, raiseNone_some_bind,
    execute_readBinFrame w header data rest hfits hvalue hbin _ c hc,
    execute_findUpload_bind w uploadId hhash,
    uploadAnswer]
  dsimp only
  rcases hfound : w.findUpload c.world uploadId with ⟨_ | partPath, s₁⟩
  · rfl
  dsimp only
  rw [writeChunk, bind_assoc, execute_file_bind]
  dsimp only
  rcases hopen : w.file s₁ (.openPart partPath) with ⟨e | ⟨⟩, s₂⟩
  · rfl
  have hseek : isOffset offset = true := by
    apply h partPath
    · rw [hfound]
    · rw [hfound, hopen]
  rw [raiseOs_ok_bind, if_pos hseek, bind_assoc, execute_file_bind]
  dsimp only
  rcases w.file s₂ (.writePart partPath offset data) with ⟨e | newOffset, s₃⟩
  · rfl
  · rfl

/-- An offset beyond all files ends an upload whose part file is there. -/
theorem reported_upload_of_not_seekable {raw uploadId : Json} {offset : ℤ} (header : FrameLine)
    (data rest : List UInt8) {value : Json} (hid : raw.get? "upload_id" = some uploadId)
    (hhash : uploadId.isHashable = true)
    (hoffset : (raw.get? "offset").bind (Json.pyInt w.py) = some offset)
    (hfits : header.1.length ≤ StreamReader.limit) (hvalue : w.loads (header.1 ++ [10]) = .value value)
    (hbin : (value.get? "bin").bind (Json.pyInt w.py) = some (data.length : ℤ)) (c : Connection σ)
    (hc : c.unread = header.1 ++ 10 :: (data ++ rest))
    (h : ¬ (FrameContent.uploadChunk uploadId offset data).Seekable w c.world) :
  ∃ c', reported ((opUploadChunk w raw).run.execute (answer w) c) = (.error .other, c')
  := by
  simp only [FrameContent.Seekable, not_forall] at h
  obtain ⟨partPath, hfound, hopen, hseek⟩ := h
  rw [opUploadChunk, hid, raiseNone_some_bind, hoffset, raiseNone_some_bind,
    execute_readBinFrame w header data rest hfits hvalue hbin _ c hc,
    execute_findUpload_bind w uploadId hhash]
  simp only [hfound]
  rw [writeChunk, bind_assoc, execute_file_bind, hopen, raiseOs_ok_bind, if_neg hseek]
  exact ⟨_, rfl⟩

/-! ### What is not read -/

/-- An operation of the loop that reads nothing from the stream. -/
def ReadsNothing : ConnectionOp → Prop
  | .readline => False
  | .readexactly _ => False
  | _ => True

/-- What reads nothing leaves the stream where it is. -/
theorem unread_execute {α : Type} {x : ConnectionM α} (hx : x.run.Awaits ReadsNothing) (c : Connection σ) :
  (x.run.execute (answer w) c).2.unread = c.unread
  := by
  have keeps : ∀ (c' : Connection σ) op, ReadsNothing op → c'.unread = c.unread →
      (answer w c' op).2.unread = c.unread := by
    intro c' op hop hc'
    cases op with
    | readline => cases hop
    | readexactly n => cases hop
    | _ => exact hc'
  exact hx.execute keeps rfl

/-- Nothing is put back into the stream. -/
theorem length_unread_execute {α : Type} (x : ConnectionM α) (c : Connection σ) :
  (x.run.execute (answer w) c).2.unread.length ≤ c.unread.length
  := by
  have keeps : ∀ (c' : Connection σ) op, c'.unread.length ≤ c.unread.length →
      (answer w c' op).2.unread.length ≤ c.unread.length := by
    intro c' op hc'
    cases op with
    | readline =>
        rw [answer]
        split
        · exact hc'
        · rename_i line rest hline
          rcases eq_or_ne c'.unread [] with hnil | hne
          · rw [hnil] at hline
            cases hline
            apply Nat.zero_le
          · have hlt := StreamReader.length_lt_of_readline hline hne
            exact hlt.le.trans hc'
    | readexactly n =>
        rw [answer, StreamReader.readexactly]
        split
        · exact hc'
        · rename_i data rest hdata
          split at hdata
          · cases hdata
          · cases hdata
            rw [List.length_drop]
            exact (Nat.sub_le _ _).trans hc'
    | _ => exact hc'
  exact Coroutine.execute_keeps keeps _ le_rfl

end Connection

namespace ConnectionM

open Connection

variable {α : Type}

/-- Asking the file system reads nothing. -/
theorem awaits_file (call : FileCall) :
  (ask (.file call)).run.Awaits ReadsNothing
  := ⟨trivial, fun _ => trivial⟩

/-- Writing reads nothing. -/
theorem awaits_write (out : Output) :
  (ask (.write out)).run.Awaits ReadsNothing
  := ⟨trivial, fun _ => trivial⟩

/-- Handling a request reads nothing. -/
theorem awaits_handle (request : RpcRequest) :
  (ask (.handle request)).run.Awaits ReadsNothing
  := ⟨trivial, fun _ => trivial⟩

theorem awaits_raiseOs (a : Except String α) :
  (raiseOs a).run.Awaits ReadsNothing
  := by
  cases a with
  | ok a => trivial
  | error e => trivial

theorem awaits_raiseNone (a : Option α) :
  (raiseNone a).run.Awaits ReadsNothing
  := by
  cases a with
  | some a => trivial
  | none => trivial

end ConnectionM

namespace FileworkerLoop

open Connection ConnectionM Coroutine

variable {σ : Type} (w : WorkerContext σ)

/-- Looking for an upload reads nothing. -/
theorem awaits_findUpload (uploadId : Json) :
  (findUpload uploadId).run.Awaits ReadsNothing
  := by
  cases uploadId with
  | str uploadId => exact awaits_file _
  | _ => trivial

/-- Writing a chunk reads nothing from the stream. -/
theorem awaits_writeChunk (partPath : String) (offset : ℤ) (data : List UInt8) :
  (writeChunk partPath offset data).run.Awaits ReadsNothing
  := by
  apply awaits_exceptT_bind (awaits_file _)
  intro opened
  apply awaits_exceptT_bind (awaits_raiseOs opened)
  intro _
  split
  · apply awaits_exceptT_bind (awaits_file _)
    intro a
    apply awaits_raiseOs
  · trivial

/-- Sending the chunks of a file reads nothing from the stream. -/
theorem awaits_sendRange (file : FileArg) (remaining : ℕ) :
  (sendRange file remaining).run.Awaits ReadsNothing
  := by
  induction remaining using Nat.strong_induction_on with
  | _ remaining ih =>
      rw [sendRange]
      split
      · apply awaits_exceptT_bind (awaits_file _)
        intro a
        apply awaits_exceptT_bind (awaits_raiseOs a)
        intro chunk
        split
        · trivial
        · rename_i hchunk
          apply awaits_exceptT_bind (awaits_write _)
          intro _
          apply ih
          have hlength : 0 < chunk.length := List.length_pos_iff.mpr hchunk
          omega
      · trivial

/-- A download reads nothing from the stream. -/
theorem awaits_opDownloadRange (op : Json) :
  (opDownloadRange w op).run.Awaits ReadsNothing
  := by
  apply awaits_exceptT_bind (awaits_raiseNone _)
  intro path
  apply awaits_exceptT_bind (awaits_raiseNone _)
  intro offset
  apply awaits_exceptT_bind (awaits_raiseNone _)
  intro length
  apply awaits_exceptT_bind (awaits_raiseNone _)
  intro file
  apply awaits_exceptT_bind (awaits_file _)
  intro size
  apply awaits_exceptT_bind (awaits_raiseOs size)
  intro size
  apply awaits_exceptT_bind (awaits_file _)
  intro opened
  apply awaits_exceptT_bind (awaits_raiseOs opened)
  intro _
  split
  · apply awaits_exceptT_bind (awaits_file _)
    intro a
    apply awaits_exceptT_bind (awaits_raiseOs a)
    intro _
    apply awaits_exceptT_bind (awaits_sendRange _ _)
    intro _
    apply awaits_write
  · trivial

/-- A value that is no upload is handled without reading from the stream. -/
theorem awaits_handleValue {raw : Json}
    (h : raw.hasText "type" "request" = true ∨ raw.hasText "op" "upload_chunk" = false) :
  (handleValue w raw).run.Awaits ReadsNothing
  := by
  rw [handleValue]
  split
  · split
    · apply awaits_exceptT_bind (awaits_raiseNone _)
      intro request
      apply awaits_exceptT_bind (awaits_handle _)
      intro response
      apply awaits_write
    · rename_i hrequest
      split
      · rw [handleOpLine, if_neg (by simp [h.resolve_left hrequest])]
        apply awaits_tryCatch
        · split
          · apply awaits_opDownloadRange
          · apply awaits_write
        · intro e
          cases e with
          | osError message => apply awaits_write
          | other => trivial
      · trivial
  · trivial

end FileworkerLoop

namespace Connection

open FileworkerLoop ConnectionM

variable {σ : Type} (w : WorkerContext σ)

/-- What becomes of the connection after a value was handled. -/
def settled : Except Raised Unit × Connection σ → Connection σ
  | (.ok _, c) => c
  | (.error _, c) => { c with closed := true }

/-- A line that is too long closes the connection. -/
theorem turn_of_long {text : FrameLine} (h : StreamReader.limit < text.1.length) (following : List UInt8)
    (s : σ) (out : List Output) :
  (turn w ⟨text.1 ++ 10 :: following, false, s, out⟩).closed = true
  := by
  rw [turn, body, execute_ask_bind]
  simp only [answer, StreamReader.readline_line, if_pos h]
  rfl

/-- A line that is not too long is read, and what `json.loads` makes of it decides. -/
theorem turn_of_line {text : FrameLine} (h : text.1.length ≤ StreamReader.limit) (following : List UInt8)
    (s : σ) (out : List Output) :
  turn w ⟨text.1 ++ 10 :: following, false, s, out⟩
    = match w.loads (text.1 ++ [10]) with
      | .decodeError => ⟨following, false, s, out⟩
      | .raised => ⟨following, true, s, out⟩
      | .value raw => settled ((handleValue w raw).run.execute (answer w) ⟨following, false, s, out⟩)
  := by
  have hne : text.1 ++ [10] ≠ ([] : List UInt8) := by simp
  rw [turn, body, execute_ask_bind]
  simp only [answer, StreamReader.readline_line, if_neg (Nat.not_lt.mpr h), raiseAny_ok_bind, if_neg hne]
  cases w.loads (text.1 ++ [10]) with
  | decodeError => rfl
  | raised => rfl
  | value raw =>
      dsimp only
      rw [Coroutine.execute_exceptT_bind]
      rcases (handleValue w raw).run.execute (answer w) ⟨following, false, s, out⟩ with ⟨e | _, c⟩
      · rfl
      · rfl

/-! ### What is survived -/

/-- A value that is well formed is answered. -/
theorem execute_handleValue_of_content {raw : Json} {content : FrameContent}
    (h : valueContent w raw = some content) (c : Connection σ) (hseek : content.Seekable w c.world) :
  (handleValue w raw).run.execute (answer w) c = (.ok (), c.told (content.answer w c.world))
  := by
  rw [valueContent] at h
  rw [handleValue]
  split at h
  · rename_i hrequest
    obtain ⟨request, hvalid, rfl⟩ := Option.map_eq_some_iff.mp h
    rw [if_pos (Json.isObject_of_hasText hrequest), if_pos hrequest, hvalid]
    rfl
  · rename_i hrequest
    split at h
    · rename_i hdownload
      obtain ⟨file, hfile, h⟩ := Option.bind_eq_some_iff.mp h
      obtain ⟨offset, hoffset, h⟩ := Option.bind_eq_some_iff.mp h
      obtain ⟨length, hlength, h⟩ := Option.bind_eq_some_iff.mp h
      cases h
      have hupload := Json.not_hasText hdownload (show "download_range" ≠ "upload_chunk" by decide)
      have hop : (raw.get? "op").isSome = true := by
          rw [Json.get?_of_hasText hdownload]
          rfl
      rw [if_pos (Json.isObject_of_hasText hdownload), if_neg hrequest, if_pos hop, execute_handleOpLine,
        if_neg hupload, if_pos hdownload, reported_download w hfile hoffset hlength c hseek]
      rfl
    · cases h

/-- A harmless value is dropped, or gets an error. -/
theorem execute_handleValue_of_harmless {raw : Json} (hraw : raw.isObject = true)
    (hrequest : raw.hasText "type" "request" = false) (hupload : raw.hasText "op" "upload_chunk" = false)
    (hdownload : raw.hasText "op" "download_range" = false) :
  (∀ c, (handleValue w raw).run.execute (answer w) c = (.ok (), c))
    ∨ ∃ error, ∀ c, (handleValue w raw).run.execute (answer w) c
        = (.ok (), c.told ([.line (failed error)], c.world))
  := by
  rw [handleValue, if_pos hraw, if_neg (by simp [hrequest])]
  split
  · right
    use "unknown op: " ++ ((raw.get? "op").map (Json.pyRepr w.py)).getD "None"
    intro c
    rw [execute_handleOpLine, if_neg (by simp [hupload]), if_neg (by simp [hdownload])]
    rfl
  · left
    intro c
    rfl

/-- A harmless value is not well formed. -/
theorem valueContent_of_harmless {raw : Json} (hrequest : raw.hasText "type" "request" = false)
    (hdownload : raw.hasText "op" "download_range" = false) :
  valueContent w raw = none
  := by
  rw [valueContent, if_neg (by simp [hrequest]), if_neg (by simp [hdownload])]

/-- What an upload with a binary frame holds. -/
theorem of_uploadContent {raw header : Json} {data : List UInt8} {content : FrameContent}
    (h : uploadContent w raw header data = some content) :
  ∃ uploadId offset, content = .uploadChunk uploadId offset data
    ∧ raw.hasText "type" "request" = false ∧ raw.hasText "op" "upload_chunk" = true
    ∧ raw.get? "upload_id" = some uploadId ∧ uploadId.isHashable = true
    ∧ (raw.get? "offset").bind (Json.pyInt w.py) = some offset
    ∧ (header.get? "bin").bind (Json.pyInt w.py) = some (data.length : ℤ)
  := by
  rw [uploadContent] at h
  obtain ⟨⟨-, hrequest, hupload, hbin⟩, h⟩ := Option.ite_none_right_eq_some.mp h
  obtain ⟨uploadId, hid, h⟩ := Option.bind_eq_some_iff.mp h
  obtain ⟨⟨⟩, hhash, h⟩ := Option.bind_eq_some_iff.mp h
  obtain ⟨offset, hoffset, h⟩ := Option.bind_eq_some_iff.mp h
  cases h
  have hhash : uploadId.isHashable = true := by
    rw [Option.guard_eq_some'] at hhash
    exact hhash
  exact ⟨uploadId, offset, rfl, by simpa using hrequest, hupload, hid, hhash, hoffset, hbin⟩

/-- The line of an upload is handled as the operation. -/
theorem execute_handleValue_of_upload {raw : Json} (hrequest : raw.hasText "type" "request" = false)
    (hupload : raw.hasText "op" "upload_chunk" = true) (c : Connection σ) :
  (handleValue w raw).run.execute (answer w) c
    = reported ((opUploadChunk w raw).run.execute (answer w) c)
  := by
  have hop : (raw.get? "op").isSome = true := by
    rw [Json.get?_of_hasText hupload]
    rfl
  rw [handleValue, if_pos (Json.isObject_of_hasText hupload), if_neg (by simp [hrequest]), if_pos hop,
    execute_handleOpLine, if_pos hupload]

/-- A turn on a frame that is one line. -/
theorem turn_of_frameLine {text : FrameLine} (h : text.1.length ≤ StreamReader.limit) (rest : List UInt8)
    (s : σ) (out : List Output) :
  turn w ⟨(ConnectionFrame.line text).bytes ++ rest, false, s, out⟩
    = match w.loads (text.1 ++ [10]) with
      | .decodeError => ⟨rest, false, s, out⟩
      | .raised => ⟨rest, true, s, out⟩
      | .value raw => settled ((handleValue w raw).run.execute (answer w) ⟨rest, false, s, out⟩)
  := by
  rw [ConnectionFrame.bytes, List.append_assoc, List.singleton_append, turn_of_line w h]

/-- A turn on a frame with data reads its first line. -/
theorem turn_of_frameChunk {op : FrameLine} (h : op.1.length ≤ StreamReader.limit) (header : FrameLine)
    (data rest : List UInt8) (s : σ) (out : List Output) :
  turn w ⟨(ConnectionFrame.chunk op header data).bytes ++ rest, false, s, out⟩
    = match w.loads (op.1 ++ [10]) with
      | .decodeError => ⟨header.1 ++ 10 :: (data ++ rest), false, s, out⟩
      | .raised => ⟨header.1 ++ 10 :: (data ++ rest), true, s, out⟩
      | .value raw =>
          settled ((handleValue w raw).run.execute (answer w)
            ⟨header.1 ++ 10 :: (data ++ rest), false, s, out⟩)
  := by
  rw [ConnectionFrame.bytes, List.append_assoc, List.cons_append, List.append_assoc, List.cons_append,
    turn_of_line w h]

/-- A frame that is survived has its answer after one turn, which reads the frame and no more. -/
theorem turn_of_survived {s : σ} {frame : ConnectionFrame} (h : frame.Survived w s) :
  ∃ out s', FrameAnswered w s frame out s' ∧
    ∀ rest outs, turn w ⟨frame.bytes ++ rest, false, s, outs⟩ = ⟨rest, false, s', outs ++ out⟩
  := by
  obtain ⟨hfits, ⟨content, hcontent, hseek⟩ | hharmless⟩ := h
  · use (content.answer w s).1, (content.answer w s).2, .wellFormed hcontent
    intro rest outs
    cases frame with
    | line text =>
        rw [turn_of_frameLine w hfits]
        rw [ConnectionFrame.content] at hcontent
        split at hcontent
        · rename_i raw hraw
          rw [hraw]
          dsimp only
          rw [execute_handleValue_of_content w hcontent _ hseek]
          rfl
        · cases hcontent
    | chunk op header data =>
        rw [turn_of_frameChunk w hfits.1]
        rw [ConnectionFrame.content] at hcontent
        split at hcontent
        · rename_i raw value hraw hvalue
          obtain ⟨uploadId, offset, rfl, hrequest, hupload, hid, hhash, hoffset, hbin⟩ :=
            of_uploadContent w hcontent
          rw [hraw]
          dsimp only
          rw [execute_handleValue_of_upload w hrequest hupload,
            reported_upload w header data rest hid hhash hoffset hfits.2 hvalue hbin _ rfl hseek]
          rfl
        · cases hcontent
  · cases frame with
    | chunk op header data => cases hharmless
    | line text =>
        rw [ConnectionFrame.Harmless] at hharmless
        split at hharmless
        · rename_i raw hraw
          obtain ⟨hobject, hrequest, hupload, hdownload⟩ := hharmless
          have hnone : (ConnectionFrame.line text).content w = none := by
            rw [ConnectionFrame.content, hraw]
            apply valueContent_of_harmless w hrequest hdownload
          rcases execute_handleValue_of_harmless w hobject hrequest hupload hdownload with
            hdropped | ⟨error, hrefused⟩
          · use [], s, .dropped hnone
            intro rest outs
            rw [turn_of_frameLine w hfits, hraw, List.append_nil]
            dsimp only
            rw [hdropped]
            rfl
          · use [.line (failed error)], s, .refused hnone error
            intro rest outs
            rw [turn_of_frameLine w hfits, hraw]
            dsimp only
            rw [hrefused]
            rfl
        · rename_i hraw
          use [], s, .dropped (by rw [ConnectionFrame.content, hraw])
          intro rest outs
          rw [turn_of_frameLine w hfits, hraw, List.append_nil]
        · cases hharmless

/-! ### What is not survived -/

/-- Settling leaves the stream where it is. -/
theorem unread_settled (r : Except Raised Unit × Connection σ) :
  (settled r).unread = r.2.unread
  := by
  obtain ⟨e | _, c⟩ := r
  · rfl
  · rfl

/-- Answering an error leaves the stream where it is. -/
theorem unread_reported (r : Except Raised Unit × Connection σ) :
  (reported r).2.unread = r.2.unread
  := by
  obtain ⟨(message | _) | _, c⟩ := r
  · rfl
  · rfl
  · rfl

/-- A stream whose next line is a header of data is not at what follows the data. -/
theorem ne_of_header (header data rest : List UInt8) :
  header ++ 10 :: (data ++ rest) ≠ rest
  := by
  intro h
  have hlength := congrArg List.length h
  simp only [List.length_append, List.length_cons] at hlength
  omega

/-- A line that cannot be read raises what nothing catches. -/
theorem eq_other_of_readline {unread : List UInt8} {e : Raised}
    (h : StreamReader.readline unread = .error e) :
  e = .other
  := by
  rw [StreamReader.readline] at h
  split at h
  · split at h
    · cases h
      rfl
    · cases h
  · split at h
    · cases h
      rfl
    · cases h

/-- Reading a frame raises what nothing catches, or takes as many bytes after the header as the header
says. -/
theorem readBinFrame_cases {α : Type} (header : FrameLine) (tail : List UInt8)
    (g : List UInt8 → ConnectionM α) (c : Connection σ) (hc : c.unread = header.1 ++ 10 :: tail) :
  (∃ c', (readBinFrame w >>= g).run.execute (answer w) c = (.error .other, c'))
    ∨ ∃ value n data rest, header.1.length ≤ StreamReader.limit
        ∧ w.loads (header.1 ++ [10]) = .value value
        ∧ (value.get? "bin").bind (Json.pyInt w.py) = some n ∧ (rest.length : ℤ) + n = tail.length
        ∧ (readBinFrame w >>= g).run.execute (answer w) c
            = (g data).run.execute (answer w) { c with unread := rest }
  := by
  have hne : header.1 ++ [10] ≠ ([] : List UInt8) := by simp
  rw [readBinFrame, bind_assoc, execute_ask_bind]
  rcases Nat.lt_or_ge StreamReader.limit header.1.length with hlong | hfits
  · left
    simp only [answer, hc, StreamReader.readline_line, if_pos hlong]
    exact ⟨c, rfl⟩
  · simp only [answer, hc, StreamReader.readline_line, if_neg (Nat.not_lt.mpr hfits), raiseAny_ok_bind,
      if_neg hne]
    cases hvalue : w.loads (header.1 ++ [10]) with
    | decodeError =>
        left
        exact ⟨_, rfl⟩
    | raised =>
        left
        exact ⟨_, rfl⟩
    | value value =>
        dsimp only
        rw [bind_assoc]
        cases hbin : (value.get? "bin").bind (Json.pyInt w.py) with
        | none =>
            left
            exact ⟨_, rfl⟩
        | some n =>
            rw [raiseNone_some_bind, bind_assoc, execute_ask_bind]
            cases hread : StreamReader.readexactly n tail with
            | error e =>
                left
                simp only [answer, hread]
                have he : e = .other := by
                  rw [StreamReader.readexactly] at hread
                  split at hread
                  · cases hread
                    rfl
                  · cases hread
                subst he
                exact ⟨_, rfl⟩
            | ok r =>
                right
                obtain ⟨data, rest⟩ := r
                refine ⟨value, n, data, rest, hfits, rfl, hbin,
                  StreamReader.of_readexactly_eq_ok hread, ?_⟩
                simp only [answer, hread, raiseAny_ok_bind]

/-- An upload without a binary frame closes the connection, or takes some of what follows for one. -/
theorem misaligned_of_upload (raw : Json) {c : Connection σ} (hc : c.unread ≠ []) :
  (settled (reported ((opUploadChunk w raw).run.execute (answer w) c))).closed = true
    ∨ (settled (reported ((opUploadChunk w raw).run.execute (answer w) c))).unread.length
        < c.unread.length
  := by
  rw [opUploadChunk]
  cases raw.get? "upload_id" with
  | none =>
      left
      rfl
  | some uploadId =>
      rw [raiseNone_some_bind]
      cases (raw.get? "offset").bind (Json.pyInt w.py) with
      | none =>
          left
          rfl
      | some offset =>
          rw [raiseNone_some_bind, readBinFrame, bind_assoc, execute_ask_bind]
          simp only [answer]
          cases hline : StreamReader.readline c.unread with
          | error e =>
              left
              rw [eq_other_of_readline hline]
              rfl
          | ok r =>
              obtain ⟨line, rest⟩ := r
              right
              rw [unread_settled, unread_reported]
              apply (length_unread_execute w _ _).trans_lt
              exact StreamReader.length_lt_of_readline hline hc

/-- What an upload with a binary frame holds if it does not close the connection. -/
theorem content_of_upload {raw : Json} (header : FrameLine) (data rest : List UInt8)
    (hrequest : raw.hasText "type" "request" = false) (hupload : raw.hasText "op" "upload_chunk" = true)
    {c : Connection σ} (hc : c.unread = header.1 ++ 10 :: (data ++ rest))
    (hopen : (settled (reported ((opUploadChunk w raw).run.execute (answer w) c))).closed = false)
    (hrest : (settled (reported ((opUploadChunk w raw).run.execute (answer w) c))).unread = rest) :
  header.1.length ≤ StreamReader.limit
    ∧ ∃ value content, w.loads (header.1 ++ [10]) = .value value
      ∧ uploadContent w raw value data = some content ∧ content.Seekable w c.world
  := by
  cases hid : raw.get? "upload_id" with
  | none =>
      rw [opUploadChunk, hid] at hopen
      cases hopen
  | some uploadId =>
      cases hoffset : (raw.get? "offset").bind (Json.pyInt w.py) with
      | none =>
          rw [opUploadChunk, hid, hoffset] at hopen
          cases hopen
      | some offset =>
          have hrun := hopen
          have hlast := hrest
          rw [opUploadChunk, hid, raiseNone_some_bind, hoffset, raiseNone_some_bind] at hrun hlast
          rcases readBinFrame_cases w header (data ++ rest) _ c hc with
            ⟨c', hraised⟩ | ⟨value, n, data', rest', hfits, hvalue, hbin, hlength, heq⟩
          · rw [hraised] at hrun
            cases hrun
          · rw [heq] at hrun hlast
            have hreads : rest' = rest := by
              rw [← hlast, unread_settled, unread_reported, unread_execute w]
              apply Coroutine.awaits_exceptT_bind (awaits_findUpload uploadId)
              intro found
              cases found with
              | none => exact awaits_write _
              | some partPath =>
                  apply Coroutine.awaits_exceptT_bind (awaits_writeChunk partPath offset data')
                  intro newOffset
                  exact awaits_write _
            have hn : n = (data.length : ℤ) := by
              rw [hreads, List.length_append] at hlength
              omega
            rw [hn] at hbin
            have hhash : uploadId.isHashable = true := by
              cases uploadId with
              | arr elements => cases hrun
              | obj members => cases hrun
              | _ => rfl
            use hfits, value, .uploadChunk uploadId offset data, hvalue
            constructor
            · rw [uploadContent,
                if_pos ⟨Json.isObject_of_hasText hupload, by simp [hrequest], hupload, hbin⟩, hid, hoffset]
              simp [hhash]
            · by_contra hseek
              obtain ⟨c', hraised⟩ := reported_upload_of_not_seekable w header data rest hid hhash hoffset
                hfits hvalue hbin c hc hseek
              rw [hraised] at hopen
              cases hopen

/-- A value without a binary frame that leaves the connection open on what follows is well formed, or
harmless. -/
theorem survived_of_settled {raw : Json} {c : Connection σ} (hc : c.unread ≠ [])
    (hopen : (settled ((handleValue w raw).run.execute (answer w) c)).closed = false)
    (hrest : (settled ((handleValue w raw).run.execute (answer w) c)).unread = c.unread) :
  (∃ content, valueContent w raw = some content ∧ content.Seekable w c.world)
    ∨ (raw.isObject = true ∧ raw.hasText "type" "request" = false
      ∧ raw.hasText "op" "upload_chunk" = false ∧ raw.hasText "op" "download_range" = false)
  := by
  have hobject : raw.isObject = true := by
    by_contra hobject
    rw [handleValue, if_neg hobject] at hopen
    cases hopen
  by_cases hrequest : raw.hasText "type" "request" = true
  · left
    rw [handleValue, if_pos hobject, if_pos hrequest] at hopen
    cases hvalid : RpcRequest.modelValidate raw with
    | none =>
        rw [hvalid] at hopen
        cases hopen
    | some request =>
        use .request request
        rw [valueContent, if_pos hrequest, hvalid]
        exact ⟨rfl, trivial⟩
  · have hrequest : raw.hasText "type" "request" = false := by simpa using hrequest
    by_cases hupload : raw.hasText "op" "upload_chunk" = true
    · rw [execute_handleValue_of_upload w hrequest hupload] at hopen hrest
      rcases misaligned_of_upload w raw hc with hclosed | hlt
      · rw [hopen] at hclosed
        cases hclosed
      · rw [hrest] at hlt
        apply absurd hlt (lt_irrefl _)
    · by_cases hdownload : raw.hasText "op" "download_range" = true
      · left
        have hop : (raw.get? "op").isSome = true := by
          rw [Json.get?_of_hasText hdownload]
          rfl
        rw [handleValue, if_pos hobject, if_neg (by simp [hrequest]), if_pos hop, execute_handleOpLine,
          if_neg hupload, if_pos hdownload] at hopen
        rw [valueContent, if_neg (by simp [hrequest]), if_pos hdownload]
        cases hcontent : (do
          let file ← (raw.get? "path").bind fileArg
          let offset ← offsetOf w raw
          let length ← lengthOf w raw
          some (FrameContent.downloadRange file offset length)) with
        | none =>
            obtain ⟨c', hraised⟩ := reported_download_of_none w c hcontent
            rw [hraised] at hopen
            cases hopen
        | some content =>
            obtain ⟨file, hfile, hcontent⟩ := Option.bind_eq_some_iff.mp hcontent
            obtain ⟨offset, hoffset, hcontent⟩ := Option.bind_eq_some_iff.mp hcontent
            obtain ⟨length, hlength, hcontent⟩ := Option.bind_eq_some_iff.mp hcontent
            cases hcontent
            use .downloadRange file offset length, rfl
            by_contra hseek
            obtain ⟨c', hraised⟩ :=
              reported_download_of_not_seekable w hfile hoffset hlength c hseek
            rw [hraised] at hopen
            cases hopen
      · right
        exact ⟨hobject, hrequest, by simpa using hupload, by simpa using hdownload⟩

/-- A turn that leaves the connection open right after a frame shows that the frame is survived, if
something follows. -/
theorem survived_of_turn {s s' : σ} {frame : ConnectionFrame} {rest : List UInt8} {outs out : List Output}
    (hrest : rest ≠ [])
    (h : turn w ⟨frame.bytes ++ rest, false, s, outs⟩ = ⟨rest, false, s', out⟩) :
  frame.Survived w s
  := by
  cases frame with
  | line text =>
      have hfits : text.1.length ≤ StreamReader.limit := by
        by_contra hlong
        have hclosed := turn_of_long w (Nat.lt_of_not_le hlong) rest s outs
        rw [ConnectionFrame.bytes, List.append_assoc, List.singleton_append] at h
        rw [h] at hclosed
        cases hclosed
      use hfits
      rw [turn_of_frameLine w hfits] at h
      rw [ConnectionFrame.content, ConnectionFrame.Harmless]
      cases hloads : w.loads (text.1 ++ [10]) with
      | decodeError =>
          right
          trivial
      | raised =>
          rw [hloads] at h
          cases h
      | value raw =>
          rw [hloads] at h
          have hsettled : settled ((handleValue w raw).run.execute (answer w) ⟨rest, false, s, outs⟩)
              = ⟨rest, false, s', out⟩ := h
          exact @survived_of_settled σ w raw ⟨rest, false, s, outs⟩ hrest (by rw [hsettled])
            (by rw [hsettled])
  | chunk op header data =>
      have hfits : op.1.length ≤ StreamReader.limit := by
        by_contra hlong
        have hclosed := turn_of_long w (Nat.lt_of_not_le hlong) (header.1 ++ 10 :: (data ++ rest)) s outs
        rw [ConnectionFrame.bytes, List.append_assoc, List.cons_append, List.append_assoc,
          List.cons_append] at h
        rw [h] at hclosed
        cases hclosed
      have hne := ne_of_header header.1 data rest
      rw [turn_of_frameChunk w hfits] at h
      cases hloads : w.loads (op.1 ++ [10]) with
      | decodeError =>
          rw [hloads] at h
          apply absurd (congrArg unread h) hne
      | raised =>
          rw [hloads] at h
          have hclosed := congrArg closed h
          cases hclosed
      | value raw =>
          rw [hloads] at h
          by_cases hupload : raw.hasText "type" "request" = true ∨ raw.hasText "op" "upload_chunk" = false
          · have hunread := congrArg unread h
            rw [unread_settled, unread_execute w (awaits_handleValue w hupload)] at hunread
            apply absurd hunread hne
          · obtain ⟨hrequest, hupload⟩ := not_or.mp hupload
            have hrequest : raw.hasText "type" "request" = false := by simpa using hrequest
            have hupload : raw.hasText "op" "upload_chunk" = true := by simpa using hupload
            dsimp only at h
            rw [execute_handleValue_of_upload w hrequest hupload] at h
            obtain ⟨hheader, value, content, hvalue, hcontent, hseek⟩ :=
              content_of_upload w header data rest hrequest hupload rfl (congrArg closed h)
                (congrArg unread h)
            use ⟨hfits, hheader⟩
            left
            use content
            rw [ConnectionFrame.content, hloads, hvalue]
            exact ⟨hcontent, hseek⟩

/-! ### Runs -/

/-- Frames that are all survived are read and answered one by one. -/
theorem turns_of_allSurvived {s : σ} {frames : List ConnectionFrame} (h : AllSurvived w s frames)
    {sent later : List ConnectionFrame} (hframes : frames = sent ++ later) (rest : List UInt8)
    (outs : List Output) :
  ∃ out s', (turn w)^[sent.length] ⟨ConnectionFrame.allBytes frames ++ rest, false, s, outs⟩
      = ⟨ConnectionFrame.allBytes later ++ rest, false, s', outs ++ out⟩
    ∧ FramesAnswered w s sent out s'
  := by
  induction sent generalizing s frames outs with
  | nil =>
      subst hframes
      use [], s
      rw [List.append_nil]
      exact ⟨rfl, .nil s⟩
  | cons frame sent ih =>
      subst hframes
      obtain ⟨hframe, htail⟩ := h
      obtain ⟨out, s₁, hanswered, hturn⟩ := turn_of_survived w hframe
      have hworld : (turn w (accepted frame.bytes s)).world = s₁ := by
        have hnil := hturn [] []
        rw [List.append_nil] at hnil
        rw [accepted, hnil]
      rw [hworld] at htail
      obtain ⟨out', s₂, hturns, hall⟩ := ih htail rfl (outs ++ out)
      use out ++ out', s₂
      constructor
      · rw [List.length_cons, Function.iterate_succ_apply, List.cons_append, ConnectionFrame.allBytes,
          List.flatMap_cons, List.append_assoc, hturn]
        rw [List.append_assoc] at hturns
        exact hturns
      · apply FramesAnswered.cons hanswered hall

/-- A connection that is in place after each of some frames survives them. -/
theorem allSurvived_of_turns {s : σ} {frames : List ConnectionFrame} {outs : List Output}
    (h : ∀ sent later rest, frames = sent ++ later →
      ∃ out s', (turn w)^[sent.length] ⟨ConnectionFrame.allBytes frames ++ rest, false, s, outs⟩
        = ⟨ConnectionFrame.allBytes later ++ rest, false, s', out⟩) :
  AllSurvived w s frames
  := by
  induction frames generalizing s outs with
  | nil => trivial
  | cons frame frames ih =>
      have hframe : frame.Survived w s := by
        obtain ⟨out, s', hturn⟩ := h [frame] frames [10] rfl
        rw [ConnectionFrame.allBytes, List.flatMap_cons, List.append_assoc] at hturn
        exact survived_of_turn w (by simp) hturn
      use hframe
      obtain ⟨out, s₁, -, hturn⟩ := turn_of_survived w hframe
      have hworld : (turn w (accepted frame.bytes s)).world = s₁ := by
        have hnil := hturn [] []
        rw [List.append_nil] at hnil
        rw [accepted, hnil]
      rw [hworld]
      apply @ih s₁ (outs ++ out)
      intro sent later rest hframes
      obtain ⟨out', s', hturns⟩ := h (frame :: sent) later rest (by rw [hframes, List.cons_append])
      rw [List.length_cons, Function.iterate_succ_apply, ConnectionFrame.allBytes, List.flatMap_cons,
        List.append_assoc, hturn] at hturns
      exact ⟨out', s', hturns⟩

end Connection

/-- A connection keeps to the frames exactly when each frame is survived in the state in which it is
read. -/
theorem keepsToFrames_iff {σ : Type} (w : WorkerContext σ) (s : σ) (frames : List ConnectionFrame) :
  KeepsToFrames w s frames ↔ AllSurvived w s frames
  := by
  constructor
  · intro h
    apply @Connection.allSurvived_of_turns _ _ _ _ []
    intro sent later rest hframes
    obtain ⟨out, s', hturns, -⟩ := h sent later rest hframes
    exact ⟨out, s', hturns⟩
  · intro h sent later rest hframes
    obtain ⟨out, s', hturns, hanswered⟩ := Connection.turns_of_allSurvived w h hframes rest []
    exact ⟨out, s', hturns, hanswered⟩

/-! ### An empty list -/

/-- `json.loads` of a line in UTF-8; numbers and nesting have no limits here. -/
def Json.loads (line : List UInt8) : Loaded :=
  match String.fromUTF8? ⟨line.toArray⟩ with
  | none => .raised
  | some text =>
      match Json.read text.toList with
      | some j => .value j
      | none => .decodeError

/-- A worker without methods and files. -/
def WorkerContext.bare : WorkerContext Unit where
  loads := Json.loads
  py := ⟨fun _ => "", fun _ => false, fun _ => none⟩
  registry _ := none
  handlers _ := none
  file s call :=
    match call with
    | .getUpload _ => (none, s)
    | .openPart _ => (.error "No such file or directory", s)
    | .writePart _ _ _ => (.error "No such file or directory", s)
    | .getsize _ => (.error "No such file or directory", s)
    | .openRead _ => (.error "No such file or directory", s)
    | .seek _ _ => (.error "No such file or directory", s)
    | .read _ _ => (.error "No such file or directory", s)

/-- The line `[]`. -/
def emptyListLine : FrameLine :=
  ⟨[91, 93], by decide⟩

/-- The line of a request for a method that is not registered. -/
def requestLine : FrameLine :=
  ⟨(Json.print Json.compact (.obj [("type", .str "request"), ("id", .str "1"),
      ("method", .str "jobs.list")])).map fun c => UInt8.ofNat c.toNat,
    by decide +kernel⟩

/-- After the line `[]` the connection is closed, and the request that follows is not answered. -/
theorem not_keepsToFrames :
  (ConnectionFrame.content WorkerContext.bare (.line requestLine)).isSome = true
    ∧ ¬ KeepsToFrames WorkerContext.bare () [.line emptyListLine, .line requestLine]
  := by
  constructor
  · rfl
  · intro h
    obtain ⟨out, s', hturn, -⟩ := h [.line emptyListLine] [.line requestLine] [] rfl
    have hclosed : (true : Bool) = false := congrArg Connection.closed hturn
    cases hclosed
