import NasOs.Uploads.Parts

/-!
# An upload that is resumed

A client uploads some bytes by PATCH requests, one after the other, each of which starts at the offset
that a HEAD reports and delivers a part of the bytes that remain, in pieces; it may be cut off after any
piece.  The system does all that it is asked.

What a PATCH delivers is appended to the part file, except for the end of it that fills no buffer when it is
cut off.  So a PATCH that is cut off once it has delivered all remaining bytes, where these fill
their buffers, leaves all bytes in the part file and does not publish them; every other PATCH leaves
bytes to send or publishes the upload.
-/

/-- What a PATCH delivers: the pieces of its body, after which it may be cut off. -/
structure Delivery where
  pieces : List (List UInt8)
  cut : Bool

/-- What the next piece raises when the client is gone. -/
def clientDisconnect : Exc :=
  .other "ClientDisconnect"

/-- The answers to the operations of a PATCH of which a number of pieces have not arrived yet. -/
def UploadWorld.answerDelivery {uploadId : String} (cut : Bool) (state : UploadWorld uploadId × ℕ) :
    (op : PatchOp) → op.Answer × UploadWorld uploadId × ℕ
  | .receive =>
      if state.2 = 0 then (if cut then .error clientDisconnect else .ok (), state)
      else (.ok (), (state.1, state.2 - 1))
  | op => ((state.1.answer op .well).1, ((state.1.answer op .well).2, state.2))

section

variable {id : UuidHex} {world : UploadWorld id.text} {upload : Upload} {handle : UploadHandle}
  {content : List UInt8} {cut : Bool} {n : ℕ}

/-- An upload is under way: it has a row and its part file is in place. -/
structure Uploading (world : UploadWorld id.text) (upload : Upload) (handle : UploadHandle)
    (content : List UInt8) : Prop where
  row : world.row = some upload
  placed : Placed world.worker id.text handle content

theorem Uploading.id_eq (h : Uploading world upload handle content) :
  upload.id = id.text
  := world.row_id upload h.row

/-- All goes well with a chunk at the end of the part file. -/
theorem Uploading.answer_writeChunk (h : Uploading world upload handle content) (data : List UInt8) :
  ∃ world', world.answer (.writeChunk upload.id content.length data) .well
      = (.ok ((content ++ data).length : ℤ), world')
    ∧ Uploading world' upload handle (content ++ data)
  := by
  have hchunk := @Placed.uploadChunk world.worker id.text handle content (fun _ => none) h.placed data
  obtain ⟨written, -, hplaced, ⟨e, op, -, hrefused⟩ | ⟨rfl, hok⟩⟩ := hchunk
  · apply absurd rfl hrefused
  · rw [h.id_eq]
    use { world with worker := ((Fileworker.uploadChunk id.text content.length written).run.execute
      (Worker.answer fun _ => none) world.worker).2 }
    constructor
    · rw [← hok]
      rfl
    · exact ⟨h.row, hplaced⟩

/-- A chunk at the end of the part file is appended to it. -/
theorem Uploading.writeChunk (h : Uploading world upload handle content) (data : List UInt8) :
  (UploadsService.writeChunk upload content.length data).run.Ensures
    (UploadWorld.answerDelivery cut) (fun _ _ => True)
    (fun r s => r = .ok ((content ++ data).length : ℤ) ∧ s.2 = n
      ∧ Uploading s.1 upload handle (content ++ data))
    (world, n)
  := by
  obtain ⟨world', hanswer, hworld'⟩ := h.answer_writeChunk data
  apply Coroutine.Ensures.exceptT_bind
    (Q := fun r s => r = .ok ((content ++ data).length : ℤ) ∧ s = (world', n))
  · apply Coroutine.Ensures.tryCatch
      (Q := fun r s => r = .ok ((content ++ data).length : ℤ) ∧ s = (world', n))
    · intro _
      change (world.answer (.writeChunk upload.id content.length data) .well).1 = _
        ∧ ((world.answer (.writeChunk upload.id content.length data) .well).2, n) = _
      rw [hanswer]
      exact ⟨rfl, rfl⟩
    · intro offset s h
      apply h
    · rintro e s ⟨⟨⟩, -⟩
  · rintro offset s ⟨⟨⟩, rfl⟩
    intro _
    exact ⟨rfl, rfl, hworld'⟩
  · rintro e s ⟨⟨⟩, -⟩

/-- Of the bytes received a part was flushed that fills its buffers, and the rest fills none. -/
structure Flushes (received flushed rest : List UInt8) : Prop where
  eq : flushed ++ rest = received
  full : patchBufferSize ∣ flushed.length
  short : rest.length < patchBufferSize

/-- What fills no buffer stays in the buffer. -/
theorem Flushes.of_short {received : List UInt8} (h : received.length < patchBufferSize) :
  Flushes received [] received
  := ⟨rfl, dvd_zero _, h⟩

/-- More bytes are flushed together with the rest of those before. -/
theorem Flushes.append {received flushed rest more flushed' rest' : List UInt8}
    (h : Flushes received flushed rest) (h' : Flushes (rest ++ more) flushed' rest') :
  Flushes (received ++ more) (flushed ++ flushed') rest'
  := by
  constructor
  · rw [List.append_assoc, h'.eq, ← List.append_assoc, h.eq]
  · rw [List.length_append]
    apply Nat.dvd_add h.full h'.full
  · apply h'.short

/-- A buffer that is full is flushed first. -/
theorem Flushes.of_full {received flushed rest : List UInt8} (hfull : patchBufferSize ≤ received.length)
    (h : Flushes (received.drop patchBufferSize) flushed rest) :
  Flushes received (received.take patchBufferSize ++ flushed) rest
  := by
  constructor
  · rw [List.append_assoc, h.eq, List.take_append_drop]
  · rw [List.length_append, List.length_take_of_le hfull]
    apply Nat.dvd_add (dvd_refl _) h.full
  · apply h.short

/-- The full chunks of the buffer are appended to the part file. -/
theorem Uploading.writeFull (h : Uploading world upload handle content) {rounds : ℕ}
    {buf : List UInt8} (hrounds : buf.length ≤ rounds) :
  (UploadsApi.writeFull upload rounds content.length buf).run.Ensures
    (UploadWorld.answerDelivery cut) (fun _ _ => True)
    (fun r s => ∃ flushed rest, Flushes buf flushed rest
      ∧ r = .ok (((content ++ flushed).length : ℤ), rest) ∧ s.2 = n
      ∧ Uploading s.1 upload handle (content ++ flushed))
    (world, n)
  := by
  have hpos : 0 < patchBufferSize := by
    rw [patchBufferSize]
    omega
  induction rounds generalizing world content buf with
  | zero =>
      use [], buf
      refine ⟨Flushes.of_short (by omega), ?_, rfl, ?_⟩
      · rw [List.append_nil]
      · rw [List.append_nil]
        apply h
  | succ rounds ih =>
      rw [UploadsApi.writeFull]
      split
      · rename_i hfull
        apply (h.writeChunk (n := n) (buf.take patchBufferSize)).exceptT_bind
        · rintro offset ⟨world', n'⟩ ⟨⟨⟩, rfl, hworld'⟩
          have hshorter : (buf.drop patchBufferSize).length ≤ rounds := by
            rw [List.length_drop]
            omega
          apply (ih hworld' hshorter).mono
          rintro r s ⟨flushed, rest, hflushes, hr, hn, hs⟩
          use buf.take patchBufferSize ++ flushed, rest, hflushes.of_full hfull
          rw [← List.append_assoc]
          exact ⟨hr, hn, hs⟩
        · rintro e s ⟨⟨⟩, -⟩
      · rename_i hshort
        use [], buf
        refine ⟨Flushes.of_short (by omega), ?_, rfl, ?_⟩
        · rw [List.append_nil]
        · rw [List.append_nil]
          apply h

/-- What arrives is appended to the part file as far as it fills buffers. -/
theorem Uploading.receiveAll (h : Uploading world upload handle content) {pieces : List (List UInt8)}
    {buf : List UInt8} (hbuf : buf.length < patchBufferSize) :
  (UploadsApi.receiveAll upload pieces content.length buf).run.Ensures
    (UploadWorld.answerDelivery cut) (fun _ _ => True)
    (fun r s => ∃ flushed rest, Flushes (buf ++ pieces.flatten) flushed rest
      ∧ r = (if cut then .error clientDisconnect else .ok (((content ++ flushed).length : ℤ), rest))
      ∧ Uploading s.1 upload handle (content ++ flushed))
    (world, pieces.length)
  := by
  induction pieces generalizing world content buf with
  | nil =>
      intro _
      have hflushes : Flushes (buf ++ [].flatten) [] buf := by
        rw [List.flatten_nil, List.append_nil]
        apply Flushes.of_short hbuf
      have hrest : Uploading world upload handle (content ++ []) := by
        rw [List.append_nil]
        apply h
      cases cut with
      | true => exact ⟨[], buf, hflushes, rfl, hrest⟩
      | false =>
          refine ⟨[], buf, hflushes, ?_, hrest⟩
          rw [List.append_nil]
          rfl
  | cons piece pieces ih =>
      intro _
      apply (h.writeFull (le_refl (buf ++ piece).length)).exceptT_bind
      · rintro ⟨offset, rest⟩ ⟨world', n'⟩ ⟨flushed, rest', hflushes, ⟨⟩, rfl, hworld'⟩
        apply (ih hworld' hflushes.short).mono
        rintro r s ⟨flushed', rest'', hflushes', hr, hs⟩
        use flushed ++ flushed', rest''
        rw [List.flatten_cons, ← List.append_assoc, ← List.append_assoc]
        exact ⟨hflushes.append hflushes', hr, hs⟩
      · rintro e s ⟨flushed, rest, -, ⟨⟩, -⟩

/-- The last chunk, which may be short, is appended to the part file. -/
theorem Uploading.writeRest (h : Uploading world upload handle content) (buf : List UInt8) :
  (if buf = [] then pure (content.length : ℤ)
      else UploadsService.writeChunk upload content.length buf : PatchM ℤ).run.Ensures
    (UploadWorld.answerDelivery cut) (fun _ _ => True)
    (fun r s => r = .ok ((content ++ buf).length : ℤ) ∧ s.2 = n
      ∧ Uploading s.1 upload handle (content ++ buf))
    (world, n)
  := by
  split
  · rename_i hempty
    rw [hempty, List.append_nil]
    exact ⟨rfl, rfl, h⟩
  · apply h.writeChunk

/-- The completion of an upload publishes it and deletes its row. -/
theorem Uploading.completeUpload (h : Uploading world upload handle content) :
  (UploadsService.completeUpload upload).run.Ensures (UploadWorld.answerDelivery cut)
    (fun _ _ => True)
    (fun r s => r = .ok () ∧ Published s.1.worker id.text handle content ∧ s.1.row = none)
    (world, n)
  := by
  have hcomplete := @Placed.complete world.worker id.text handle content (fun _ => none) h.placed
  obtain ⟨⟨e, op, -, hrefused⟩, -⟩ | ⟨hok, hpublished⟩ := hcomplete
  · apply absurd rfl hrefused
  · have hcall := @AgentClient.execute_call _ _ _ _ (fun _ => none) UploadsHandlers.complete id.text _
      (Worker.answer fun _ => none) rfl world.worker
    have hanswer : world.answer (.uploadComplete upload.id) .well
        = (.ok (), { world with worker := ((UploadsHandlers.complete id.text).run.execute
            (Worker.answer fun _ => none) world.worker).2 }) := by
      rw [h.id_eq]
      change (((AgentClient.call (fun _ => none) UploadsHandlers.complete id.text).run.execute
          (Worker.answer fun _ => none) world.worker).1,
        { world with worker := ((AgentClient.call (fun _ => none) UploadsHandlers.complete
            id.text).run.execute (Worker.answer fun _ => none) world.worker).2 }) = _
      rw [hcall, hok]
      rfl
    apply Coroutine.Ensures.exceptT_bind
      (Q := fun r s => r = .ok () ∧ Published s.1.worker id.text handle content)
    · apply Coroutine.Ensures.tryCatch
        (Q := fun r s => r = .ok () ∧ Published s.1.worker id.text handle content)
      · intro _
        change (world.answer (.uploadComplete upload.id) .well).1 = _
          ∧ Published (world.answer (.uploadComplete upload.id) .well).2.worker _ _ _
        rw [hanswer]
        exact ⟨rfl, hpublished⟩
      · intro _ s hs
        apply hs
      · rintro e s ⟨⟨⟩, -⟩
    · rintro _ s ⟨-, hs⟩
      intro _
      exact ⟨rfl, hs, rfl⟩
    · rintro e s ⟨⟨⟩, -⟩

/-- What a PATCH that delivered a body leaves: when it was cut off, the bytes that were flushed are
appended; otherwise all are, and the upload is published once it has its length. -/
inductive Patched (upload : Upload) (handle : UploadHandle) (content body : List UInt8) :
    Bool → UploadWorld id.text → Prop where
  | cut (world : UploadWorld id.text) (flushed rest : List UInt8) (flushes : Flushes body flushed rest)
      (uploading : Uploading world upload handle (content ++ flushed)) :
      Patched upload handle content body true world
  | appended (world : UploadWorld id.text)
      (short : ((content ++ body).length : ℤ) < upload.size)
      (uploading : Uploading world upload handle (content ++ body)) :
      Patched upload handle content body false world
  | published (world : UploadWorld id.text)
      (long : upload.size ≤ ((content ++ body).length : ℤ))
      (published : Published world.worker id.text handle (content ++ body))
      (row : world.row = none) : Patched upload handle content body false world

/-- What a PATCH does with its body. -/
theorem Uploading.writeBody (h : Uploading world upload handle content) (pieces : List (List UInt8)) :
  (UploadsApi.writeBody upload pieces content.length).run.Ensures (UploadWorld.answerDelivery cut)
    (fun _ _ => True) (fun _ s => Patched upload handle content pieces.flatten cut s.1)
    (world, pieces.length)
  := by
  have hpos : ([] : List UInt8).length < patchBufferSize := by
    rw [patchBufferSize, List.length_nil]
    omega
  apply (h.receiveAll hpos).exceptT_bind
  · rintro ⟨offset, rest⟩ ⟨world', n'⟩ ⟨flushed, rest', hflushes, hr, hworld'⟩
    cases cut with
    | true => cases hr
    | false =>
        cases hr
        have hall : content ++ flushed ++ rest = content ++ pieces.flatten := by
          rw [List.append_assoc, hflushes.eq, List.nil_append]
        apply (hworld'.writeRest (n := n') rest).exceptT_bind
        · rintro lastOffset ⟨world'', n''⟩ ⟨⟨⟩, -, hworld''⟩
          rw [hall] at hworld''
          simp only [hall]
          by_cases hlong : upload.size ≤ ((content ++ pieces.flatten).length : ℤ)
          · rw [if_pos hlong]
            apply (hworld''.completeUpload (n := n'')).exceptT_bind
            · rintro _ s ⟨-, hpublished, hrow⟩
              apply Patched.published s.1 hlong hpublished hrow
            · rintro e s ⟨⟨⟩, -⟩
          · rw [if_neg hlong]
            apply Patched.appended world'' (by omega) hworld''
        · rintro e s ⟨⟨⟩, -⟩
  · rintro e ⟨world', n'⟩ ⟨flushed, rest, hflushes, hr, hworld'⟩
    cases cut with
    | true => apply Patched.cut world' flushed rest hflushes hworld'
    | false => cases hr

/-- The request of a PATCH that starts at an offset. -/
def Delivery.request (d : Delivery) (uid : ℕ) (offset : String) : PatchRequest :=
  { uid := uid
    contentType := some "application/offset+octet-stream"
    uploadOffset := some offset
    pieces := d.pieces }

/-- The number of a header is read back. -/
theorem Delivery.offset_request (d : Delivery) (uid n : ℕ) :
  (d.request uid (toString n)).offset = some (n : ℤ)
  := by
  rw [PatchRequest.offset, Delivery.request, Option.bind_some, Text.int_toString]

/-- The worker is asked for the size of the part file. -/
theorem Uploading.currentOffset (h : Uploading world upload handle content) :
  (UploadsService.currentOffset id.text).run.Ensures (UploadWorld.answerDelivery cut)
    (fun _ _ => True) (fun r s => r = .ok content.length ∧ s = (world, n)) (world, n)
  := by
  have hcall := @AgentClient.execute_call _ _ _ _ (fun _ => none) UploadsHandlers.offset id.text _
    (Worker.answer fun _ => none) rfl world.worker
  have hanswer : world.answer (.uploadOffset id.text) .well = (.ok content.length, world) := by
    change (((AgentClient.call (fun _ => none) UploadsHandlers.offset id.text).run.execute
        (Worker.answer fun _ => none) world.worker).1,
      { world with worker := ((AgentClient.call (fun _ => none) UploadsHandlers.offset
          id.text).run.execute (Worker.answer fun _ => none) world.worker).2 }) = _
    rw [hcall, h.placed.offset]
    rfl
  intro _
  change Coroutine.Ensures _ _ _
    (Coroutine.bind (.done (world.answer (.uploadOffset id.text) .well).1) _)
    ((world.answer (.uploadOffset id.text) .well).2, n)
  rw [hanswer]
  exact ⟨rfl, rfl⟩

/-- What a PATCH does that starts at the size of the part file. -/
theorem Uploading.patchUpload (h : Uploading world upload handle content) (d : Delivery) :
  (UploadsApi.patchUpload id.text (d.request upload.uid (toString content.length))).run.Ensures
    (UploadWorld.answerDelivery d.cut) (fun _ _ => True)
    (fun _ s => Patched upload handle content d.pieces.flatten d.cut s.1) (world, d.pieces.length)
  := by
  have hanswer : world.answer (.getUpload id.text) .well = (.ok (some upload), world) := by
    change (Except.ok (if id.text = id.text then world.row else none), world) = _
    rw [if_pos rfl, h.row]
  intro _
  change Coroutine.Ensures _ _ _ (Coroutine.bind (.done (world.answer (.getUpload id.text) .well).1) _)
    ((world.answer (.getUpload id.text) .well).2, d.pieces.length)
  rw [hanswer]
  change (Async.raiseIf _ _ >>= _ : PatchM Response).run.Ensures _ _ _ _
  rw [Async.raiseIf_bind_of_not (by simp [Delivery.request]),
    Async.raiseIf_bind_of_not (by simp [Delivery.request]),
    Async.raiseIf_bind_of_not (by simp [Delivery.request]), d.offset_request]
  apply (h.currentOffset (n := d.pieces.length)).exceptT_bind
  · rintro offset s ⟨⟨⟩, rfl⟩
    rw [if_neg (not_not.mpr rfl)]
    apply Coroutine.Ensures.exceptT_bind
      (Q := fun _ s => Patched upload handle content d.pieces.flatten d.cut s.1)
    · apply (h.writeBody d.pieces).tryCatch
      · intro offset s hs
        apply hs
      · intro e s hs
        cases e
        all_goals apply hs
    · intro offset s hs
      apply hs
    · intro e s hs
      apply hs
  · rintro e s ⟨⟨⟩, -⟩

/-- What a HEAD answers while the upload is under way. -/
theorem Uploading.headUpload (h : Uploading world upload handle content) :
  (UploadsApi.headUpload id.text upload.uid).run.Ensures (UploadWorld.answerDelivery cut)
    (fun _ _ => True)
    (fun r _ => r = .ok ⟨200, tusHeaders [("Upload-Offset", toString content.length),
      ("Upload-Length", toString upload.size), ("Cache-Control", "no-store")]⟩)
    (world, n)
  := by
  have hanswer : world.answer (.getUpload id.text) .well = (.ok (some upload), world) := by
    change (Except.ok (if id.text = id.text then world.row else none), world) = _
    rw [if_pos rfl, h.row]
  intro _
  change Coroutine.Ensures _ _ _ (Coroutine.bind (.done (world.answer (.getUpload id.text) .well).1) _)
    ((world.answer (.getUpload id.text) .well).2, n)
  rw [hanswer]
  change (Async.raiseIf _ _ >>= _ : PatchM Response).run.Ensures _ _ _ _
  rw [Async.raiseIf_bind_of_not (by simp)]
  apply (h.currentOffset (n := n)).exceptT_bind
  · rintro offset s ⟨⟨⟩, -⟩
    rfl
  · rintro e s ⟨⟨⟩, -⟩

end

/-! ### The client -/

/-- The offset that a HEAD reports, if it is answered. -/
def UploadWorld.reported {uploadId : String} (world : UploadWorld uploadId) (uid : ℕ) :
    Option String :=
  match ((UploadsApi.headUpload uploadId uid).run.execute (UploadWorld.answerDelivery false)
    (world, 0)).1 with
  | .ok response => response.headers.lookup "Upload-Offset"
  | .error _ => none

/-- What a PATCH leaves that starts at an offset. -/
def UploadWorld.delivered {uploadId : String} (world : UploadWorld uploadId) (uid : ℕ)
    (offset : String) (d : Delivery) : UploadWorld uploadId :=
  ((UploadsApi.patchUpload uploadId (d.request uid offset)).run.execute
    (UploadWorld.answerDelivery d.cut) (world, d.pieces.length)).2.1

/-- The machine of a client that uploads some bytes: each PATCH starts where a HEAD says and delivers a
part of the bytes that remain. -/
def resumeMachine (uploadId : String) (uid : ℕ) (bytes : List UInt8) :
    Machine (UploadWorld uploadId) Delivery where
  step world d := do
    let offset ← world.reported uid
    let start ← Text.int offset.toList
    if d.pieces.flatten <+: bytes.drop start.toNat then some (world.delivered uid offset d) else none

/-- What should be so after every PATCH: the part file has a part of the bytes, whose length a HEAD
reports, or all bytes are at the destination and the part file is gone. -/
inductive Delivered {uploadId : String} (bytes : List UInt8) (uid : ℕ) (handle : UploadHandle)
    (world : UploadWorld uploadId) : Prop where
  | pending (node : FileNode) (isFile : world.worker.files handle.partPath = some node)
      (isPrefix : node.content <+: bytes) (remains : node.content ≠ bytes)
      (reported : world.reported uid = some (toString node.content.length))
  | complete (node : FileNode) (isFile : world.worker.files handle.destPath = some node)
      (content_eq : node.content = bytes) (gone : world.worker.files handle.partPath = none)

/-- A PATCH is cut off once it has delivered all bytes that remain, and these fill their buffers. -/
def CutWhenFull {uploadId : String} (bytes : List UInt8) (handle : UploadHandle)
    (world : UploadWorld uploadId) (d : Delivery) : Prop :=
  d.cut = true ∧ world.worker.partSize handle + d.pieces.flatten.length = bytes.length
    ∧ patchBufferSize ∣ d.pieces.flatten.length

instance {uploadId : String} (bytes : List UInt8) (handle : UploadHandle)
    (world : UploadWorld uploadId) (d : Delivery) : Decidable (CutWhenFull bytes handle world d) :=
  inferInstanceAs (Decidable (_ ∧ _ ∧ _))

section

variable {id : UuidHex} {world world' : UploadWorld id.text} {upload : Upload} {handle : UploadHandle}
  {content bytes : List UInt8} {d : Delivery}

/-- A HEAD reports the size of the part file. -/
theorem Uploading.reported (h : Uploading world upload handle content) :
  world.reported upload.uid = some (toString content.length)
  := by
  have hensures : (UploadsApi.headUpload id.text upload.uid).run.Ensures
      (UploadWorld.answerDelivery false) (fun _ _ => True)
      (fun r _ => r = .ok ⟨200, tusHeaders [("Upload-Offset", toString content.length),
        ("Upload-Length", toString upload.size), ("Cache-Control", "no-store")]⟩)
      (world, 0) := h.headUpload
  have hhead := hensures.execute (Coroutine.executesAlong_true _ _)
  rw [UploadWorld.reported, hhead]
  rfl

theorem Uploading.partSize (h : Uploading world upload handle content) :
  world.worker.partSize handle = content.length
  := by
  obtain ⟨node, hnode, -, rfl⟩ := h.placed.isFile
  rw [Worker.partSize, hnode]

/-- A PATCH that delivers a part of the bytes that remain is a step of the client. -/
theorem Uploading.step_eq (h : Uploading world upload handle content)
    (hbody : d.pieces.flatten <+: bytes.drop content.length) :
  (resumeMachine id.text upload.uid bytes).step world d
    = some (world.delivered upload.uid (toString content.length) d)
  := by
  simp only [resumeMachine, h.reported, Option.bind_eq_bind, Option.bind_some, Text.int_toString,
    Int.toNat_natCast]
  rw [if_pos hbody]

/-- What a step of the client does. -/
theorem Uploading.step (h : Uploading world upload handle content)
    (hstep : (resumeMachine id.text upload.uid bytes).step world d = some world') :
  d.pieces.flatten <+: bytes.drop content.length
    ∧ Patched upload handle content d.pieces.flatten d.cut world'
  := by
  have hpatch := (h.patchUpload d).execute (Coroutine.executesAlong_true _ _)
  simp only [resumeMachine, h.reported, Option.bind_eq_bind, Option.bind_some, Text.int_toString,
    Int.toNat_natCast] at hstep
  split at hstep
  · rename_i hinitial
    cases hstep
    exact ⟨hinitial, hpatch⟩
  · cases hstep

/-- Bytes that remain make up all of them with those before when there are as many. -/
theorem append_eq_of_prefix {body : List UInt8} (hcontent : content <+: bytes)
    (hbody : body <+: bytes.drop content.length) :
  content ++ body <+: bytes ∧ (content ++ body = bytes ↔ content.length + body.length = bytes.length)
  := by
  have hinitial : content ++ body <+: bytes := by
    obtain ⟨rest, rfl⟩ := hcontent
    rw [List.drop_left] at hbody
    rw [List.prefix_append_right_inj]
    apply hbody
  use hinitial
  rw [← List.length_append]
  constructor
  · rintro rfl
    rfl
  · apply hinitial.eq_of_length

/-- While the upload is under way with bytes to come, all is as it should be. -/
theorem Uploading.delivered (h : Uploading world upload handle content) (hinitial : content <+: bytes)
    (hne : content ≠ bytes) :
  Delivered bytes upload.uid handle world
  := by
  obtain ⟨node, hnode, -, rfl⟩ := h.placed.isFile
  apply Delivered.pending node hnode hinitial hne h.reported

/-- When the part file has all the bytes, all is not as it should be. -/
theorem Uploading.not_delivered (h : Uploading world upload handle bytes) :
  ¬ Delivered bytes upload.uid handle world
  := by
  obtain ⟨node, hnode, -, hcontent⟩ := h.placed.isFile
  rintro (⟨node', hnode', -, hne, -⟩ | ⟨node', -, -, hgone⟩)
  · cases hnode.symm.trans hnode'
    apply hne hcontent
  · cases hnode.symm.trans hgone

/-- A PATCH that is cut off leaves all bytes in the part file exactly when they had all arrived and
filled their buffers. -/
theorem Flushes.complete_iff {body flushed rest : List UInt8} (h : Flushes body flushed rest)
    (hcontent : content <+: bytes) (hbody : body <+: bytes.drop content.length) :
  content ++ flushed <+: bytes ∧ (content ++ flushed = bytes
    ↔ content.length + body.length = bytes.length ∧ patchBufferSize ∣ body.length)
  := by
  obtain ⟨hinitial, hall⟩ := append_eq_of_prefix hcontent hbody
  have hflushed : flushed <+: bytes.drop content.length := by
    apply List.IsPrefix.trans _ hbody
    rw [← h.eq]
    apply List.prefix_append
  obtain ⟨hinitial', hall'⟩ := append_eq_of_prefix hcontent hflushed
  have hlength : flushed.length + rest.length = body.length := by
    rw [← h.eq, List.length_append]
  have hle := hinitial.length_le
  rw [List.length_append] at hle
  use hinitial'
  rw [hall']
  constructor
  · intro hfull
    have hrest : rest.length = 0 := by omega
    rw [hrest, Nat.add_zero] at hlength
    rw [← hlength]
    exact ⟨hfull, h.full⟩
  · rintro ⟨hfull, hdvd⟩
    rw [← hlength, Nat.dvd_add_right h.full] at hdvd
    have hrest := Nat.eq_zero_of_dvd_of_lt hdvd h.short
    omega

/-- After a PATCH all is as it should be, unless it was cut off when it was full; then there are bytes to
come, or the row is gone. -/
theorem Uploading.step_delivered (h : Uploading world upload handle content)
    (hsize : upload.size = bytes.length) (hname : handle.destPath ≠ handle.partPath)
    (hcontent : content <+: bytes)
    (hstep : (resumeMachine id.text upload.uid bytes).step world d = some world') :
  CutWhenFull bytes handle world d ∧ ¬ Delivered bytes upload.uid handle world'
    ∨ ¬ CutWhenFull bytes handle world d ∧ Delivered bytes upload.uid handle world'
      ∧ ((∃ content', Uploading world' upload handle content' ∧ content' <+: bytes ∧ content' ≠ bytes)
        ∨ world'.row = none)
  := by
  obtain ⟨hbody, hpatched⟩ := h.step hstep
  obtain ⟨hinitial, hall⟩ := append_eq_of_prefix hcontent hbody
  rw [CutWhenFull, h.partSize]
  generalize hcut : d.cut = cut at hpatched
  cases hpatched with
  | cut _ flushed rest hflushes huploading =>
      obtain ⟨hinitial', hfull⟩ := hflushes.complete_iff hcontent hbody
      rw [← hfull]
      by_cases hbytes : content ++ flushed = bytes
      · left
        rw [hbytes] at huploading
        exact ⟨⟨rfl, hbytes⟩, huploading.not_delivered⟩
      · right
        refine ⟨fun hno => hbytes hno.2, huploading.delivered hinitial' hbytes, ?_⟩
        left
        exact ⟨_, huploading, hinitial', hbytes⟩
  | appended _ hshort huploading =>
      right
      have hne : content ++ d.pieces.flatten ≠ bytes := by
        intro hbytes
        rw [hbytes, hsize] at hshort
        apply lt_irrefl _ hshort
      refine ⟨by simp, huploading.delivered hinitial hne, ?_⟩
      left
      exact ⟨_, huploading, hinitial, hne⟩
  | published _ hlong hpublished hrow =>
      right
      have hbytes : content ++ d.pieces.flatten = bytes := by
        rw [hsize] at hlong
        apply hinitial.eq_of_length_le
        exact_mod_cast hlong
      obtain ⟨node, hnode, hnodeBytes⟩ := hpublished.isFile
      refine ⟨by simp, ?_, Or.inr hrow⟩
      apply Delivered.complete node hnode
      · rw [hnodeBytes, hbytes]
      · apply hpublished.gone hname

/-- Nothing is reported of an upload whose row is gone. -/
theorem UploadWorld.reported_of_row_none (hrow : world.row = none) (uid : ℕ) :
  world.reported uid = none
  := by
  have hanswer : world.answer (.getUpload id.text) .well = (.ok none, world) := by
    change (Except.ok (if id.text = id.text then world.row else none), world) = _
    rw [if_pos rfl, hrow]
  have hhead : (UploadsApi.headUpload id.text uid).run.Ensures (UploadWorld.answerDelivery false)
      (fun _ _ => True) (fun r _ => ∃ e, r = .error e) (world, 0) := by
    intro _
    change Coroutine.Ensures _ _ _
      (Coroutine.bind (.done (world.answer (.getUpload id.text) .well).1) _)
      ((world.answer (.getUpload id.text) .well).2, 0)
    rw [hanswer]
    exact ⟨_, rfl⟩
  obtain ⟨e, he⟩ := hhead.execute (Coroutine.executesAlong_true _ _)
  rw [UploadWorld.reported, he]

/-- The run lemma: along a run all is as it should be exactly when no PATCH is cut off when it is
full. -/
theorem Uploading.along_iff (h : Uploading world upload handle content)
    (hsize : upload.size = bytes.length) (hname : handle.destPath ≠ handle.partPath)
    (hcontent : content <+: bytes) {ds : List Delivery}
    (hrun : (resumeMachine id.text upload.uid bytes).run world ds = some world') :
  (resumeMachine id.text upload.uid bytes).Along
      (fun world d => ∀ world', (resumeMachine id.text upload.uid bytes).step world d = some world' →
        Delivered bytes upload.uid handle world') world ds
    ↔ (resumeMachine id.text upload.uid bytes).Along
      (fun world d => ¬ CutWhenFull bytes handle world d) world ds
  := by
  induction ds generalizing world content with
  | nil => rfl
  | cons d ds ih =>
      obtain ⟨world₁, hstep, hrest⟩ := Machine.run_cons_eq_some _ |>.mp hrun
      rw [Machine.along_cons, Machine.along_cons]
      simp only [hstep, Option.some.injEq, forall_eq']
      rcases h.step_delivered hsize hname hcontent hstep
        with ⟨hcut, hnot⟩ | ⟨hcut, hdelivered, ⟨content', h', hcontent', -⟩ | hrow⟩
      · simp [hcut, hnot]
      · rw [ih h' hcontent' hrest]
        simp [hcut, hdelivered]
      · cases ds with
        | nil => simp [hcut, hdelivered]
        | cons d' ds' =>
            obtain ⟨world₂, hstep', -⟩ := Machine.run_cons_eq_some _ |>.mp hrest
            simp [resumeMachine, UploadWorld.reported_of_row_none hrow] at hstep'

end

/-- A PATCH that delivers full buffers and is cut off leaves an upload that is not as it should be. -/
theorem Uploading.not_along {id : UuidHex} {world : UploadWorld id.text} {upload : Upload}
    {handle : UploadHandle} {bytes : List UInt8} (h : Uploading world upload handle [])
    (hname : handle.destPath ≠ handle.partPath) (hsize : upload.size = bytes.length)
    (hfull : patchBufferSize ∣ bytes.length) :
  ∃ world', (resumeMachine id.text upload.uid bytes).run world [⟨[bytes], true⟩] = some world'
    ∧ ¬ (resumeMachine id.text upload.uid bytes).Along
      (fun world d => ∀ world', (resumeMachine id.text upload.uid bytes).step world d = some world' →
        Delivered bytes upload.uid handle world') world [⟨[bytes], true⟩]
  := by
  have hbody : (⟨[bytes], true⟩ : Delivery).pieces.flatten <+: bytes.drop ([] : List UInt8).length := by
    simp
  have hrun : (resumeMachine id.text upload.uid bytes).run world [⟨[bytes], true⟩]
      = some (world.delivered upload.uid (toString ([] : List UInt8).length) ⟨[bytes], true⟩) := by
    rw [Machine.run_cons, h.step_eq hbody]
    rfl
  refine ⟨_, hrun, ?_⟩
  rw [h.along_iff hsize hname List.nil_prefix hrun]
  intro halong
  apply halong.1
  refine ⟨rfl, ?_, ?_⟩
  · simp [h.partSize]
  · simpa using hfull

/-- An upload that a POST created is under way. -/
theorem uploading_of_createUpload {id : UuidHex} {world₀ world : UploadWorld id.text}
    {volumes : List (String × ℕ)} {request : PostRequest} {response : Response} {script : Script}
    (hfresh : ∀ destPath, world₀.worker.files (partPathFor destPath id.text) = none)
    (hpost : (UploadsApi.createUpload id.text request).run.execute (UploadWorld.answerTusBy volumes)
      (world₀, Script.well) = (.ok response, world, script)) :
  ∃ size handle, request.size = some size ∧ Uploading world ⟨id.text, request.uid, size⟩ handle []
  := by
  have hcreated := (ensures_createUpload hfresh request Script.well).execute
    (Coroutine.executesAlong_true (f := UploadWorld.answerTusBy volumes) _ _)
  rw [hpost] at hcreated
  obtain ⟨-, e, ⟨⟩⟩ | ⟨size, hsize, hbegun, -⟩ := hcreated
  cases hbegun with
  | created _ _ handle hplaced hrow => exact ⟨size, handle, hsize, hrow, hplaced⟩

/-- After every PATCH of an upload that is created for some bytes, the part file has a part of them whose
length a HEAD reports, or they are published, if and only if no PATCH is cut off once it has
delivered all bytes that remain and these fill their buffers. -/
theorem uploaded_iff_not_cut {id : UuidHex} {world₀ world world' : UploadWorld id.text}
    {volumes : List (String × ℕ)} {request : PostRequest} {response : Response} {script : Script}
    {handle : UploadHandle} {bytes : List UInt8} {ds : List Delivery}
    (hfresh : ∀ destPath, world₀.worker.files (partPathFor destPath id.text) = none)
    (hpost : (UploadsApi.createUpload id.text request).run.execute (UploadWorld.answerTusBy volumes)
      (world₀, Script.well) = (.ok response, world, script))
    (hsize : request.size = some (bytes.length : ℤ))
    (hhandle : world.worker.uploads id.text = some handle) (hname : handle.destPath ≠ handle.partPath)
    (hrun : (resumeMachine id.text request.uid bytes).run world ds = some world') :
  (resumeMachine id.text request.uid bytes).Along
      (fun world d => ∀ world', (resumeMachine id.text request.uid bytes).step world d = some world' →
        Delivered bytes request.uid handle world') world ds
    ↔ (resumeMachine id.text request.uid bytes).Along
      (fun world d => ¬ CutWhenFull bytes handle world d) world ds
  := by
  obtain ⟨size, handle', hsize', huploading⟩ := uploading_of_createUpload hfresh hpost
  cases hsize.symm.trans hsize'
  cases hhandle.symm.trans huploading.placed.registered
  apply huploading.along_iff rfl hname List.nil_prefix hrun

/-- A POST for the file `a` in a directory. -/
def mediaPost (length : String) : PostRequest :=
  { uid := 1001
    uploadLength := some length
    uploadMetadata := some "filename YQ==,dir L3ZvbHVtZTEvbWVkaWE=" }

/-- A worker without uploads. -/
def mediaWorld : UploadWorld mediaId.text :=
  ⟨mediaWorker, none, by simp⟩

/-- What the POST leaves. -/
def mediaPosted (length : String) : UploadWorld mediaId.text :=
  ((UploadsApi.createUpload mediaId.text (mediaPost length)).run.execute
    (UploadWorld.answerTusBy [("/volume1", 4000000)]) (mediaWorld, Script.well)).2.1

/-- The POST succeeds. -/
theorem mediaPosted_eq {length : String}
    (h : ((UploadsApi.createUpload mediaId.text (mediaPost length)).run.execute
      (UploadWorld.answerTusBy [("/volume1", 4000000)]) (mediaWorld, Script.well)).1
        = .ok ⟨201, tusHeaders [("Location", "/api/v1/uploads/" ++ mediaId.text)]⟩) :
  ∃ script, (UploadsApi.createUpload mediaId.text (mediaPost length)).run.execute
      (UploadWorld.answerTusBy [("/volume1", 4000000)]) (mediaWorld, Script.well)
    = (.ok ⟨201, tusHeaders [("Location", "/api/v1/uploads/" ++ mediaId.text)]⟩, mediaPosted length,
      script)
  := ⟨_, Prod.ext h rfl⟩

/-- The file and its part file. -/
def mediaHandle : UploadHandle :=
  ⟨"/volume1/media/a", partPathFor "/volume1/media/a" mediaId.text⟩

/-- No part file is there before. -/
theorem mediaWorld_fresh (destPath : String) :
  mediaWorld.worker.files (partPathFor destPath mediaId.text) = none
  := by
  have hne : partPathFor destPath mediaId.text ≠ "/volume1/media" := by
    intro h
    have hlast := congrArg (fun path : String => path.toList.getLast?) h
    simp only [partPathFor] at hlast
    rw [Path.getLast?_join] at hlast
    · revert hlast
      decide +kernel
    · decide +kernel
  simp only [mediaWorld, mediaWorker, if_neg hne]

/-- The upload that a POST leaves. -/
theorem mediaUploading {length : String}
    (h : ((UploadsApi.createUpload mediaId.text (mediaPost length)).run.execute
      (UploadWorld.answerTusBy [("/volume1", 4000000)]) (mediaWorld, Script.well)).1
        = .ok ⟨201, tusHeaders [("Location", "/api/v1/uploads/" ++ mediaId.text)]⟩)
    (hregistered : (mediaPosted length).worker.uploads mediaId.text = some mediaHandle)
    {size : ℤ} (hsize : (mediaPost length).size = some size) :
  Uploading (mediaPosted length) ⟨mediaId.text, 1001, size⟩ mediaHandle []
  := by
  obtain ⟨script, hpost⟩ := mediaPosted_eq h
  obtain ⟨size', handle, hsize', huploading⟩ := uploading_of_createUpload mediaWorld_fresh hpost
  cases hsize.symm.trans hsize'
  cases huploading.placed.registered.symm.trans hregistered
  apply huploading

/-- One of two bytes is delivered before the PATCH is cut off. -/
theorem uploaded_iff_not_cut_two :
  ∃ world', (resumeMachine mediaId.text 1001 [104, 105]).run (mediaPosted "2") [⟨[[104]], true⟩]
      = some world'
    ∧ (resumeMachine mediaId.text 1001 [104, 105]).Along
      (fun world d => ∀ world', (resumeMachine mediaId.text 1001 [104, 105]).step world d = some world' →
        Delivered [104, 105] 1001 mediaHandle world') (mediaPosted "2") [⟨[[104]], true⟩]
  := by
  obtain ⟨script, hpost⟩ := @mediaPosted_eq "2" rfl
  have huploading := @mediaUploading "2" rfl (by decide +kernel) 2 rfl
  have hrun : (resumeMachine mediaId.text 1001 [104, 105]).run (mediaPosted "2") [⟨[[104]], true⟩]
      = some ((mediaPosted "2").delivered 1001 (toString 0) ⟨[[104]], true⟩) := by
    rw [Machine.run_cons, huploading.step_eq (by decide)]
    rfl
  refine ⟨_, hrun, ?_⟩
  apply (uploaded_iff_not_cut mediaWorld_fresh hpost rfl huploading.placed.registered
    (by decide +kernel) hrun).mpr
  refine ⟨?_, fun _ _ => trivial⟩
  rintro ⟨-, hlength, -⟩
  rw [huploading.partSize] at hlength
  cases hlength

/-- A PATCH that delivers full buffers and is cut off does not publish it. -/
theorem uploaded_hidden :
  ¬ ∀ (id : UuidHex) (world₀ world world' : UploadWorld id.text) (volumes : List (String × ℕ))
      (request : PostRequest) (response : Response) (script : Script) (handle : UploadHandle)
      (bytes : List UInt8) (ds : List Delivery),
      (∀ destPath, world₀.worker.files (partPathFor destPath id.text) = none) →
      (UploadsApi.createUpload id.text request).run.execute (UploadWorld.answerTusBy volumes)
        (world₀, Script.well) = (.ok response, world, script) →
      request.size = some (bytes.length : ℤ) → 0 < bytes.length →
      world.worker.uploads id.text = some handle → handle.destPath ≠ handle.partPath →
      (resumeMachine id.text request.uid bytes).run world ds = some world' →
      (resumeMachine id.text request.uid bytes).Along
        (fun world d => ∀ world', (resumeMachine id.text request.uid bytes).step world d = some world' →
          Delivered bytes request.uid handle world') world ds
  := by
  intro hall
  obtain ⟨bytes, hlength⟩ : ∃ bytes : List UInt8, bytes.length = 1048576 :=
    ⟨List.replicate 1048576 0, List.length_replicate⟩
  have hrequest : (mediaPost "1048576").size = some (bytes.length : ℤ) := by
    rw [hlength]
    rfl
  obtain ⟨script, hpost⟩ := @mediaPosted_eq "1048576" rfl
  have huploading := @mediaUploading "1048576" rfl (by decide +kernel) _ hrequest
  have hname : mediaHandle.destPath ≠ mediaHandle.partPath := by
    decide +kernel
  have hfull : patchBufferSize ∣ bytes.length := by
    rw [hlength, patchBufferSize]
  obtain ⟨world', hrun, hnot⟩ := huploading.not_along hname rfl hfull
  apply hnot
  apply hall _ _ _ _ _ _ _ _ _ _ _ mediaWorld_fresh hpost hrequest _ huploading.placed.registered
    hname hrun
  omega
