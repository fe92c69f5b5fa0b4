import NasOs.Uploads.Completion

/-!
# Part files and their rows

A part file is created by a POST, before the row of its upload; a PATCH renames it and then deletes the
row, a DELETE removes it and then deletes the row.  A DELETE reaches a part file only by the handle that
the worker keeps of it, and the worker forgets the handle before it removes the file, and all handles when
it is restarted.

The requests of any uploads run at the same time, and any of their operations may fail.  When no worker is
restarted while an upload is under way, no part file is refused its removal, and nothing fails between the
beginning of an upload and the commit of its row, every part file has a row whose DELETE removes it.
-/

/-- The worker of a user, and the rows of the uploads. -/
structure UploadsWorld where
  worker : Worker
  rows : String → Option Upload
  rows_id : ∀ uploadId, ∀ upload ∈ rows uploadId, upload.id = uploadId

/-- The operations that the requests for uploads await. -/
inductive UploadsOp where
  | tus (op : TusOp)
  | patch (op : PatchOp)

/-- The answers to the operations. -/
abbrev UploadsOp.Answer : UploadsOp → Type
  | .tus op => op.Answer
  | .patch op => op.Answer

/-- The upload that an operation of POST or DELETE is about, if it is about one. -/
def TusOp.about : TusOp → String
  | .volumes => ""
  | .freeSpace _ => ""
  | .uploadBegin uploadId _ _ => uploadId
  | .addUpload upload => upload.id
  | .getUpload uploadId => uploadId
  | .uploadAbort uploadId => uploadId
  | .deleteUpload uploadId => uploadId

/-- The upload that an operation of HEAD or PATCH is about, if it is about one. -/
def PatchOp.about : PatchOp → String
  | .getUpload uploadId => uploadId
  | .uploadOffset uploadId => uploadId
  | .receive => ""
  | .writeChunk uploadId _ _ => uploadId
  | .commitOffset uploadId _ => uploadId
  | .uploadComplete uploadId => uploadId
  | .deleteUpload uploadId => uploadId

namespace UploadsWorld

/-- What one upload sees of the world. -/
def upload (world : UploadsWorld) (uploadId : String) : UploadWorld uploadId :=
  ⟨world.worker, world.rows uploadId, world.rows_id uploadId⟩

/-- The world after a change that one upload saw. -/
def put (world : UploadsWorld) {uploadId : String} (part : UploadWorld uploadId) : UploadsWorld where
  worker := part.worker
  rows := Function.update world.rows uploadId part.row
  rows_id := by
    intro uploadId'
    by_cases h : uploadId' = uploadId
    · subst h
      rw [Function.update_self]
      apply part.row_id
    · rw [Function.update_of_ne h]
      apply world.rows_id

/-- The answers to the operations. -/
def perform (volumes : List (String × ℕ)) (world : UploadsWorld) :
    (op : UploadsOp) → PatchChoice → Option (op.Answer × UploadsWorld)
  | .tus op, choice =>
      ((world.upload op.about).performTus volumes op choice).map fun a => (a.1, world.put a.2)
  | .patch op, choice =>
      ((world.upload op.about).perform op choice).map fun a => (a.1, world.put a.2)

/-- The world after the worker is restarted: it has forgotten its uploads. -/
def restart (world : UploadsWorld) : UploadsWorld :=
  { world with worker := { world.worker with uploads := fun _ => none } }

end UploadsWorld

/-- The effects of the requests for uploads, the worker being restarted at any moment. -/
def uploadsEffects (volumes : List (String × ℕ)) :
    Effects UploadsOp UploadsOp.Answer UploadsWorld PatchChoice Unit :=
  ⟨UploadsWorld.perform volumes, fun world _ => some world.restart⟩

/-- A request for uploads; a POST with the id that `uuid.uuid4().hex` gives it. -/
inductive UploadsRequest where
  | post (id : UuidHex) (request : PostRequest)
  | patch (uploadId : String) (request : PatchRequest)
  | head (uploadId : String) (uid : ℕ)
  | delete (uploadId : String) (uid : ℕ)

namespace UploadsRequest

/-- What serves a request. -/
def task : UploadsRequest → Coroutine UploadsOp UploadsOp.Answer (Except Exc Response)
  | .post id request =>
      (UploadsApi.createUpload id.text request).run.interpret fun op => Coroutine.perform (.tus op)
  | .patch uploadId request =>
      (UploadsApi.patchUpload uploadId request).run.interpret fun op => Coroutine.perform (.patch op)
  | .head uploadId uid =>
      (UploadsApi.headUpload uploadId uid).run.interpret fun op => Coroutine.perform (.patch op)
  | .delete uploadId uid =>
      (UploadsApi.deleteUpload uploadId uid).run.interpret fun op => Coroutine.perform (.tus op)

/-- The pool of unstarted requests. -/
def pool (requests : List UploadsRequest) (world : UploadsWorld) :
    Pool UploadsOp UploadsOp.Answer UploadsWorld (Except Exc Response) :=
  Pool.start world (requests.map task)

end UploadsRequest

/-- The destination of a POST, if its metadata can be read. -/
def PostRequest.destPath (request : PostRequest) : Option String :=
  match UploadsApi.parseMetadata request.uploadMetadata with
  | .ok metadata =>
      some (Path.join ((metadata.lookup "dir").getD "") ((metadata.lookup "filename").getD ""))
  | .error _ => none

/-! ### What each request does in which order -/

/-- How far a request has come: it has touched no upload, it has found the row of one, it has completed or
given up one, or it has begun one, without its row or with it. -/
inductive UploadsStage where
  | idle
  | found (uploadId : String)
  | gone (uploadId : String)
  | begun
  | added

/-- A POST begins an upload at its destination, and then adds its row. -/
def postProtocol (id : UuidHex) (request : PostRequest) :
    Protocol TusOp TusOp.Answer UploadsStage where
  allowed stage op :=
    match stage, op with
    | .idle, .volumes => True
    | .idle, .freeSpace _ => True
    | .idle, .uploadBegin uploadId destPath _ => uploadId = id.text ∧ request.destPath = some destPath
    | .begun, .addUpload upload => upload.id = id.text
    | _, _ => False
  next stage op :=
    match op with
    | .uploadBegin _ _ _ => fun
        | .ok _ => .begun
        | .error _ => stage
    | .addUpload _ => fun _ => .added
    | _ => fun _ => stage

/-- A DELETE finds the row of its upload, gives the upload up, and then deletes the row. -/
def deleteProtocol (uploadId : String) : Protocol TusOp TusOp.Answer UploadsStage where
  allowed stage op :=
    match stage, op with
    | .idle, .getUpload uploadId' => uploadId' = uploadId
    | .found uploadId, .uploadAbort uploadId' => uploadId' = uploadId
    | .gone uploadId, .deleteUpload uploadId' => uploadId' = uploadId
    | _, _ => False
  next stage op :=
    match op with
    | .getUpload _ => fun
        | .ok (some upload) => .found upload.id
        | _ => stage
    | .uploadAbort uploadId => fun
        | .ok _ => .gone uploadId
        | .error _ => stage
    | _ => fun _ => stage

/-- A PATCH or HEAD finds the row of its upload; a PATCH may complete the upload, and then deletes the
row. -/
def patchProtocol (uploadId : String) : Protocol PatchOp PatchOp.Answer UploadsStage where
  allowed stage op :=
    match stage, op with
    | .idle, .getUpload uploadId' => uploadId' = uploadId
    | .found _, .uploadOffset _ => True
    | .found _, .receive => True
    | .found uploadId, .writeChunk uploadId' _ _ => uploadId' = uploadId
    | .found _, .commitOffset _ _ => True
    | .found uploadId, .uploadComplete uploadId' => uploadId' = uploadId
    | .gone uploadId, .deleteUpload uploadId' => uploadId' = uploadId
    | _, _ => False
  next stage op :=
    match op with
    | .getUpload _ => fun
        | .ok (some upload) => .found upload.id
        | _ => stage
    | .uploadComplete uploadId => fun
        | .ok _ => .gone uploadId
        | .error _ => stage
    | _ => fun _ => stage

/-- The operations by which a PATCH sends its body. -/
def PatchOp.Sends (uploadId : String) : PatchOp → Prop
  | .receive => True
  | .writeChunk uploadId' _ _ => uploadId' = uploadId
  | .commitOffset _ _ => True
  | _ => False

section

variable {upload : Upload}

/-- Writing a chunk sends it. -/
theorem awaits_writeChunk (offset : ℤ) (data : List UInt8) :
  (UploadsService.writeChunk upload offset data).run.Awaits (PatchOp.Sends upload.id)
  := by
  apply Coroutine.awaits_exceptT_bind
  · apply Coroutine.awaits_tryCatch
    · exact ⟨rfl, fun _ => trivial⟩
    · intro e
      cases e
      all_goals apply Coroutine.awaits_throw
  · intro newOffset
    apply Coroutine.awaits_exceptT_bind
    · exact ⟨trivial, fun _ => trivial⟩
    · intro _
      apply Coroutine.awaits_pure

/-- Writing the full chunks of a buffer sends them. -/
theorem awaits_writeFull (rounds : ℕ) (offset : ℤ) (buf : List UInt8) :
  (UploadsApi.writeFull upload rounds offset buf).run.Awaits (PatchOp.Sends upload.id)
  := by
  induction rounds generalizing offset buf with
  | zero => apply Coroutine.awaits_pure
  | succ rounds ih =>
      rw [UploadsApi.writeFull]
      split
      · apply Coroutine.awaits_exceptT_bind
        · apply awaits_writeChunk
        · intro newOffset
          apply ih
      · apply Coroutine.awaits_pure

/-- Receiving the body sends its full chunks. -/
theorem awaits_receiveAll (pieces : List (List UInt8)) (offset : ℤ) (buf : List UInt8) :
  (UploadsApi.receiveAll upload pieces offset buf).run.Awaits (PatchOp.Sends upload.id)
  := by
  induction pieces generalizing offset buf with
  | nil =>
      apply Coroutine.awaits_exceptT_bind
      · exact ⟨trivial, fun _ => trivial⟩
      · intro _
        apply Coroutine.awaits_pure
  | cons piece pieces ih =>
      apply Coroutine.awaits_exceptT_bind
      · exact ⟨trivial, fun _ => trivial⟩
      · intro _
        apply Coroutine.awaits_exceptT_bind
        · apply awaits_writeFull
        · rintro ⟨newOffset, rest⟩
          apply ih

/-- A PATCH that sends its body stays where it is. -/
theorem obeys_of_sends {α : Type} {uploadId : String} {c : PatchM α}
    (hc : c.run.Awaits (PatchOp.Sends upload.id)) :
  c.run.Obeys (patchProtocol uploadId) (fun stage _ => stage = .found upload.id) (.found upload.id)
  := by
  apply Coroutine.Obeys.of_awaits hc
  intro op hop
  cases op with
  | receive => exact ⟨trivial, fun _ => rfl⟩
  | writeChunk uploadId' offset data => exact ⟨hop, fun _ => rfl⟩
  | commitOffset uploadId' offset => exact ⟨trivial, fun _ => rfl⟩
  | _ => cases hop

/-- The rule for the body of a PATCH. -/
theorem obeys_writeBody (uploadId : String) (pieces : List (List UInt8)) (offset : ℤ) :
  (UploadsApi.writeBody upload pieces offset).run.Obeys (patchProtocol uploadId) (fun _ _ => True)
    (.found upload.id)
  := by
  apply (obeys_of_sends (awaits_receiveAll pieces offset [])).exceptT_bind
  · rintro stage ⟨newOffset, buf⟩ rfl
    have hlast : (if buf = [] then pure newOffset
        else UploadsService.writeChunk upload newOffset buf : PatchM ℤ).run.Awaits
          (PatchOp.Sends upload.id) := by
      split
      · apply Coroutine.awaits_pure
      · apply awaits_writeChunk
    apply (obeys_of_sends hlast).exceptT_bind
    · rintro stage lastOffset rfl
      apply Coroutine.Obeys.exceptT_bind (Q := fun _ _ => True)
      · split
        · constructor
          · rfl
          · rintro (e | _)
            · cases e
              all_goals trivial
            · constructor
              · rfl
              · rintro (e | _)
                all_goals trivial
        · trivial
      · intro _ _ _
        trivial
      · intro _ _ _
        trivial
    · intro _ _ _
      trivial
  · intro _ _ _
    trivial

/-- The rule for the question where an upload is. -/
theorem obeys_currentOffset {uploadId uploadId' : String} :
  (UploadsService.currentOffset uploadId').run.Obeys (patchProtocol uploadId)
    (fun stage _ => stage = .found upload.id) (.found upload.id)
  := by
  constructor
  · trivial
  · rintro (e | size)
    · cases e
      all_goals rfl
    · rfl

end

/-- A PATCH obeys its protocol. -/
theorem obeys_patchUpload (uploadId : String) (request : PatchRequest) :
  (UploadsApi.patchUpload uploadId request).run.Obeys (patchProtocol uploadId) (fun _ _ => True) .idle
  := by
  constructor
  · rfl
  · rintro (e | _ | upload)
    · trivial
    · trivial
    · apply Async.obeys_raiseIf_bind fun _ => trivial
      intro _
      apply Async.obeys_raiseIf_bind fun _ => trivial
      intro _
      apply Async.obeys_raiseIf_bind fun _ => trivial
      intro _
      cases request.offset with
      | none => trivial
      | some offset =>
          apply (@obeys_currentOffset upload uploadId uploadId).exceptT_bind
          · rintro stage size rfl
            split
            · trivial
            · apply Coroutine.Obeys.exceptT_bind (Q := fun _ _ => True)
              · apply (obeys_writeBody uploadId request.pieces offset).tryCatch
                · intro _ _ _
                  trivial
                · intro stage e _
                  cases e
                  all_goals trivial
              · intro _ _ _
                trivial
              · intro _ _ _
                trivial
          · intro _ _ _
            trivial

/-- A HEAD obeys its protocol. -/
theorem obeys_headUpload (uploadId : String) (uid : ℕ) :
  (UploadsApi.headUpload uploadId uid).run.Obeys (patchProtocol uploadId) (fun _ _ => True) .idle
  := by
  constructor
  · rfl
  · rintro (e | _ | upload)
    · trivial
    · trivial
    · apply Async.obeys_raiseIf_bind fun _ => trivial
      intro _
      apply (@obeys_currentOffset upload uploadId uploadId).exceptT_bind
      · intro _ _ _
        trivial
      · intro _ _ _
        trivial

/-- A request that is answered with success has given an upload up. -/
def GivenUp (stage : UploadsStage) (result : Except Exc Response) : Prop :=
  ∀ response, result = .ok response → ∃ uploadId, stage = .gone uploadId

/-- A DELETE obeys its protocol. -/
theorem obeys_deleteUpload (uploadId : String) (uid : ℕ) :
  (UploadsApi.deleteUpload uploadId uid).run.Obeys (deleteProtocol uploadId) GivenUp .idle
  := by
  have hraised : ∀ stage e, GivenUp stage (.error e) := by
    rintro stage e response ⟨⟩
  constructor
  · rfl
  · rintro (e | _ | upload)
    · apply hraised
    · apply hraised
    · apply Async.obeys_raiseIf_bind fun _ => hraised _ _
      intro _
      constructor
      · rfl
      · rintro (e | _)
        · cases e
          all_goals apply hraised
        · constructor
          · rfl
          · rintro (e | _)
            · cases e
              all_goals apply hraised
            · rintro response ⟨⟩
              exact ⟨upload.id, rfl⟩

/-- A request does not end between the beginning of an upload and its row. -/
def RowFollows (stage : UploadsStage) (_ : Except Exc Response) : Prop :=
  stage ≠ .begun

/-- The rule for the free space. -/
theorem obeys_checkFreeSpace (id : UuidHex) (request : PostRequest) (destDir : String) (size : ℤ) :
  (UploadsService.checkFreeSpace destDir size).run.Obeys (postProtocol id request)
    (fun stage _ => stage = .idle) .idle
  := by
  rw [UploadsService.checkFreeSpace]
  apply Coroutine.Obeys.exceptT_bind (Q := fun stage _ => stage = .idle)
  · constructor
    · trivial
    · rintro (e | mountpoints)
      all_goals rfl
  · rintro stage mountpoints rfl
    cases UploadsService.volumeFor mountpoints destDir with
    | none => rfl
    | some mountpoint =>
        apply Coroutine.Obeys.exceptT_bind (Q := fun stage _ => stage = .idle)
        · constructor
          · trivial
          · rintro (e | free)
            all_goals rfl
        · rintro stage free rfl
          rw [Async.raiseIf]
          split
          all_goals rfl
        · intro stage e h
          apply h
  · intro stage e h
    apply h

/-- A POST obeys its protocol. -/
theorem obeys_createUpload (id : UuidHex) (request : PostRequest) :
  (UploadsApi.createUpload id.text request).run.Obeys (postProtocol id request) RowFollows .idle
  := by
  have hidle : ∀ r, RowFollows .idle r := by
    rintro r ⟨⟩
  have hadded : ∀ r, RowFollows .added r := by
    rintro r ⟨⟩
  rw [UploadsApi.createUpload]
  apply Async.obeys_raiseIf_bind fun _ => hidle _
  intro _
  cases request.size with
  | none => apply hidle
  | some size =>
      cases hmetadata : UploadsApi.parseMetadata request.uploadMetadata with
      | error e => apply hidle
      | ok metadata =>
          simp only [Async.ofExcept_ok_bind]
          apply Async.obeys_raiseIf_bind fun _ => hidle _
          intro _
          have hbegin : (UploadsService.beginUpload id.text request.uid ((metadata.lookup "dir").getD "")
              ((metadata.lookup "filename").getD "") size).run.Obeys (postProtocol id request)
                (fun stage _ => ∀ r, RowFollows stage r) .idle := by
            apply (obeys_checkFreeSpace id request _ size).exceptT_bind
            · rintro stage _ rfl
              constructor
              · use rfl
                rw [PostRequest.destPath, hmetadata]
              · rintro (e | _)
                · cases e
                  all_goals apply hidle
                · constructor
                  · rfl
                  · rintro (e | _)
                    all_goals apply hadded
            · rintro stage e rfl
              apply hidle
          apply Coroutine.Obeys.exceptT_bind (Q := fun stage _ => ∀ r, RowFollows stage r)
          · apply hbegin.tryCatch
            · intro stage upload h
              apply h
            · intro stage e h
              cases e
              all_goals apply h
          · intro stage upload h
            apply h
          · intro stage e h
            apply h
