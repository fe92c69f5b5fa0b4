import NasOs.Library.Base64
import NasOs.Library.Machine
import NasOs.Library.Triple
import NasOs.Uploads.Bytes
import NasOs.Uploads.Inherited
import NasOs.Uploads.Sending

/-!
# The requests of an upload

POST creates an upload, HEAD reports how far it has come, DELETE gives it up; PATCH, which appends to
it, has its own module.  The requests for one upload are served one after the other, each
by a script that says how its operations turn out: any of them may be refused by the system, fail
before or after it was done, or go well.
-/

/-- The operations that POST and DELETE await. -/
inductive TusOp where
  /-- Select the mountpoints of the `volumes` table. -/
  | volumes
  /-- `shutil.disk_usage`, of which the free bytes are read. -/
  | freeSpace (mountpoint : String)
  /-- Call `files.upload_begin`. -/
  | uploadBegin (uploadId destPath : String) (size : ℤ)
  /-- Add a row to the `uploads` table and commit. -/
  | addUpload (upload : Upload)
  /-- Look up a row of the `uploads` table. -/
  | getUpload (uploadId : String)
  /-- Call `files.upload_abort`. -/
  | uploadAbort (uploadId : String)
  /-- Delete a row and commit. -/
  | deleteUpload (uploadId : String)

/-- The answers to the operations: each of them may raise. -/
abbrev TusOp.Answer : TusOp → Type
  | .volumes => Except Exc (List String)
  | .freeSpace _ => Except Exc ℕ
  | .getUpload _ => Except Exc (Option Upload)
  | _ => Except Exc Unit

/-- A computation of POST or DELETE. -/
abbrev TusM (α : Type) : Type :=
  Async TusOp TusOp.Answer α

/-- Raise a failed call as an `UploadServiceError`. -/
def TusM.serviceError {α : Type} : Exc → TusM α
  | .rpcCallError code message => throw (.serviceError code message)
  | e => throw e

/-- Raise an `UploadServiceError` as the answer to a request. -/
def TusM.badRequest {α : Type} : Exc → TusM α
  | .serviceError _ message => throw (.httpException 400 message)
  | e => throw e

namespace UploadsService

/-- `_volume_for`. -/
def volumeFor (mountpoints : List String) (path : String) : Option String :=
  mountpoints.find? fun mountpoint =>
    path = mountpoint ∨ Path.stripEnd mountpoint.toList ++ ['/'] <+: path.toList

/-- `_check_free_space`. -/
def checkFreeSpace (destDir : String) (size : ℤ) : TusM Unit := do
  let mountpoints ← ExceptT.mk (Coroutine.perform TusOp.volumes)
  match volumeFor mountpoints destDir with
  | none => pure ()
  | some mountpoint => do
      let free ← ExceptT.mk (Coroutine.perform (TusOp.freeSpace mountpoint))
      Async.raiseIf ((free : ℤ) < size) (.serviceError "insufficient_space"
        (toString size ++ " bytes requested, " ++ toString free ++ " free"))

/-- `begin_upload`, with the id that `uuid.uuid4().hex` gives. -/
def beginUpload (uploadId : String) (uid : ℕ) (destDir filename : String) (size : ℤ) :
    TusM Upload := do
  checkFreeSpace destDir size
  let destPath := Path.join destDir filename
  tryCatch (ExceptT.mk (Coroutine.perform (TusOp.uploadBegin uploadId destPath size)))
    TusM.serviceError
  let upload : Upload := ⟨uploadId, uid, size⟩
  ExceptT.mk (Coroutine.perform (TusOp.addUpload upload))
  pure upload

/-- `abort_upload`. -/
def abortUpload (upload : Upload) : TusM Unit := do
  tryCatch (ExceptT.mk (Coroutine.perform (TusOp.uploadAbort upload.id))) TusM.serviceError
  ExceptT.mk (Coroutine.perform (TusOp.deleteUpload upload.id))

end UploadsService

/-- What a POST reads of its request. -/
structure PostRequest where
  uid : ℕ
  uploadLength : Option String
  uploadMetadata : Option String

/-- The length a POST declares, if its header is a number. -/
def PostRequest.size (request : PostRequest) : Option ℤ :=
  request.uploadLength.bind fun header => Text.int header.toList

namespace UploadsApi

/-- The value of a metadata pair: nothing where it is not the Base64 of UTF-8 text, which leaves the pair
out. -/
def metadataValue (b64 : List Char) : Option String :=
  (Base64.decode b64).bind fun bytes => String.fromUTF8? ⟨bytes.toArray⟩

/-- `_parse_metadata`, the pairs read last first; `b64decode` refuses text with other characters than
those of ASCII. -/
def parseMetadata (header : Option String) : Except Exc (List (String × String)) :=
  ((header.getD "").toList.splitOn ',').foldlM
    (fun out pair =>
      let pair := Text.strip pair
      let (key, b64) := (Text.splitFirst ' ' pair).getD (pair, [])
      if pair = [] then pure out
      else if b64.any fun c => 128 ≤ c.toNat then
        throw (.other "string argument should contain only ASCII characters")
      else
        pure (match metadataValue b64 with
          | none => out
          | some value => (String.ofList key, value) :: out))
    []

/-- `create_upload`, with the id that `uuid.uuid4().hex` gives. -/
def createUpload (uploadId : String) (request : PostRequest) : TusM Response := do
  Async.raiseIf request.uploadLength.isNone (.httpException 400 "Upload-Length header required")
  match request.size with
  | none => throw (.httpException 400 "invalid Upload-Length")
  | some size => do
      let metadata ← Async.ofExcept (parseMetadata request.uploadMetadata)
      let filename := (metadata.lookup "filename").getD ""
      let destDir := (metadata.lookup "dir").getD ""
      Async.raiseIf (filename = "" ∨ destDir = "")
        (.httpException 400 "Upload-Metadata must include filename and dir")
      let upload ← tryCatch (UploadsService.beginUpload uploadId request.uid destDir filename size)
        TusM.badRequest
      pure ⟨201, tusHeaders [("Location", "/api/v1/uploads/" ++ upload.id)]⟩

/-- `head_upload`. -/
def headUpload (uploadId : String) (uid : ℕ) : PatchM Response := do
  match ← ExceptT.mk (Coroutine.perform (PatchOp.getUpload uploadId)) with
  | none => throw (.httpException 404 "no such upload")
  | some upload =>
      Async.raiseIf (upload.uid ≠ uid) (.httpException 404 "no such upload")
      let offset ← UploadsService.currentOffset uploadId
      pure ⟨200, tusHeaders [("Upload-Offset", toString offset),
        ("Upload-Length", toString upload.size), ("Cache-Control", "no-store")]⟩

/-- `delete_upload`. -/
def deleteUpload (uploadId : String) (uid : ℕ) : TusM Response := do
  match ← ExceptT.mk (Coroutine.perform (TusOp.getUpload uploadId)) with
  | none => throw (.httpException 404 "no such upload")
  | some upload =>
      Async.raiseIf (upload.uid ≠ uid) (.httpException 404 "no such upload")
      tryCatch (UploadsService.abortUpload upload) TusM.badRequest
      pure ⟨204, tusHeaders []⟩

end UploadsApi

/-! ### Requests that are served one after the other -/

/-- An operation fails with an exception. -/
def PatchOp.raise (e : Exc) : (op : PatchOp) → op.Answer
  | .getUpload _ => .error e
  | .uploadOffset _ => .error e
  | .receive => .error e
  | .writeChunk _ _ _ => .error e
  | .commitOffset _ _ => .error e
  | .uploadComplete _ => .error e
  | .deleteUpload _ => .error e

/-- An operation fails with an exception. -/
def TusOp.raise (e : Exc) : (op : TusOp) → op.Answer
  | .volumes => .error e
  | .freeSpace _ => .error e
  | .uploadBegin _ _ _ => .error e
  | .addUpload _ => .error e
  | .getUpload _ => .error e
  | .uploadAbort _ => .error e
  | .deleteUpload _ => .error e

/-- What a task that is cancelled raises. -/
def cancelled : Exc :=
  .other "CancelledError"

/-- The schema of the params of `files.upload_begin`. -/
def uploadBeginError (destPath : String) (size : ℤ) : Option String :=
  if destPath = "" ∨ 4096 < destPath.length ∨ size < 0 then
    some "validation error for FilesUploadBeginParams"
  else none

namespace UploadWorld

variable {uploadId : String}

/-- The answers to the operations of POST and DELETE; an operation for another upload finds and changes
nothing here. -/
def performTus (volumes : List (String × ℕ)) (world : UploadWorld uploadId) :
    (op : TusOp) → PatchChoice → Option (op.Answer × UploadWorld uploadId)
  | .volumes, choice => choice.outcome (.ok (volumes.map Prod.fst), world) world
  | .freeSpace mountpoint, choice =>
      choice.outcome (.ok ((volumes.lookup mountpoint).getD 0), world) world
  | .uploadBegin id destPath size, choice =>
      world.atWorker (AgentClient.call (fun _ => uploadBeginError destPath size)
        (fun _ : Unit => UploadsHandlers.begin destPath id) ()) choice
  | .addUpload upload, choice =>
      choice.outcome
        (.ok (), if h : upload.id = uploadId then
            { world with row := some upload, row_id := by rintro _ ⟨⟩; exact h }
          else world)
        world
  | .getUpload id, choice =>
      choice.outcome (.ok (if id = uploadId then world.row else none), world) world
  | .uploadAbort id, choice =>
      world.atWorker (AgentClient.call (fun _ => none) UploadsHandlers.abort id) choice
  | .deleteUpload _, choice =>
      choice.outcome (.ok (), { world with row := none, row_id := row_id_none uploadId }) world

/-- The answer to an operation of HEAD or PATCH; one that is neither done nor fails is cancelled. -/
def answer (world : UploadWorld uploadId) (op : PatchOp) (choice : PatchChoice) :
    op.Answer × UploadWorld uploadId :=
  (world.perform op choice).getD (op.raise cancelled, world)

/-- The answer to an operation of POST or DELETE. -/
def answerTus (volumes : List (String × ℕ)) (world : UploadWorld uploadId) (op : TusOp)
    (choice : PatchChoice) : op.Answer × UploadWorld uploadId :=
  (world.performTus volumes op choice).getD (op.raise cancelled, world)

end UploadWorld

/-- How the operations of a request turn out, in their order. -/
abbrev Script : Type :=
  ℕ → PatchChoice

/-- A choice by which all goes well. -/
def PatchChoice.well : PatchChoice :=
  ⟨fun _ => none, true, none⟩

/-- The script by which all goes well. -/
def Script.well : Script :=
  fun _ => .well

/-- The script of the operations after the first. -/
def Script.rest (script : Script) : Script :=
  fun n => script (n + 1)

/-- Answer the operations of HEAD or PATCH by a script. -/
def UploadWorld.answerBy {uploadId : String} (state : UploadWorld uploadId × Script) (op : PatchOp) :
    op.Answer × UploadWorld uploadId × Script :=
  let answer := state.1.answer op (state.2 0)
  (answer.1, answer.2, state.2.rest)

/-- Answer the operations of POST or DELETE by a script. -/
def UploadWorld.answerTusBy {uploadId : String} (volumes : List (String × ℕ))
    (state : UploadWorld uploadId × Script) (op : TusOp) :
    op.Answer × UploadWorld uploadId × Script :=
  let answer := state.1.answerTus volumes op (state.2 0)
  (answer.1, answer.2, state.2.rest)

/-! ### How an operation turns out -/

/-- Nothing goes wrong with an operation. -/
structure PatchChoice.Faultless (choice : PatchChoice) : Prop where
  refuses : ∀ op, choice.refuses op = none
  reached : choice.reached = true
  raises : choice.raises = none

/-- An operation is answered as it was done, or something went wrong and it raises, whether it was done or
not. -/
theorem PatchChoice.getD_outcome {α σ : Type} (choice : PatchChoice) (done : Except Exc α × σ)
    (undone : σ) (e : Exc) :
  (choice.outcome done undone).getD (.error e, undone) = done
    ∨ ¬ choice.Faultless ∧ ∃ e', (choice.outcome done undone).getD (.error e, undone) = (.error e', done.2)
      ∨ (choice.outcome done undone).getD (.error e, undone) = (.error e', undone)
  := by
  rw [PatchChoice.outcome, PatchChoice.deliver]
  split
  · split
    · left
      rfl
    · rename_i e' hraises
      right
      constructor
      · intro h
        cases hraises.symm.trans h.raises
      · use e'
        left
        rfl
  · rename_i hreached
    right
    constructor
    · intro h
      apply hreached h.reached
    · cases choice.raises with
      | none =>
          use e
          right
          rfl
      | some e' =>
          use e'
          right
          rfl

/-- What holds whether an operation is done or not holds after it. -/
theorem PatchChoice.of_getD_outcome {α σ : Type} {P : σ → Prop} (choice : PatchChoice)
    {done : Except Exc α × σ} {undone : σ} (hdone : P done.2) (hundone : P undone) (e : Exc) :
  P ((choice.outcome done undone).getD (.error e, undone)).2
  := by
  rcases choice.getD_outcome done undone e with h | ⟨-, e', h | h⟩
  · rw [h]
    apply hdone
  · rw [h]
    apply hdone
  · rw [h]
    apply hundone

/-- What the worker runs for an operation is answered as it ends, or something went wrong and the operation
raises, whether the worker ran it or not. -/
theorem UploadWorld.getD_atWorker {uploadId : String} {α : Type} (world : UploadWorld uploadId)
    (c : FileM α) (choice : PatchChoice) {done : Except Exc α × Worker}
    (hdone : c.run.execute (Worker.answer choice.refuses) world.worker = done) (e : Exc) :
  (world.atWorker c choice).getD (.error e, world) = (done.1, { world with worker := done.2 })
    ∨ ¬ choice.Faultless ∧ ∃ e',
        (world.atWorker c choice).getD (.error e, world) = (.error e', { world with worker := done.2 })
          ∨ (world.atWorker c choice).getD (.error e, world) = (.error e', world)
  := by
  rw [UploadWorld.atWorker, hdone]
  apply choice.getD_outcome
