import NasOs.Library.Text
import NasOs.Uploads.Handlers

/-!
# PATCH requests of an upload

A PATCH appends its body to an upload: it asks the worker for the size of the part file, which has to be
the offset that the client sent, writes the body in chunks as it arrives, and completes
the upload once all its bytes are there.
-/

/-- What a request reads of a row of the `uploads` table; its offset is written only. -/
structure Upload where
  id : String
  uid : ℕ
  size : ℤ
  deriving DecidableEq

/-- The operations that a PATCH awaits. -/
inductive PatchOp where
  /-- Look up a row of the `uploads` table. -/
  | getUpload (uploadId : String)
  /-- Call `files.upload_offset`. -/
  | uploadOffset (uploadId : String)
  /-- Wait for the next piece of the body, or its end. -/
  | receive
  /-- Have the worker write a chunk. -/
  | writeChunk (uploadId : String) (offset : ℤ) (data : List UInt8)
  /-- Commit the new offset of a row. -/
  | commitOffset (uploadId : String) (offset : ℤ)
  /-- Call `files.upload_complete`. -/
  | uploadComplete (uploadId : String)
  /-- Delete a row and commit. -/
  | deleteUpload (uploadId : String)
  deriving DecidableEq

/-- The answers to the operations: each of them may raise. -/
abbrev PatchOp.Answer : PatchOp → Type
  | .getUpload _ => Except Exc (Option Upload)
  | .uploadOffset _ => Except Exc ℕ
  | .writeChunk _ _ _ => Except Exc ℤ
  | _ => Except Exc Unit

/-- A computation of a PATCH. -/
abbrev PatchM (α : Type) : Type :=
  Async PatchOp PatchOp.Answer α

/-- Raise a failed call as an `UploadServiceError`. -/
def uploadServiceError {α : Type} : Exc → PatchM α
  | .rpcCallError code message => throw (.serviceError code message)
  | e => throw e

namespace UploadsService

/-- `current_offset`. -/
def currentOffset (uploadId : String) : PatchM ℕ :=
  tryCatch (ExceptT.mk (Coroutine.perform (PatchOp.uploadOffset uploadId))) uploadServiceError

/-- `write_chunk`. -/
def writeChunk (upload : Upload) (offset : ℤ) (data : List UInt8) : PatchM ℤ := do
  let newOffset ← tryCatch
    (ExceptT.mk (Coroutine.perform (PatchOp.writeChunk upload.id offset data))) uploadServiceError
  ExceptT.mk (Coroutine.perform (PatchOp.commitOffset upload.id newOffset))
  pure newOffset

/-- `complete_upload`. -/
def completeUpload (upload : Upload) : PatchM Unit := do
  tryCatch (ExceptT.mk (Coroutine.perform (PatchOp.uploadComplete upload.id))) uploadServiceError
  ExceptT.mk (Coroutine.perform (PatchOp.deleteUpload upload.id))

end UploadsService

/-- `PATCH_BUFFER_SIZE`. -/
def patchBufferSize : ℕ := 1024 * 1024

/-- What a PATCH reads of its request: the user of its session, two headers, and the body as it
arrives. -/
structure PatchRequest where
  uid : ℕ
  contentType : Option String
  uploadOffset : Option String
  pieces : List (List UInt8)

/-- The body of a request. -/
def PatchRequest.body (request : PatchRequest) : List UInt8 :=
  request.pieces.flatten

/-- The offset a request starts at, if its header is a number. -/
def PatchRequest.offset (request : PatchRequest) : Option ℤ :=
  request.uploadOffset.bind fun header => Text.int header.toList

/-- What a request is answered with: a status and headers. -/
structure Response where
  statusCode : ℕ
  headers : List (String × String)
  deriving DecidableEq

/-- `_tus_headers`. -/
def tusHeaders (extra : List (String × String)) : List (String × String) :=
  ("Tus-Resumable", "1.0.0") :: extra

namespace UploadsApi

/-- Write the full chunks in the buffer, and return what remains; the first argument bounds the
rounds of the loop, each of which shortens the buffer. -/
def writeFull (upload : Upload) : ℕ → ℤ → List UInt8 → PatchM (ℤ × List UInt8)
  | 0, offset, buf => pure (offset, buf)
  | n + 1, offset, buf =>
      if patchBufferSize ≤ buf.length then do
        let offset ← UploadsService.writeChunk upload offset (buf.take patchBufferSize)
        writeFull upload n offset (buf.drop patchBufferSize)
      else pure (offset, buf)

/-- Receive the pieces of the body and write full chunks of it, and return what remains. -/
def receiveAll (upload : Upload) : List (List UInt8) → ℤ → List UInt8 → PatchM (ℤ × List UInt8)
  | [], offset, buf => do
      ExceptT.mk (Coroutine.perform PatchOp.receive)
      pure (offset, buf)
  | piece :: pieces, offset, buf => do
      ExceptT.mk (Coroutine.perform PatchOp.receive)
      let (offset, buf) ← writeFull upload (buf ++ piece).length offset (buf ++ piece)
      receiveAll upload pieces offset buf

/-- Write the body from an offset on, and complete the upload when it has all its bytes. -/
def writeBody (upload : Upload) (pieces : List (List UInt8)) (offset : ℤ) : PatchM ℤ := do
  let (offset, buf) ← receiveAll upload pieces offset []
  let offset ← (if buf = [] then pure offset else UploadsService.writeChunk upload offset buf)
  (if upload.size ≤ offset then UploadsService.completeUpload upload else pure ())
  pure offset

/-- `patch_upload`. -/
def patchUpload (uploadId : String) (request : PatchRequest) : PatchM Response := do
  match ← ExceptT.mk (Coroutine.perform (PatchOp.getUpload uploadId)) with
  | none => throw (.httpException 404 "no such upload")
  | some upload =>
      Async.raiseIf (upload.uid ≠ request.uid) (.httpException 404 "no such upload")
      Async.raiseIf (request.contentType ≠ some "application/offset+octet-stream")
        (.httpException 415 "expected application/offset+octet-stream")
      Async.raiseIf request.uploadOffset.isNone
        (.httpException 400 "Upload-Offset header required")
      match request.offset with
      | none => throw (.other "invalid literal for int()")
      | some offset =>
          let serverOffset ← UploadsService.currentOffset uploadId
          if offset ≠ serverOffset then pure ⟨409, tusHeaders []⟩
          else do
            let offset ← tryCatch (writeBody upload request.pieces offset)
              fun
                | .serviceError _ message => throw (.httpException 400 message)
                | e => throw e
            pure ⟨204, tusHeaders [("Upload-Offset", toString offset)]⟩

end UploadsApi
