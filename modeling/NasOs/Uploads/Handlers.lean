import Mathlib.Data.Int.Notation
import NasOs.Library.Path
import NasOs.Rpc.Dispatcher

/-!
# The uploads of a file worker

The handlers of `files.upload_begin`, `files.upload_offset`, `files.upload_complete` and
`files.upload_abort`, and the write of a chunk.  A worker keeps a handle for each upload that was
begun; the bytes go to a part file next to the destination, which is renamed when the upload
is complete.
-/

/-- An `OSError`. -/
inductive OsError where
  | fileNotFound (message : String)
  | other (message : String)
  deriving DecidableEq

/-- What `str` gives on an `OSError`. -/
def OsError.str : OsError → String
  | .fileNotFound message => message
  | .other message => message

/-- `UploadHandle`. -/
structure UploadHandle where
  destPath : String
  partPath : String
  deriving DecidableEq

/-- The operations of the handlers: those of the file system, and those on the handles that the
worker keeps. -/
inductive FileOp where
  /-- `os.path.exists`. -/
  | exists (path : String)
  /-- Open a file that is created with a mode if it is not there, and close it. -/
  | create (path : String) (mode : ℕ)
  /-- `os.path.getsize`. -/
  | getsize (path : String)
  /-- `os.rename`. -/
  | rename (source target : String)
  /-- `os.remove`. -/
  | remove (path : String)
  /-- Open a file, write at an offset, sync it, and tell where the writing ended. -/
  | write (path : String) (offset : ℤ) (data : List UInt8)
  /-- `state.uploads.get`. -/
  | getHandle (uploadId : String)
  /-- Set an item of `state.uploads`. -/
  | putHandle (uploadId : String) (handle : UploadHandle)
  /-- `state.uploads.pop`. -/
  | popHandle (uploadId : String)
  deriving DecidableEq

/-- The answers to the operations. -/
abbrev FileOp.Answer : FileOp → Type
  | .exists _ => Bool
  | .getsize _ => Except OsError ℕ
  | .write _ _ _ => Except OsError ℤ
  | .getHandle _ => Option UploadHandle
  | .putHandle _ _ => Unit
  | .popHandle _ => Option UploadHandle
  | _ => Except OsError Unit

/-- A computation of a file worker. -/
abbrev FileM (α : Type) : Type :=
  Async FileOp FileOp.Answer α

/-- Return what the system returned, or raise its error. -/
def raiseOs {α : Type} (f : OsError → Exc) : Except OsError α → FileM α
  | .ok a => pure a
  | .error e => throw (f e)

/-- What the system returned is returned unless it is an error. -/
theorem execute_raiseOs_eq_ok {σ α : Type} {f : σ → (op : FileOp) → op.Answer × σ} {g : OsError → Exc}
    {a : Except OsError α} {s t : σ} {b : α} :
  (raiseOs g a).run.execute f s = (.ok b, t) ↔ a = .ok b ∧ s = t
  := by
  cases a with
  | error e =>
      constructor
      · rintro ⟨⟩
      · rintro ⟨⟨⟩, -⟩
  | ok a =>
      constructor
      · rintro ⟨⟩
        exact ⟨rfl, rfl⟩
      · rintro ⟨⟨⟩, rfl⟩
        rfl

/-- `part_path_for`. -/
def partPathFor (destPath uploadId : String) : String :=
  Path.join (Path.dirname destPath) (".nasos-upload-" ++ uploadId ++ ".part")

namespace UploadsHandlers

/-- `files.upload_begin`. -/
def begin (destPath uploadId : String) : FileM Unit := do
  let found ← Async.ask (FileOp.exists destPath)
  Async.raiseIf found (.rpcException "already_exists" (destPath ++ " already exists"))
  let partPath := partPathFor destPath uploadId
  let created ← Async.ask (FileOp.create partPath 0o600)
  raiseOs (fun e => .rpcException "io_error" e.str) created
  Async.ask (FileOp.putHandle uploadId ⟨destPath, partPath⟩)

/-- `_handle_or_raise`. -/
def handleOrRaise (uploadId : String) : FileM UploadHandle := do
  match ← Async.ask (FileOp.getHandle uploadId) with
  | none => throw (.rpcException "not_found" ("unknown upload_id: " ++ uploadId))
  | some handle => pure handle

/-- `files.upload_offset`. -/
def offset (uploadId : String) : FileM ℕ := do
  let handle ← handleOrRaise uploadId
  let size ← Async.ask (FileOp.getsize handle.partPath)
  raiseOs (fun e => .rpcException "not_found" e.str) size

/-- `files.upload_complete`. -/
def complete (uploadId : String) : FileM Unit := do
  let handle ← handleOrRaise uploadId
  let renamed ← Async.ask (FileOp.rename handle.partPath handle.destPath)
  raiseOs (fun e => .rpcException "io_error" e.str) renamed
  let _ ← Async.ask (FileOp.popHandle uploadId)
  pure ()

/-- `files.upload_abort`: a part file that is not there is no failure. -/
def abort (uploadId : String) : FileM Unit := do
  match ← Async.ask (FileOp.popHandle uploadId) with
  | none => pure ()
  | some handle =>
      match ← Async.ask (FileOp.remove handle.partPath) with
      | .error (.other message) => throw (.other message)
      | _ => pure ()

end UploadsHandlers

/-- `filedata.write_chunk`. -/
def Filedata.writeChunk (partPath : String) (offset : ℤ) (data : List UInt8) : FileM ℤ := do
  let written ← Async.ask (FileOp.write partPath offset data)
  raiseOs (fun e => .other e.str) written

/-- `_op_upload_chunk`, as the client of the operation sees it. -/
def Fileworker.uploadChunk (uploadId : String) (offset : ℤ) (data : List UInt8) : FileM ℤ := do
  match ← Async.ask (FileOp.getHandle uploadId) with
  | none => throw (.rpcCallError "io_error" ("unknown upload_id: " ++ uploadId))
  | some handle =>
      tryCatch (Filedata.writeChunk handle.partPath offset data)
        fun
          | .other message => throw (.rpcCallError "io_error" message)
          | e => throw e
