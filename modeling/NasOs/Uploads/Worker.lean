import NasOs.Acl.Commands
import NasOs.Uploads.Handlers

/-!
# The files of a worker

What the operations of a file worker do: to the files, each with an owner, access control lists
and bytes, and to the handles of its uploads.  A file that the worker creates is owned by the
worker's user and gets the lists its directory hands on.  The system may refuse any operation
for reasons of its own, as when a disk is full; a write that is refused may have written a part of
its data.
-/

/-- A file or directory. -/
structure FileNode where
  owner : ℕ
  acl : FileAcl
  content : List UInt8

/-- The bytes after writing at an offset; a gap before them is filled with zeros. -/
def writeAt (content : List UInt8) (offset : ℕ) (data : List UInt8) : List UInt8 :=
  if data = [] then content
  else
    (content ++ List.replicate (offset - content.length) 0).take offset ++ data
      ++ content.drop (offset + data.length)

/-- The system's reason for refusing an operation, and how many bytes a write wrote before. -/
structure Refusal where
  error : OsError
  written : ℕ

/-- A file worker: its user, the files it sees, and its uploads. -/
structure Worker where
  uid : ℕ
  files : String → Option FileNode
  uploads : String → Option UploadHandle

namespace Worker

/-- Put a file at a path, or take it away. -/
def setFile (w : Worker) (path : String) (node : Option FileNode) : Worker :=
  { w with files := Function.update w.files path node }

@[simp]
theorem setFile_files (w : Worker) (path : String) (node : Option FileNode) :
  (w.setFile path node).files = Function.update w.files path node
  := rfl

@[simp]
theorem setFile_uploads (w : Worker) (path : String) (node : Option FileNode) :
  (w.setFile path node).uploads = w.uploads
  := rfl

/-- Create a file where there is none. -/
def create (w : Worker) (path : String) (mode : ℕ) : Except OsError Unit × Worker :=
  match w.files path with
  | some node =>
      if node.acl.isDir then (.error (.other "Is a directory"), w) else (.ok (), w)
  | none =>
      match w.files (Path.dirname path) with
      | none => (.error (.fileNotFound "No such file or directory"), w)
      | some directory =>
          if directory.acl.isDir then
            (.ok (), w.setFile path (some ⟨w.uid, FileAcl.create directory.acl mode, []⟩))
          else (.error (.other "Not a directory"), w)

/-- Move a file to a path, in place of what is there. -/
def rename (w : Worker) (source target : String) : Except OsError Unit × Worker :=
  match w.files source, w.files (Path.dirname target) with
  | some node, some directory =>
      if !directory.acl.isDir then (.error (.other "Not a directory"), w)
      else if (w.files target).any fun node => node.acl.isDir then
        (.error (.other "Is a directory"), w)
      else if source = target then (.ok (), w)
      else (.ok (), (w.setFile target (some node)).setFile source none)
  | _, _ => (.error (.fileNotFound "No such file or directory"), w)

/-- Write to a file that is there. -/
def write (w : Worker) (path : String) (offset : ℤ) (data : List UInt8) :
    Except OsError ℤ × Worker :=
  match w.files path with
  | none => (.error (.fileNotFound "No such file or directory"), w)
  | some node =>
      if node.acl.isDir then (.error (.other "Is a directory"), w)
      else if offset < 0 then (.error (.other "Invalid argument"), w)
      else
        (.ok (offset + data.length),
          w.setFile path (some { node with content := writeAt node.content offset.toNat data }))

/-- The answer to an operation that the system does not refuse. -/
def perform (w : Worker) : (op : FileOp) → op.Answer × Worker
  | .exists path => ((w.files path).isSome, w)
  | .create path mode => w.create path mode
  | .getsize path =>
      match w.files path with
      | none => (.error (.fileNotFound "No such file or directory"), w)
      | some node => (.ok node.content.length, w)
  | .rename source target => w.rename source target
  | .remove path =>
      match w.files path with
      | none => (.error (.fileNotFound "No such file or directory"), w)
      | some node =>
          if node.acl.isDir then (.error (.other "Is a directory"), w)
          else (.ok (), w.setFile path none)
  | .write path offset data => w.write path offset data
  | .getHandle uploadId => (w.uploads uploadId, w)
  | .putHandle uploadId handle =>
      ((), { w with uploads := Function.update w.uploads uploadId (some handle) })
  | .popHandle uploadId =>
      (w.uploads uploadId, { w with uploads := Function.update w.uploads uploadId none })

/-- The answer to an operation that the system refuses. -/
def refuse (w : Worker) (refusal : Refusal) : (op : FileOp) → op.Answer × Worker
  | .create _ _ => (.error refusal.error, w)
  | .getsize _ => (.error refusal.error, w)
  | .rename _ _ => (.error refusal.error, w)
  | .remove _ => (.error refusal.error, w)
  | .write path offset data =>
      (.error refusal.error, (w.write path offset (data.take refusal.written)).2)
  | op => w.perform op

/-- The answer to an operation, given what the system refuses. -/
def answer (refuses : FileOp → Option Refusal) (w : Worker) (op : FileOp) : op.Answer × Worker :=
  match refuses op with
  | none => w.perform op
  | some refusal => w.refuse refusal op

variable {refuses : FileOp → Option Refusal} {w w' : Worker}

@[simp]
theorem answer_exists (path : String) :
  w.answer refuses (.exists path) = ((w.files path).isSome, w)
  := by
  rw [answer]
  split
  all_goals rfl

@[simp]
theorem answer_getHandle (uploadId : String) :
  w.answer refuses (.getHandle uploadId) = (w.uploads uploadId, w)
  := by
  rw [answer]
  split
  all_goals rfl

@[simp]
theorem answer_putHandle (uploadId : String) (handle : UploadHandle) :
  w.answer refuses (.putHandle uploadId handle)
    = ((), { w with uploads := Function.update w.uploads uploadId (some handle) })
  := by
  rw [answer]
  split
  all_goals rfl

@[simp]
theorem answer_popHandle (uploadId : String) :
  w.answer refuses (.popHandle uploadId)
    = (w.uploads uploadId, { w with uploads := Function.update w.uploads uploadId none })
  := by
  rw [answer]
  split
  all_goals rfl

/-- A file that is created in a directory. -/
theorem of_answer_create {path : String} {mode : ℕ} {directory : FileNode}
    (hdirectory : w.files (Path.dirname path) = some directory) (hfresh : w.files path = none)
    (h : w.answer refuses (.create path mode) = (.ok (), w')) :
  w' = w.setFile path (some ⟨w.uid, FileAcl.create directory.acl mode, []⟩)
  := by
  rw [answer] at h
  split at h
  · simp only [perform, create, hfresh, hdirectory] at h
    split at h
    · cases h
      rfl
    · cases h
  · cases h

/-- A file is created in a directory that is there. -/
theorem directory_of_answer_create {path : String} {mode : ℕ} (hfresh : w.files path = none)
    (h : w.answer refuses (.create path mode) = (.ok (), w')) :
  ∃ directory, w.files (Path.dirname path) = some directory
  := by
  cases hdirectory : w.files (Path.dirname path) with
  | some directory => use directory
  | none =>
      rw [answer] at h
      split at h
      · simp only [perform, create, hfresh, hdirectory] at h
        cases h
      · cases h

/-- A file that is moved. -/
theorem of_answer_rename {source target : String} {node : FileNode}
    (hsource : w.files source = some node)
    (h : w.answer refuses (.rename source target) = (.ok (), w')) :
  w'.files target = some node
  := by
  rw [answer] at h
  split at h
  · simp only [perform, rename, hsource] at h
    split at h
    · rename_i heq _
      cases heq
      split at h
      · cases h
      · split at h
        · cases h
        · split at h
          · rename_i hsame
            cases h
            rw [← hsame, hsource]
          · rename_i hne
            cases h
            simp [setFile, Function.update_of_ne (Ne.symm hne)]
    · cases h
  · cases h

/-- A file that is not moved changes nothing. -/
theorem of_answer_rename_error {source target : String} {e : OsError}
    (h : w.answer refuses (.rename source target) = (.error e, w')) :
  w' = w
  := by
  rw [answer] at h
  split at h
  · simp only [perform, rename] at h
    split at h
    · split at h
      · cases h
        rfl
      · split at h
        · cases h
          rfl
        · split at h
          · cases h
          · cases h
    · cases h
      rfl
  · cases h
    rfl

/-- A write changes nothing but the bytes of the file, whether it is refused or not. -/
theorem answer_write (path : String) (offset : ℤ) (data : List UInt8) :
  (w.answer refuses (.write path offset data)).2 = w
    ∨ ∃ node content, w.files path = some node
        ∧ (w.answer refuses (.write path offset data)).2
          = w.setFile path (some { node with content := content })
  := by
  have hwrite : ∀ data, (w.write path offset data).2 = w
      ∨ ∃ node content, w.files path = some node
          ∧ (w.write path offset data).2 = w.setFile path (some { node with content := content }) := by
    intro data
    rw [write]
    split
    · left
      rfl
    · rename_i node hnode
      split
      · left
        rfl
      · split
        · left
          rfl
        · right
          exact ⟨node, _, hnode, rfl⟩
  rw [answer]
  split
  · apply hwrite
  · apply hwrite

/-- The paths at which an operation may change a file. -/
def touched : FileOp → List String
  | .create path _ => [path]
  | .rename source target => [source, target]
  | .remove path => [path]
  | .write path _ _ => [path]
  | _ => []

/-- An operation leaves the files at the paths that it does not touch. -/
theorem files_answer_of_not_mem {path : String} {op : FileOp} (hpath : path ∉ touched op) :
  (w.answer refuses op).2.files path = w.files path
  := by
  have hset : ∀ path' node, path ≠ path' → (w.setFile path' node).files path = w.files path := by
    intro path' node hne
    apply Function.update_of_ne hne
  cases op with
  | create path' mode =>
      rw [touched, List.mem_singleton] at hpath
      rw [answer]
      split
      · simp only [perform, create]
        repeat' split
        all_goals first | rfl | apply hset _ _ hpath
      · rfl
  | rename source target =>
      rw [touched, List.mem_pair, not_or] at hpath
      rw [answer]
      split
      · simp only [perform, rename]
        repeat' split
        all_goals first
          | rfl
          | exact (Function.update_of_ne hpath.1 _ _).trans (hset _ _ hpath.2)
      · rfl
  | remove path' =>
      rw [touched, List.mem_singleton] at hpath
      rw [answer]
      split
      · simp only [perform]
        repeat' split
        all_goals first | rfl | apply hset _ _ hpath
      · rfl
  | write path' offset data =>
      rw [touched, List.mem_singleton] at hpath
      rcases w.answer_write path' offset data with hw | ⟨node, content, -, hw⟩
      · rw [hw]
      · rw [hw]
        apply hset _ _ hpath
  | getsize path' =>
      rw [answer]
      split
      · simp only [perform]
        split
        all_goals rfl
      · rfl
  | _ =>
      rw [answer]
      split
      all_goals rfl

/-- Only the operations on the uploads touch them. -/
theorem uploads_answer (w : Worker) {op : FileOp}
    (hput : ∀ id handle, op ≠ .putHandle id handle)
    (hpop : ∀ id, op ≠ .popHandle id) :
  (w.answer refuses op).2.uploads = w.uploads
  := by
  cases op with
  | putHandle id handle => apply absurd rfl (hput id handle)
  | popHandle id => apply absurd rfl (hpop id)
  | _ =>
      rw [answer]
      split
      all_goals simp only [perform, refuse, create, rename, write]
      all_goals repeat' split
      all_goals rfl

/-- The handle of an upload is found if it is registered. -/
theorem execute_handleOrRaise (uploadId : String) :
  (UploadsHandlers.handleOrRaise uploadId).run.execute (answer refuses) w
    = (match w.uploads uploadId with
        | some handle => .ok handle
        | none => .error (.rpcException "not_found" ("unknown upload_id: " ++ uploadId)), w)
  := by
  rw [UploadsHandlers.handleOrRaise, Async.execute_ask_bind, answer_getHandle]
  cases w.uploads uploadId
  all_goals rfl

end Worker
