import NasOs.Uploads.Worker

/-!
# The bytes of an upload

The bytes of an upload are those of its part file, and once it is complete those of the published
file.  A chunk that is written at their end is appended to them, or a part of it when the system
refuses to write the rest; nothing else that a worker does for a PATCH changes them.
-/

/-- The bytes of the upload of a handle: those of its part file while it is registered, and those of the
published file afterwards. -/
inductive HasBytes (w : Worker) (uploadId : String) (handle : UploadHandle) (content : List UInt8) :
    Prop where
  | part (node : FileNode) (registered : w.uploads uploadId = some handle)
      (isFile : w.files handle.partPath = some node) (notDir : node.acl.isDir = false)
      (content_eq : node.content = content)
  | published (node : FileNode) (registered : w.uploads uploadId = none)
      (isFile : w.files handle.destPath = some node) (content_eq : node.content = content)

/-- Writing at the end of a file appends to it. -/
theorem writeAt_length (content data : List UInt8) :
  writeAt content content.length data = content ++ data
  := by
  rw [writeAt]
  split
  · rename_i h
    simp [h]
  · simp

/-- Writing within a file or at its end makes it longer only by what goes past its end. -/
theorem length_writeAt {content : List UInt8} {offset : ℕ} (hoffset : offset ≤ content.length)
    (data : List UInt8) :
  (writeAt content offset data).length = max content.length (offset + data.length)
  := by
  rw [writeAt]
  split
  · rename_i h
    rw [h, List.length_nil]
    omega
  · simp only [List.length_append, List.length_take, List.length_replicate, List.length_drop]
    omega

section

variable {w : Worker} {uploadId : String} {handle : UploadHandle} {content : List UInt8}
  {refuses : FileOp → Option Refusal}

/-- The worker tells the size of the part file, and changes nothing. -/
theorem HasBytes.offset (h : HasBytes w uploadId handle content) :
  ((UploadsHandlers.offset uploadId).run.execute (Worker.answer refuses) w).2 = w
    ∧ ∀ size, ((UploadsHandlers.offset uploadId).run.execute (Worker.answer refuses) w).1 = .ok size →
        size = content.length ∧ w.uploads uploadId = some handle
  := by
  rw [UploadsHandlers.offset, ExceptT.run_bind, Coroutine.execute_bind,
    Worker.execute_handleOrRaise]
  rcases h with ⟨node, hregistered, hnode, -, rfl⟩ | ⟨node, hregistered, -, -⟩
  · simp only [hregistered]
    rw [Async.execute_ask_bind, Worker.answer]
    split
    · simp only [Worker.perform, hnode]
      use rfl
      rintro size ⟨⟩
      exact ⟨rfl, trivial⟩
    · use rfl
      rintro size ⟨⟩
  · simp only [hregistered]
    use rfl
    rintro size ⟨⟩

/-- A write within a file or at its end writes its data, or a part of it when the system refuses to
write the rest. -/
theorem Worker.answer_write_at {path : String} {node : FileNode} (hnode : w.files path = some node)
    (hdir : node.acl.isDir = false) (offset : ℕ) (data : List UInt8) :
  ∃ written, written <+: data
    ∧ (w.answer refuses (.write path offset data)).2
      = w.setFile path (some { node with content := writeAt node.content offset written })
    ∧ ∀ newOffset, (w.answer refuses (.write path offset data)).1 = .ok newOffset →
        written = data ∧ newOffset = ((offset + data.length : ℕ) : ℤ)
  := by
  have hwrite : ∀ data, w.write path offset data
      = (.ok (offset + data.length),
          w.setFile path (some { node with content := writeAt node.content offset data })) := by
    intro data
    have hpos : ¬ (offset : ℤ) < 0 := by omega
    simp only [write, hnode, hdir, Bool.false_eq_true, if_false, if_neg hpos, Int.toNat_natCast]
  rw [answer]
  split
  · use data, List.prefix_refl data
    simp only [perform, hwrite]
    refine ⟨trivial, ?_⟩
    rintro newOffset ⟨⟩
    refine ⟨trivial, ?_⟩
    rw [Nat.cast_add]
  · rename_i refusal _
    use data.take refusal.written, List.take_prefix _ _
    simp only [refuse, hwrite]
    refine ⟨trivial, ?_⟩
    rintro newOffset ⟨⟩

/-- A write at the end of the part file appends to it, or a part of it when the system refuses to
write the rest. -/
theorem Worker.answer_append {path : String} {node : FileNode} (hnode : w.files path = some node)
    (hdir : node.acl.isDir = false) (data : List UInt8) :
  ∃ written, written <+: data
    ∧ (w.answer refuses (.write path node.content.length data)).2
      = w.setFile path (some { node with content := node.content ++ written })
    ∧ ∀ offset, (w.answer refuses (.write path node.content.length data)).1 = .ok offset →
        written = data ∧ offset = (node.content ++ data).length
  := by
  obtain ⟨written, hwritten, hworker, hanswer⟩ :=
    @answer_write_at w refuses path node hnode hdir node.content.length data
  rw [writeAt_length] at hworker
  use written, hwritten, hworker
  intro offset hoffset
  obtain ⟨rfl, rfl⟩ := hanswer offset hoffset
  rw [List.length_append]
  exact ⟨rfl, rfl⟩

/-- A chunk is written to the part file at its offset, or a part of it; one for an upload that is not
registered is not written. -/
theorem HasBytes.uploadChunkAt (h : HasBytes w uploadId handle content) (offset : ℕ)
    (data : List UInt8) :
  ∃ written, written <+: data
    ∧ HasBytes ((Fileworker.uploadChunk uploadId offset data).run.execute
        (Worker.answer refuses) w).2 uploadId handle (writeAt content offset written)
    ∧ ((Fileworker.uploadChunk uploadId offset data).run.execute
        (Worker.answer refuses) w).2.uploads = w.uploads
    ∧ ∀ newOffset, ((Fileworker.uploadChunk uploadId offset data).run.execute
        (Worker.answer refuses) w).1 = .ok newOffset →
      written = data ∧ newOffset = ((offset + data.length : ℕ) : ℤ)
  := by
  have hstart := h
  rw [Fileworker.uploadChunk, Async.execute_ask_bind, Worker.answer_getHandle]
  rcases h with ⟨node, hregistered, hnode, hdir, rfl⟩ | ⟨node, hnone, -, -⟩
  · obtain ⟨written, hwritten, hworker, hanswer⟩ :=
      @Worker.answer_write_at w refuses handle.partPath node hnode hdir offset data
    have hpart : HasBytes (w.setFile handle.partPath
        (some { node with content := writeAt node.content offset written })) uploadId handle
        (writeAt node.content offset written) :=
      .part _ hregistered (Function.update_self _ _ _) hdir rfl
    use written, hwritten
    simp only [hregistered]
    change HasBytes (Coroutine.execute _ (.await (FileOp.write _ _ _) _) w).2 _ _ _
      ∧ (Coroutine.execute _ (.await (FileOp.write _ _ _) _) w).2.uploads = _
      ∧ ∀ newOffset, (Coroutine.execute _ (.await (FileOp.write _ _ _) _) w).1 = _ → _
    rw [Coroutine.execute_await]
    generalize w.answer refuses (.write handle.partPath offset data) = a at hworker hanswer
    obtain ⟨r, w'⟩ := a
    cases hworker
    cases r with
    | error e =>
        refine ⟨hpart, rfl, ?_⟩
        rintro newOffset ⟨⟩
    | ok answered =>
        refine ⟨hpart, rfl, ?_⟩
        rintro newOffset ⟨⟩
        apply hanswer answered rfl
  · use [], List.nil_prefix
    simp only [hnone]
    refine ⟨?_, rfl, ?_⟩
    · rw [writeAt, if_pos rfl]
      apply hstart
    · rintro newOffset ⟨⟩

/-- The completion of an upload keeps its bytes. -/
theorem HasBytes.complete (h : HasBytes w uploadId handle content) :
  HasBytes ((UploadsHandlers.complete uploadId).run.execute (Worker.answer refuses) w).2 uploadId handle
    content
  := by
  rw [UploadsHandlers.complete, ExceptT.run_bind, Coroutine.execute_bind,
    Worker.execute_handleOrRaise]
  have hstart := h
  rcases h with ⟨node, hregistered, hnode, hdir, rfl⟩ | ⟨node, hregistered, hnode, rfl⟩
  · simp only [hregistered]
    change HasBytes ((Async.ask _ >>= _ : FileM Unit).run.execute _ _).2 _ _ _
    rw [Async.execute_ask_bind]
    rcases hanswer : w.answer refuses (.rename handle.partPath handle.destPath) with ⟨_ | _, w'⟩
    · cases Worker.of_answer_rename_error hanswer
      apply hstart
    · have htarget := Worker.of_answer_rename hnode hanswer
      change HasBytes (w'.answer refuses (.popHandle uploadId)).2 _ _ _
      rw [Worker.answer_popHandle]
      apply HasBytes.published node
      · apply Function.update_self
      · apply htarget
      · rfl
  · simp only [hregistered]
    apply hstart

/-- The size of the part file. -/
def Worker.partSize (w : Worker) (handle : UploadHandle) : ℕ :=
  match w.files handle.partPath with
  | some node => node.content.length
  | none => 0

/-- The size of the part file of an upload that is registered. -/
theorem HasBytes.partSize (hbytes : HasBytes w uploadId handle content)
    (hregistered : w.uploads uploadId = some handle) :
  w.partSize handle = content.length
  := by
  rcases hbytes with ⟨node, -, hnode, -, rfl⟩ | ⟨node, hnone, -, -⟩
  · rw [Worker.partSize, hnode]
  · cases hregistered.symm.trans hnone

/-- An upload that was just begun has no bytes. -/
theorem HasBytes.begin {w' : Worker} {destPath : String}
    (hfresh : w.files (partPathFor destPath uploadId) = none)
    (h : (UploadsHandlers.begin destPath uploadId).run.execute (Worker.answer refuses) w
      = (.ok (), w')) :
  HasBytes w' uploadId ⟨destPath, partPathFor destPath uploadId⟩ []
  := by
  simp only [UploadsHandlers.begin, Coroutine.execute_exceptT_bind_eq_ok, Async.execute_ask,
    Async.execute_raiseIf_eq_ok, execute_raiseOs_eq_ok, Worker.answer_exists,
    Worker.answer_putHandle, Prod.mk.injEq] at h
  obtain ⟨found, _, ⟨_, rfl⟩, _, _, ⟨_, rfl⟩, created, _, ⟨hcreated, rfl⟩, _, _, ⟨hok, rfl⟩, _, rfl⟩ := h
  have hcreate : w.answer refuses (.create (partPathFor destPath uploadId) 0o600)
      = (.ok (), (w.answer refuses (.create (partPathFor destPath uploadId) 0o600)).2) := by
    rw [← hok, ← Except.ok.inj hcreated]
  obtain ⟨directory, hdirectory⟩ := Worker.directory_of_answer_create hfresh hcreate
  have hw := Worker.of_answer_create hdirectory hfresh hcreate
  apply HasBytes.part ⟨w.uid, FileAcl.create directory.acl 0o600, []⟩
  · simp
  · rw [hw]
    simp [Worker.setFile]
  · apply FileAcl.isDir_create
  · rfl

end
