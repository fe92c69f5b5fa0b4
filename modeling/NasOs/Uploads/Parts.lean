import NasOs.Uploads.Requests

/-!
# The part file of an upload

While an upload is under way its part file is in place, next to a destination where there is no other
file.  What the worker does for a request keeps it in place or publishes it, and the worker does
what it is asked where the system refuses nothing.
-/

/-- The part file of an upload is in place, with some bytes. -/
structure Placed (w : Worker) (uploadId : String) (handle : UploadHandle) (content : List UInt8) :
    Prop where
  registered : w.uploads uploadId = some handle
  isFile : ∃ node, w.files handle.partPath = some node ∧ node.acl.isDir = false
    ∧ node.content = content
  directory : ∃ node, w.files (Path.dirname handle.destPath) = some node ∧ node.acl.isDir = true
  clear : w.files handle.destPath = none ∨ handle.destPath = handle.partPath

/-- An upload is published: its bytes are at the destination and no part file is left. -/
structure Published (w : Worker) (uploadId : String) (handle : UploadHandle)
    (content : List UInt8) : Prop where
  unregistered : w.uploads uploadId = none
  isFile : ∃ node, w.files handle.destPath = some node ∧ node.content = content
  gone : handle.destPath ≠ handle.partPath → w.files handle.partPath = none

section

variable {w w' : Worker} {uploadId : String} {handle : UploadHandle} {content : List UInt8}
  {refuses : FileOp → Option Refusal}

/-- A file is created in a directory, and nowhere else. -/
theorem Worker.isDir_of_answer_create {path : String} {mode : ℕ} {directory : FileNode}
    (hdirectory : w.files (Path.dirname path) = some directory) (hfresh : w.files path = none)
    (h : w.answer refuses (.create path mode) = (.ok (), w')) :
  directory.acl.isDir = true
  := by
  rw [answer] at h
  split at h
  · simp only [perform, create, hfresh, hdirectory] at h
    split at h
    · assumption
    · cases h
  · cases h

/-- How a completion ends: as the rename does. -/
theorem Worker.execute_complete (hregistered : w.uploads uploadId = some handle) :
  (UploadsHandlers.complete uploadId).run.execute (answer refuses) w
    = match w.answer refuses (.rename handle.partPath handle.destPath) with
      | (.ok _, w') => (.ok (), { w' with uploads := Function.update w'.uploads uploadId none })
      | (.error e, w') => (.error (.rpcException "io_error" e.str), w')
  := by
  rw [UploadsHandlers.complete, ExceptT.run_bind, Coroutine.execute_bind, execute_handleOrRaise,
    hregistered]
  change Coroutine.execute _ (.await (FileOp.rename handle.partPath handle.destPath) _) w = _
  rw [Coroutine.execute_await]
  rcases w.answer refuses (.rename handle.partPath handle.destPath) with ⟨_ | _, w'⟩
  · rfl
  · change Coroutine.execute _ (.await (FileOp.popHandle uploadId) _) w' = _
    rw [Coroutine.execute_await, answer_popHandle]
    rfl

/-- How the write of a chunk ends: as the write to the part file does. -/
theorem Worker.execute_uploadChunk (hregistered : w.uploads uploadId = some handle) (start : ℤ)
    (data : List UInt8) :
  (Fileworker.uploadChunk uploadId start data).run.execute (answer refuses) w
    = match w.answer refuses (.write handle.partPath start data) with
      | (.ok offset, w') => (.ok offset, w')
      | (.error e, w') => (.error (.rpcCallError "io_error" e.str), w')
  := by
  rw [Fileworker.uploadChunk, Async.execute_ask_bind, answer_getHandle]
  simp only [hregistered]
  change Coroutine.execute _ (.await (FileOp.write handle.partPath start data) _) w = _
  rw [Coroutine.execute_await]
  rcases w.answer refuses (.write handle.partPath start data) with ⟨_ | _, w'⟩
  · rfl
  · rfl

/-- How an upload is given up: it is forgotten, and then its part file is removed. -/
theorem Worker.execute_abort (w : Worker) (uploadId : String) :
  (UploadsHandlers.abort uploadId).run.execute (answer refuses) w
    = match w.uploads uploadId with
      | none => (.ok (), { w with uploads := Function.update w.uploads uploadId none })
      | some handle =>
          match ({ w with uploads := Function.update w.uploads uploadId none } : Worker).answer refuses
            (.remove handle.partPath) with
          | (.error (.other message), w') => (.error (.other message), w')
          | (_, w') => (.ok (), w')
  := by
  rw [UploadsHandlers.abort, Async.execute_ask_bind, answer_popHandle]
  cases w.uploads uploadId with
  | none => rfl
  | some handle =>
      change Coroutine.execute _ (.await (FileOp.remove handle.partPath) _) _ = _
      rw [Coroutine.execute_await]
      dsimp only
      rcases ({ w with uploads := Function.update w.uploads uploadId none } : Worker).answer refuses
        (.remove handle.partPath) with ⟨(_ | _) | _, w'⟩
      all_goals rfl

/-- The paths that the worker knows of an upload. -/
def Worker.pathsOf (w : Worker) (uploadId : String) : List String :=
  match w.uploads uploadId with
  | none => []
  | some handle => [handle.partPath, handle.destPath]

/-- A worker changed nothing but the files of an upload, which it may also have forgotten. -/
structure Worker.OnlyOf (w w' : Worker) (uploadId : String) : Prop where
  files : ∀ path ∉ w.pathsOf uploadId, w'.files path = w.files path
  uploads : ∀ id ≠ uploadId, w'.uploads id = w.uploads id
  registered : w'.uploads uploadId = none ∨ w'.uploads uploadId = w.uploads uploadId

theorem Worker.onlyOf_refl (w : Worker) (uploadId : String) :
  w.OnlyOf w uploadId
  := ⟨fun _ _ => rfl, fun _ _ => rfl, Or.inr rfl⟩

/-- An operation on the files of an upload changes nothing else. -/
theorem Worker.onlyOf_answer {op : FileOp} (hregistered : w.uploads uploadId = some handle)
    (htouched : ∀ path ∈ touched op, path = handle.partPath ∨ path = handle.destPath)
    (hput : ∀ id handle, op ≠ .putHandle id handle) (hpop : ∀ id, op ≠ .popHandle id) :
  w.OnlyOf (w.answer refuses op).2 uploadId
  := by
  have huploads := @uploads_answer refuses w op hput hpop
  constructor
  · intro path hpath
    apply files_answer_of_not_mem
    intro hmem
    apply hpath
    rw [pathsOf, hregistered, List.mem_pair]
    apply htouched path hmem
  · intro id _
    rw [huploads]
  · right
    rw [huploads]

/-- Forgetting the upload changes nothing else. -/
theorem Worker.OnlyOf.popHandle (h : w.OnlyOf w' uploadId) :
  w.OnlyOf { w' with uploads := Function.update w'.uploads uploadId none } uploadId
  := by
  constructor
  · apply h.files
  · intro id hid
    rw [← h.uploads id hid]
    apply Function.update_of_ne hid
  · left
    apply Function.update_self

/-- A completion concerns only its upload. -/
theorem Worker.onlyOf_complete (w : Worker) (uploadId : String) :
  w.OnlyOf ((UploadsHandlers.complete uploadId).run.execute (answer refuses) w).2 uploadId
  := by
  cases hregistered : w.uploads uploadId with
  | none =>
      rw [UploadsHandlers.complete, ExceptT.run_bind, Coroutine.execute_bind, execute_handleOrRaise,
        hregistered]
      apply onlyOf_refl
  | some handle =>
      have hrename := @onlyOf_answer w uploadId handle refuses
        (.rename handle.partPath handle.destPath) hregistered (by simp [touched]) (by simp) (by simp)
      rw [execute_complete hregistered]
      generalize w.answer refuses (.rename handle.partPath handle.destPath) = a at hrename
      rcases a with ⟨_ | _, w'⟩
      · apply hrename
      · apply hrename.popHandle

/-- The write of a chunk concerns only its upload. -/
theorem Worker.onlyOf_uploadChunk (w : Worker) (uploadId : String) (start : ℤ) (data : List UInt8) :
  w.OnlyOf ((Fileworker.uploadChunk uploadId start data).run.execute (answer refuses) w).2 uploadId
  := by
  cases hregistered : w.uploads uploadId with
  | none =>
      rw [Fileworker.uploadChunk, Async.execute_ask_bind, answer_getHandle, hregistered]
      apply onlyOf_refl
  | some handle =>
      have hwrite := @onlyOf_answer w uploadId handle refuses (.write handle.partPath start data)
        hregistered (by simp [touched]) (by simp) (by simp)
      rw [execute_uploadChunk hregistered]
      generalize w.answer refuses (.write handle.partPath start data) = a at hwrite
      rcases a with ⟨_ | _, w'⟩
      all_goals apply hwrite

/-- Giving an upload up concerns only it. -/
theorem Worker.onlyOf_abort (w : Worker) (uploadId : String) :
  w.OnlyOf ((UploadsHandlers.abort uploadId).run.execute (answer refuses) w).2 uploadId
  := by
  have hpopped := (onlyOf_refl w uploadId).popHandle
  rw [execute_abort]
  cases hregistered : w.uploads uploadId with
  | none => apply hpopped
  | some handle =>
      let popped : Worker := { w with uploads := Function.update w.uploads uploadId none }
      have hremove : w.OnlyOf (popped.answer refuses (.remove handle.partPath)).2 uploadId := by
        have huploads := @uploads_answer refuses popped (.remove handle.partPath) (by simp) (by simp)
        constructor
        · intro path hpath
          rw [pathsOf, hregistered, List.mem_pair, not_or] at hpath
          apply files_answer_of_not_mem (w := popped)
          rw [touched, List.mem_singleton]
          apply hpath.1
        · intro id hid
          rw [huploads]
          apply hpopped.uploads id hid
        · rw [huploads]
          apply hpopped.registered
      dsimp only
      generalize popped.answer refuses (.remove handle.partPath) = a at hremove
      rcases a with ⟨(_ | _) | _, w'⟩
      all_goals apply hremove

/-- The beginning of an upload concerns only its part file and its registration. -/
theorem Worker.execute_begin (w : Worker) (destPath uploadId : String) :
  (∀ path, path ≠ partPathFor destPath uploadId →
      ((UploadsHandlers.begin destPath uploadId).run.execute (answer refuses) w).2.files path
        = w.files path)
    ∧ (∀ id, id ≠ uploadId →
      ((UploadsHandlers.begin destPath uploadId).run.execute (answer refuses) w).2.uploads id
        = w.uploads id)
    ∧ (((UploadsHandlers.begin destPath uploadId).run.execute (answer refuses) w).2.uploads uploadId
        = w.uploads uploadId
      ∨ ((UploadsHandlers.begin destPath uploadId).run.execute (answer refuses) w).2.uploads uploadId
        = some ⟨destPath, partPathFor destPath uploadId⟩)
  := by
  have hfiles : ∀ path, path ≠ partPathFor destPath uploadId →
      (w.answer refuses (.create (partPathFor destPath uploadId) 0o600)).2.files path = w.files path := by
    intro path hpath
    apply files_answer_of_not_mem
    rw [touched, List.mem_singleton]
    apply hpath
  have huploads := @uploads_answer refuses w (.create (partPathFor destPath uploadId) 0o600) (by simp)
    (by simp)
  rw [UploadsHandlers.begin, Async.execute_ask_bind, answer_exists]
  by_cases hfound : (w.files destPath).isSome = true
  · rw [Async.raiseIf_bind_of hfound]
    exact ⟨fun _ _ => rfl, fun _ _ => rfl, Or.inl rfl⟩
  · rw [Async.raiseIf_bind_of_not hfound]
    simp only [Async.execute_ask_bind]
    generalize w.answer refuses (.create (partPathFor destPath uploadId) 0o600) = a at hfiles huploads
    obtain ⟨_ | _, w'⟩ := a
    · exact ⟨hfiles, fun id _ => congrFun huploads id, Or.inl (congrFun huploads uploadId)⟩
    · change (∀ path, _ → (w'.answer refuses (.putHandle _ _)).2.files path = _)
        ∧ (∀ id, _ → (w'.answer refuses (.putHandle _ _)).2.uploads id = _)
        ∧ ((w'.answer refuses (.putHandle _ _)).2.uploads uploadId = _
          ∨ (w'.answer refuses (.putHandle _ _)).2.uploads uploadId = _)
      rw [answer_putHandle]
      refine ⟨hfiles, ?_, Or.inr (Function.update_self _ _ _)⟩
      intro id hid
      apply (Function.update_of_ne hid _ _).trans (congrFun huploads id)

/-- A file that is moved is no longer where it was. -/
theorem Worker.gone_of_answer_rename {source target : String} (hne : source ≠ target)
    (h : w.answer refuses (.rename source target) = (.ok (), w')) :
  w'.files source = none
  := by
  rw [answer] at h
  split at h
  · simp only [perform, rename] at h
    split at h
    · split at h
      · cases h
      · split at h
        · cases h
        · cases h
          apply Function.update_self
    · cases h
  · cases h

/-- The question for the size of a part file changes nothing. -/
theorem Worker.execute_offset (w : Worker) (uploadId : String) :
  ((UploadsHandlers.offset uploadId).run.execute (answer refuses) w).2 = w
  := by
  rw [UploadsHandlers.offset, ExceptT.run_bind, Coroutine.execute_bind, execute_handleOrRaise]
  cases w.uploads uploadId with
  | none => rfl
  | some handle =>
      change ((Async.ask _ >>= _ : FileM ℕ).run.execute _ w).2 = w
      rw [Async.execute_ask_bind]
      have hsame : (w.answer refuses (.getsize handle.partPath)).2 = w := by
        rw [answer]
        split
        · simp only [perform]
          split
          all_goals rfl
        · rfl
      rw [hsame]
      cases (w.answer refuses (.getsize handle.partPath)).1
      all_goals rfl

/-- The part file of an upload that has begun is in place. -/
theorem Placed.begin {destPath : String} {id : UuidHex}
    (hfresh : w.files (partPathFor destPath id.text) = none)
    (h : (UploadsHandlers.begin destPath id.text).run.execute (Worker.answer refuses) w
      = (.ok (), w')) :
  Placed w' id.text ⟨destPath, partPathFor destPath id.text⟩ []
  := by
  simp only [UploadsHandlers.begin, Coroutine.execute_exceptT_bind_eq_ok, Async.execute_ask,
    Async.execute_raiseIf_eq_ok, execute_raiseOs_eq_ok, Worker.answer_exists,
    Worker.answer_putHandle, Prod.mk.injEq] at h
  obtain ⟨found, _, ⟨hfound, rfl⟩, _, _, ⟨hno, rfl⟩, created, _, ⟨hcreated, rfl⟩, _, _, ⟨hok, rfl⟩, _, rfl⟩ := h
  have hdest : w.files destPath = none := by
    rw [← Except.ok.inj hfound] at hno
    simpa using hno
  have hcreate : w.answer refuses (.create (partPathFor destPath id.text) 0o600)
      = (.ok (), (w.answer refuses (.create (partPathFor destPath id.text) 0o600)).2) := by
    rw [← hok, ← Except.ok.inj hcreated]
  obtain ⟨directory, hdirectory⟩ := Worker.directory_of_answer_create hfresh hcreate
  have hisDir := Worker.isDir_of_answer_create hdirectory hfresh hcreate
  have hw := Worker.of_answer_create hdirectory hfresh hcreate
  rw [dirname_partPathFor] at hdirectory
  rw [hw]
  constructor
  · apply Function.update_self
  · use ⟨w.uid, FileAcl.create directory.acl 0o600, []⟩
    exact ⟨Function.update_self _ _ _, FileAcl.isDir_create _ _, rfl⟩
  · use directory
    refine ⟨?_, hisDir⟩
    rw [Worker.setFile_files, Function.update_of_ne, hdirectory]
    intro hsame
    rw [hsame, hfresh] at hdirectory
    cases hdirectory
  · by_cases hsame : destPath = partPathFor destPath id.text
    · right
      apply hsame
    · left
      rw [Worker.setFile_files, Function.update_of_ne hsame, hdest]

/-- The creation of a file that fails changes nothing. -/
theorem Worker.of_answer_create_error {path : String} {mode : ℕ} {e : OsError}
    (h : w.answer refuses (.create path mode) = (.error e, w')) :
  w' = w
  := by
  rw [answer] at h
  split at h
  · simp only [perform, create] at h
    split at h
    · split at h
      · cases h
        rfl
      · cases h
    · split at h
      · cases h
        rfl
      · split at h
        · cases h
        · cases h
          rfl
  · cases h
    rfl

/-- An upload that does not begin changes nothing. -/
theorem Worker.of_begin_error {destPath uploadId : String} {e : Exc}
    (h : (UploadsHandlers.begin destPath uploadId).run.execute (answer refuses) w = (.error e, w')) :
  w' = w
  := by
  rw [UploadsHandlers.begin, Async.execute_ask_bind, answer_exists] at h
  by_cases hfound : (w.files destPath).isSome = true
  · rw [Async.raiseIf_bind_of hfound] at h
    cases h
    rfl
  · rw [Async.raiseIf_bind_of_not hfound] at h
    change Coroutine.execute _ (.await (FileOp.create _ _) _) w = _ at h
    rw [Coroutine.execute_await] at h
    rcases hanswer : w.answer refuses (.create (partPathFor destPath uploadId) 0o600) with ⟨e' | _, w''⟩
    · rw [hanswer] at h
      cases h
      apply of_answer_create_error hanswer
    · rw [hanswer] at h
      cases h

/-- The worker tells the size of the part file where the system lets it. -/
theorem Placed.offset (h : Placed w uploadId handle content) :
  (UploadsHandlers.offset uploadId).run.execute (Worker.answer fun _ => none) w
    = (.ok content.length, w)
  := by
  obtain ⟨node, hnode, -, rfl⟩ := h.isFile
  rw [UploadsHandlers.offset, ExceptT.run_bind, Coroutine.execute_bind, Worker.execute_handleOrRaise,
    h.registered]
  change (Async.ask _ >>= _ : FileM ℕ).run.execute _ _ = _
  rw [Async.execute_ask_bind]
  simp only [Worker.answer, Worker.perform, hnode]
  rfl

/-- Changing the bytes of the part file keeps it in place. -/
theorem Placed.setContent (h : Placed w uploadId handle content) {node : FileNode}
    (hnode : w.files handle.partPath = some node) (content' : List UInt8) :
  Placed (w.setFile handle.partPath (some { node with content := content' })) uploadId handle content'
  := by
  obtain ⟨node', hnode', hdir, -⟩ := h.isFile
  cases hnode.symm.trans hnode'
  constructor
  · apply h.registered
  · refine ⟨_, Function.update_self _ _ _, hdir, rfl⟩
  · obtain ⟨directory, hdirectory, hisDir⟩ := h.directory
    use directory
    refine ⟨?_, hisDir⟩
    rw [Worker.setFile_files, Function.update_of_ne, hdirectory]
    intro hsame
    rw [hsame, hnode] at hdirectory
    cases hdirectory
    rw [hdir] at hisDir
    cases hisDir
  · rcases h.clear with hclear | hsame
    · left
      rw [Worker.setFile_files, Function.update_of_ne, hclear]
      intro hsame
      rw [hsame, hnode] at hclear
      cases hclear
    · right
      apply hsame

/-- A chunk is appended to the part file, or a part of it where the system refuses the rest. -/
theorem Placed.uploadChunk (h : Placed w uploadId handle content) (data : List UInt8) :
  ∃ written, written <+: data
    ∧ Placed ((Fileworker.uploadChunk uploadId content.length data).run.execute
        (Worker.answer refuses) w).2 uploadId handle (content ++ written)
    ∧ ((∃ e op, ((Fileworker.uploadChunk uploadId content.length data).run.execute
          (Worker.answer refuses) w).1 = .error e ∧ refuses op ≠ none)
      ∨ written = data ∧ ((Fileworker.uploadChunk uploadId content.length data).run.execute
          (Worker.answer refuses) w).1 = .ok ((content ++ data).length : ℤ))
  := by
  obtain ⟨node, hnode, hdir, rfl⟩ := h.isFile
  obtain ⟨written, hwritten, hworker, hanswer⟩ :=
    @Worker.answer_append w refuses handle.partPath node hnode hdir data
  have hplaced := h.setContent hnode (node.content ++ written)
  use written, hwritten
  rw [Worker.execute_uploadChunk h.registered]
  have hrefused : ∀ e, (w.answer refuses (.write handle.partPath node.content.length data)).1 = .error e →
      refuses (.write handle.partPath node.content.length data) ≠ none := by
    intro e he hnone
    have hpos : ¬ (node.content.length : ℤ) < 0 := by omega
    simp only [Worker.answer, hnone, Worker.perform, Worker.write, hnode, hdir, Bool.false_eq_true,
      if_false, if_neg hpos] at he
    cases he
  generalize w.answer refuses (.write handle.partPath node.content.length data) = a
    at hworker hanswer hrefused
  obtain ⟨r, w'⟩ := a
  cases hworker
  cases r with
  | error e =>
      use hplaced
      left
      exact ⟨_, _, rfl, hrefused e rfl⟩
  | ok newOffset =>
      use hplaced
      right
      obtain ⟨rfl, hoffset⟩ := hanswer newOffset rfl
      exact ⟨rfl, congrArg Except.ok hoffset⟩

/-- The completion of an upload publishes it, or is refused and changes nothing. -/
theorem Placed.complete (h : Placed w uploadId handle content) :
  ((∃ e op, ((UploadsHandlers.complete uploadId).run.execute (Worker.answer refuses) w).1 = .error e
        ∧ refuses op ≠ none)
      ∧ ((UploadsHandlers.complete uploadId).run.execute (Worker.answer refuses) w).2 = w)
    ∨ ((UploadsHandlers.complete uploadId).run.execute (Worker.answer refuses) w).1 = .ok ()
      ∧ Published ((UploadsHandlers.complete uploadId).run.execute (Worker.answer refuses) w).2
        uploadId handle content
  := by
  obtain ⟨node, hnode, hdir, hcontent⟩ := h.isFile
  obtain ⟨directory, hdirectory, hisDir⟩ := h.directory
  have htarget : ((w.files handle.destPath).any fun node => node.acl.isDir) = false := by
    rcases h.clear with hclear | hsame
    · rw [hclear]
      rfl
    · rw [hsame, hnode]
      apply hdir
  have hpublished : ∀ w' : Worker, w'.files handle.destPath = some node →
      (handle.destPath ≠ handle.partPath → w'.files handle.partPath = none) →
      Published { w' with uploads := Function.update w'.uploads uploadId none } uploadId handle content := by
    intro w' hdest hgone
    exact ⟨Function.update_self _ _ _, ⟨node, hdest, hcontent⟩, hgone⟩
  rw [Worker.execute_complete h.registered]
  cases hrefuses : refuses (.rename handle.partPath handle.destPath) with
  | some refusal =>
      left
      simp only [Worker.answer, hrefuses, Worker.refuse]
      exact ⟨⟨_, _, rfl, by rw [hrefuses]; simp⟩, trivial⟩
  | none =>
      right
      simp only [Worker.answer, hrefuses, Worker.perform, Worker.rename, hnode, hdirectory, hisDir,
        htarget, Bool.not_true, Bool.false_eq_true, if_false]
      by_cases hsame : handle.partPath = handle.destPath
      · rw [if_pos hsame]
        use rfl
        apply hpublished w
        · rw [← hsame, hnode]
        · intro hne
          apply absurd hsame.symm hne
      · rw [if_neg hsame]
        use rfl
        apply hpublished
        · rw [Worker.setFile_files, Function.update_of_ne (Ne.symm hsame)]
          apply Function.update_self
        · intro _
          apply Function.update_self

end

/-! ### The creation of an upload -/

/-- What is left of the beginning of an upload: nothing, or a part file in place, with a row or
without. -/
inductive Begun {id : UuidHex} {α : Type} (world : UploadWorld id.text) (upload : Upload) :
    Except Exc α → UploadWorld id.text → Prop where
  | nothing (e : Exc) : Begun world upload (.error e) world
  | part (e : Exc) (world' : UploadWorld id.text) (handle : UploadHandle)
      (placed : Placed world'.worker id.text handle []) (row : world'.row = world.row) :
      Begun world upload (.error e) world'
  | created (r : Except Exc α) (world' : UploadWorld id.text) (handle : UploadHandle)
      (placed : Placed world'.worker id.text handle []) (row : world'.row = some upload) :
      Begun world upload r world'

section

variable {id : UuidHex} {world : UploadWorld id.text} {volumes : List (String × ℕ)}

/-- Looking for free space changes nothing. -/
theorem ensures_checkFreeSpace (destDir : String) (size : ℤ) (script : Script) :
  (UploadsService.checkFreeSpace destDir size).run.Ensures (UploadWorld.answerTusBy volumes)
    (fun _ _ => True) (fun _ s => s.1 = world) (world, script)
  := by
  rw [UploadsService.checkFreeSpace]
  apply Coroutine.Ensures.exceptT_bind (Q := fun _ s => s.1 = world)
  · intro _
    apply PatchChoice.of_getD_outcome (P := fun world' => world' = world) _ rfl rfl
  · rintro mountpoints ⟨world', script'⟩ rfl
    cases UploadsService.volumeFor mountpoints destDir with
    | none => rfl
    | some mountpoint =>
        apply Coroutine.Ensures.exceptT_bind (Q := fun _ s => s.1 = world')
        · intro _
          apply PatchChoice.of_getD_outcome (P := fun world'' => world'' = world') _ rfl rfl
        · rintro free s hs
          rw [Async.raiseIf]
          split
          all_goals apply hs
        · intro e s hs
          apply hs
  · intro e s hs
    apply hs

/-- `files.upload_begin` changes nothing, or leaves a part file in place, of an upload whose length is not
negative. -/
theorem answer_uploadBegin
    (hfresh : ∀ destPath, world.worker.files (partPathFor destPath id.text) = none)
    (destPath : String) (size : ℤ) (choice : PatchChoice) :
  ((world.answerTus volumes (.uploadBegin id.text destPath size) choice).2 = world
      ∧ ∃ e, (world.answerTus volumes (.uploadBegin id.text destPath size) choice).1 = .error e)
    ∨ Placed (world.answerTus volumes (.uploadBegin id.text destPath size) choice).2.worker id.text
        ⟨destPath, partPathFor destPath id.text⟩ []
      ∧ (world.answerTus volumes (.uploadBegin id.text destPath size) choice).2.row = world.row
      ∧ 0 ≤ size
  := by
  let call : FileM Unit := AgentClient.call (fun _ : Unit => uploadBeginError destPath size)
    (fun _ => UploadsHandlers.begin destPath id.text) ()
  rcases hdone : call.run.execute (Worker.answer choice.refuses) world.worker with ⟨r, w'⟩
  have hcases : (w' = world.worker ∧ ∃ e, r = .error e)
      ∨ Placed w' id.text ⟨destPath, partPathFor destPath id.text⟩ [] ∧ 0 ≤ size := by
    cases hvalid : uploadBeginError destPath size with
    | some message =>
        have hcall : call.run = .done (.error (.other message)) := AgentClient.call_of_invalid hvalid
        rw [hcall] at hdone
        cases hdone
        left
        exact ⟨rfl, _, rfl⟩
    | none =>
        have hcall := @AgentClient.execute_call _ _ _ _ (fun _ : Unit => uploadBeginError destPath size)
          (fun _ => UploadsHandlers.begin destPath id.text) () _ (Worker.answer choice.refuses) hvalid
          world.worker
        rw [hcall] at hdone
        rcases hbegin : (UploadsHandlers.begin destPath id.text).run.execute
          (Worker.answer choice.refuses) world.worker with ⟨e | _, w''⟩
        · rw [hbegin] at hdone
          cases hdone
          left
          exact ⟨Worker.of_begin_error hbegin, _, rfl⟩
        · rw [hbegin] at hdone
          cases hdone
          right
          refine ⟨Placed.begin (hfresh destPath) hbegin, ?_⟩
          by_contra hsize
          rw [uploadBeginError, if_pos (Or.inr (Or.inr (not_le.mp hsize)))] at hvalid
          cases hvalid
  have hanswer : world.answerTus volumes (.uploadBegin id.text destPath size) choice
      = (world.atWorker call choice).getD (.error cancelled, world) := rfl
  rw [hanswer]
  rcases world.getD_atWorker call choice hdone cancelled with h | ⟨-, e, h | h⟩
  · rw [h]
    rcases hcases with ⟨rfl, hr⟩ | ⟨hplaced, hsize⟩
    · left
      exact ⟨rfl, hr⟩
    · right
      exact ⟨hplaced, rfl, hsize⟩
  · rw [h]
    rcases hcases with ⟨rfl, -⟩ | ⟨hplaced, hsize⟩
    · left
      exact ⟨rfl, e, rfl⟩
    · right
      exact ⟨hplaced, rfl, hsize⟩
  · rw [h]
    left
    exact ⟨rfl, e, rfl⟩

/-- What is left after an exception is left after another. -/
theorem Begun.error {α β : Type} {world' : UploadWorld id.text} {upload : Upload} {e : Exc}
    (h : Begun world upload (.error e : Except Exc α) world') (e' : Exc) :
  Begun world upload (.error e' : Except Exc β) world'
  := by
  cases h with
  | nothing => apply Begun.nothing
  | part _ _ handle hplaced hrow => apply Begun.part e' world' handle hplaced hrow
  | created _ _ handle hplaced hrow => apply Begun.created _ world' handle hplaced hrow

/-- An upload that began has a row, whatever comes after. -/
theorem Begun.ok {α β : Type} {world' : UploadWorld id.text} {upload : Upload} {a : α}
    (h : Begun world upload (.ok a) world') (r : Except Exc β) :
  Begun world upload r world'
  := by
  cases h with
  | created _ _ handle hplaced hrow => apply Begun.created r world' handle hplaced hrow

/-- What `begin_upload` leaves; it leaves something only where the length is not negative. -/
theorem ensures_beginUpload
    (hfresh : ∀ destPath, world.worker.files (partPathFor destPath id.text) = none)
    (uid : ℕ) (destDir filename : String) (size : ℤ) (script : Script) :
  (UploadsService.beginUpload id.text uid destDir filename size).run.Ensures
    (UploadWorld.answerTusBy volumes) (fun _ _ => True)
    (fun r s => Begun world ⟨id.text, uid, size⟩ r s.1 ∧ (s.1 = world ∨ 0 ≤ size)) (world, script)
  := by
  apply (ensures_checkFreeSpace destDir size script).exceptT_bind
  · rintro _ ⟨world', script'⟩ rfl
    apply Coroutine.Ensures.exceptT_bind
      (Q := fun r s => (s.1 = world' ∧ ∃ e, r = .error e)
        ∨ ∃ handle, Placed s.1.worker id.text handle [] ∧ s.1.row = world'.row ∧ 0 ≤ size)
    · apply Coroutine.Ensures.tryCatch
        (Q := fun r s => (s.1 = world' ∧ ∃ e, r = .error e)
          ∨ ∃ handle, Placed s.1.worker id.text handle [] ∧ s.1.row = world'.row ∧ 0 ≤ size)
      · intro _
        rcases @answer_uploadBegin id world' volumes hfresh (Path.join destDir filename) size (script' 0)
          with h | ⟨hplaced, hrow, hsize⟩
        · left
          apply h
        · right
          exact ⟨_, hplaced, hrow, hsize⟩
      · intro _ s h
        apply h
      · rintro e s (⟨hs, -⟩ | h)
        · cases e
          all_goals exact Or.inl ⟨hs, _, rfl⟩
        · cases e
          all_goals exact Or.inr h
    · rintro _ ⟨world'', script''⟩ (⟨-, e, ⟨⟩⟩ | ⟨handle, hplaced, hrow, hsize⟩)
      intro _
      have hanswer := (script'' 0).getD_outcome
        (Except.ok (), ({ world'' with row := some ⟨id.text, uid, size⟩, row_id := by simp } :
          UploadWorld id.text)) world'' cancelled
      have hdone : world''.answerTus volumes (.addUpload ⟨id.text, uid, size⟩) (script'' 0)
          = ((script'' 0).outcome (Except.ok (),
            ({ world'' with row := some ⟨id.text, uid, size⟩, row_id := by simp } :
              UploadWorld id.text)) world'').getD (.error cancelled, world'') := by
        change (PatchChoice.outcome _ (_, dite _ _ _) _).getD _ = _
        rw [dif_pos rfl]
        rfl
      change Coroutine.Ensures _ _ _
        (Coroutine.bind (.done (world''.answerTus volumes (.addUpload ⟨id.text, uid, size⟩)
          (script'' 0)).1) _)
        ((world''.answerTus volumes (.addUpload ⟨id.text, uid, size⟩) (script'' 0)).2, script''.rest)
      rw [hdone]
      rcases hanswer with h | ⟨-, e, h | h⟩
      · rw [h]
        exact ⟨Begun.created (.ok _)
          { world'' with row := some ⟨id.text, uid, size⟩, row_id := by simp } handle hplaced rfl,
          Or.inr hsize⟩
      · rw [h]
        exact ⟨Begun.created (.error e)
          { world'' with row := some ⟨id.text, uid, size⟩, row_id := by simp } handle hplaced rfl,
          Or.inr hsize⟩
      · rw [h]
        exact ⟨Begun.part e world'' handle hplaced hrow, Or.inr hsize⟩
    · rintro e s (⟨rfl, -⟩ | ⟨handle, hplaced, hrow, hsize⟩)
      · exact ⟨Begun.nothing e, Or.inl rfl⟩
      · exact ⟨Begun.part e _ handle hplaced hrow, Or.inr hsize⟩
  · rintro e ⟨world', script'⟩ rfl
    exact ⟨Begun.nothing e, Or.inl rfl⟩

/-- What a POST leaves; it leaves something only where the length is not negative. -/
theorem ensures_createUpload
    (hfresh : ∀ destPath, world.worker.files (partPathFor destPath id.text) = none)
    (request : PostRequest) (script : Script) :
  (UploadsApi.createUpload id.text request).run.Ensures (UploadWorld.answerTusBy volumes)
    (fun _ _ => True)
    (fun r s => (s.1 = world ∧ ∃ e, r = .error e)
      ∨ ∃ size, request.size = some size ∧ Begun world ⟨id.text, request.uid, size⟩ r s.1
        ∧ (s.1 = world ∨ 0 ≤ size))
    (world, script)
  := by
  rw [UploadsApi.createUpload]
  by_cases hlength : request.uploadLength.isNone = true
  · rw [Async.raiseIf_bind_of hlength]
    left
    exact ⟨rfl, _, rfl⟩
  · rw [Async.raiseIf_bind_of_not hlength]
    cases hsize : request.size with
    | none =>
        left
        exact ⟨rfl, _, rfl⟩
    | some size =>
        cases hmetadata : UploadsApi.parseMetadata request.uploadMetadata with
        | error e =>
            left
            exact ⟨rfl, _, rfl⟩
        | ok metadata =>
            simp only [Async.ofExcept_ok_bind]
            by_cases hempty : (metadata.lookup "filename").getD "" = ""
                ∨ (metadata.lookup "dir").getD "" = ""
            · rw [Async.raiseIf_bind_of hempty]
              left
              exact ⟨rfl, _, rfl⟩
            · rw [Async.raiseIf_bind_of_not hempty]
              apply Coroutine.Ensures.exceptT_bind
                (Q := fun r s => Begun world ⟨id.text, request.uid, size⟩ r s.1
                  ∧ (s.1 = world ∨ 0 ≤ size))
              · apply (ensures_beginUpload hfresh _ _ _ size script).tryCatch
                · intro upload s h
                  apply h
                · rintro e s h
                  cases e
                  all_goals exact ⟨h.1.error _, h.2⟩
              · rintro upload s h
                right
                exact ⟨size, rfl, h.1.ok _, h.2⟩
              · rintro e s h
                right
                exact ⟨size, rfl, h.1.error e, h.2⟩

end
