import NasOs.Uploads.Rows

/-!
# Part files that a DELETE reaches

When no worker is restarted while an upload is under way, no part file is refused its removal, and nothing
fails between the beginning of an upload and the commit of its row, then in every run of requests for
uploads a part file that is on disk once its POST was answered has a row and a handle, and a DELETE removes
it; once a DELETE was answered with success, the part file is gone.
-/

namespace UploadsWorld

variable {volumes : List (String × ℕ)} {world world' : UploadsWorld} {choice : PatchChoice}

/-- A world is made of its worker and its rows. -/
theorem eq_of_parts (hworker : world'.worker = world.worker) (hrows : world'.rows = world.rows) :
  world' = world
  := by
  obtain ⟨worker, rows, rows_id⟩ := world
  obtain ⟨worker', rows', rows_id'⟩ := world'
  cases hworker
  cases hrows
  rfl

@[simp]
theorem put_upload (world : UploadsWorld) (uploadId : String) :
  world.put (world.upload uploadId) = world
  := by
  apply eq_of_parts
  · rfl
  · apply Function.update_eq_self

/-- How an operation that the worker runs turned out. -/
theorem of_atWorker {α : Type} {uploadId : String} {c : FileM α} {r : Except Exc α}
    {part : UploadWorld uploadId} (h : (world.upload uploadId).atWorker c choice = some (r, part)) :
  (choice.reached = true ∧ (world.put part).rows = world.rows
      ∧ (world.put part).worker = (c.run.execute (Worker.answer choice.refuses) world.worker).2
      ∧ (choice.raises = none ∧ r = (c.run.execute (Worker.answer choice.refuses) world.worker).1
        ∨ ∃ e, choice.raises = some e ∧ r = .error e))
    ∨ world.put part = world ∧ ∃ e, r = .error e
  := by
  rw [UploadWorld.atWorker] at h
  rcases PatchChoice.outcome_eq_some h with ⟨hreached, rfl, hr⟩ | ⟨-, rfl, hr⟩
  · left
    refine ⟨hreached, ?_, rfl, hr⟩
    apply Function.update_eq_self
  · right
    exact ⟨put_upload _ _, hr⟩

/-- An operation that changes nothing. -/
theorem of_outcome_self {α : Type} {uploadId : String} {r a : Except Exc α} {part : UploadWorld uploadId}
    (h : choice.outcome (a, world.upload uploadId) (world.upload uploadId) = some (r, part)) :
  world.put part = world ∧ (r = a ∨ ∃ e, r = .error e)
  := by
  rcases PatchChoice.outcome_eq_some h with ⟨-, rfl, hr⟩ | ⟨-, rfl, hr⟩
  · use put_upload _ _
    rcases hr with ⟨-, hr⟩ | ⟨e, -, hr⟩
    · left
      apply hr
    · right
      exact ⟨e, hr⟩
  · use put_upload _ _
    right
    apply hr

/-- An operation that deletes a row, or does not. -/
theorem of_deleteUpload {uploadId : String} {r : Except Exc Unit} {part : UploadWorld uploadId}
    (h : choice.outcome (.ok (), { world.upload uploadId with row := none, row_id := by simp })
      (world.upload uploadId) = some (r, part)) :
  (world.put part).worker = world.worker
    ∧ ((world.put part).rows = world.rows
      ∨ (world.put part).rows = Function.update world.rows uploadId none)
  := by
  rcases PatchChoice.outcome_eq_some h with ⟨-, hpart, -⟩ | ⟨-, hpart, -⟩
  · rw [hpart]
    exact ⟨rfl, Or.inr rfl⟩
  · rw [hpart, put_upload]
    exact ⟨rfl, Or.inl rfl⟩

/-- An operation that adds a row, where it is done. -/
theorem of_addUpload {upload : Upload} {r : Except Exc Unit} {part : UploadWorld upload.id}
    (h : (world.upload upload.id).performTus volumes (.addUpload upload) choice = some (r, part))
    (hreached : choice.reached = true) :
  (world.put part).worker = world.worker
    ∧ (world.put part).rows = Function.update world.rows upload.id (some upload)
  := by
  rcases PatchChoice.outcome_eq_some h with ⟨-, hpart, -⟩ | ⟨hno, -, -⟩
  · rw [dif_pos rfl] at hpart
    rw [hpart]
    exact ⟨rfl, rfl⟩
  · cases hreached.symm.trans hno

end UploadsWorld

/-! ### What the worker does with one upload -/

/-- The part file of an upload is registered, and no directory. -/
structure Held (w : Worker) (uploadId destPath : String) : Prop where
  registered : w.uploads uploadId = some ⟨destPath, partPathFor destPath uploadId⟩
  isFile : ∀ node, w.files (partPathFor destPath uploadId) = some node → node.acl.isDir = false

/-- An upload is not registered and has no part file. -/
structure Cleared (w : Worker) (uploadId destPath : String) : Prop where
  unregistered : w.uploads uploadId = none
  gone : w.files (partPathFor destPath uploadId) = none

section

variable {w w' : Worker} {uploadId destPath : String} {refuses : FileOp → Option Refusal}

/-- A completion moves the part file away, or changes nothing. -/
theorem Held.complete (h : Held w uploadId destPath) (hne : destPath ≠ partPathFor destPath uploadId) :
  (((UploadsHandlers.complete uploadId).run.execute (Worker.answer refuses) w).1 = .ok ()
      ∧ Cleared ((UploadsHandlers.complete uploadId).run.execute (Worker.answer refuses) w).2 uploadId
        destPath)
    ∨ (∃ e, ((UploadsHandlers.complete uploadId).run.execute (Worker.answer refuses) w).1 = .error e)
      ∧ ((UploadsHandlers.complete uploadId).run.execute (Worker.answer refuses) w).2 = w
  := by
  rw [Worker.execute_complete h.registered]
  rcases hanswer : w.answer refuses (.rename (partPathFor destPath uploadId) destPath) with ⟨e | _, w'⟩
  · right
    exact ⟨⟨_, rfl⟩, Worker.of_answer_rename_error hanswer⟩
  · left
    refine ⟨rfl, Function.update_self _ _ _, ?_⟩
    apply Worker.gone_of_answer_rename (Ne.symm hne) hanswer

/-- The completion of an upload that is not registered fails and changes nothing. -/
theorem Worker.complete_unregistered (h : w.uploads uploadId = none) :
  (∃ e, ((UploadsHandlers.complete uploadId).run.execute (Worker.answer refuses) w).1 = .error e)
    ∧ ((UploadsHandlers.complete uploadId).run.execute (Worker.answer refuses) w).2 = w
  := by
  rw [UploadsHandlers.complete, ExceptT.run_bind, Coroutine.execute_bind, Worker.execute_handleOrRaise, h]
  exact ⟨⟨_, rfl⟩, rfl⟩

/-- An upload whose part file may be removed is given up. -/
theorem Held.abort (h : Held w uploadId destPath)
    (hremove : refuses (.remove (partPathFor destPath uploadId)) = none) :
  ((UploadsHandlers.abort uploadId).run.execute (Worker.answer refuses) w).1 = .ok ()
    ∧ Cleared ((UploadsHandlers.abort uploadId).run.execute (Worker.answer refuses) w).2 uploadId destPath
  := by
  rw [Worker.execute_abort, h.registered]
  simp only [Worker.answer, hremove, Worker.perform]
  cases hnode : w.files (partPathFor destPath uploadId) with
  | none => exact ⟨rfl, Function.update_self _ _ _, hnode⟩
  | some node =>
      simp only [h.isFile node hnode, Bool.false_eq_true, if_false]
      exact ⟨trivial, Function.update_self _ _ _, Function.update_self _ _ _⟩

/-- Giving an upload up that is not registered leaves it so. -/
theorem Cleared.abort (h : Cleared w uploadId destPath) :
  Cleared ((UploadsHandlers.abort uploadId).run.execute (Worker.answer refuses) w).2 uploadId destPath
  := by
  rw [Worker.execute_abort, h.unregistered]
  exact ⟨Function.update_self _ _ _, h.gone⟩

/-- Writing a chunk leaves the part file in place. -/
theorem Held.uploadChunk (h : Held w uploadId destPath) (start : ℤ) (data : List UInt8) :
  Held ((Fileworker.uploadChunk uploadId start data).run.execute (Worker.answer refuses) w).2 uploadId
    destPath
  := by
  have hheld : Held (w.answer refuses (.write (partPathFor destPath uploadId) start data)).2 uploadId
      destPath := by
    rcases @Worker.answer_write refuses w (partPathFor destPath uploadId) start data
      with hw | ⟨node, content, hnode, hw⟩
    · rw [hw]
      apply h
    · rw [hw]
      use h.registered
      intro node' hnode'
      rw [Worker.setFile_files, Function.update_self] at hnode'
      cases hnode'
      apply h.isFile node hnode
  rw [Worker.execute_uploadChunk h.registered]
  generalize w.answer refuses (.write (partPathFor destPath uploadId) start data) = a at hheld
  rcases a with ⟨_ | _, w'⟩
  all_goals apply hheld

/-- A chunk of an upload that is not registered is not written. -/
theorem Worker.uploadChunk_unregistered (h : w.uploads uploadId = none) (start : ℤ)
    (data : List UInt8) :
  ((Fileworker.uploadChunk uploadId start data).run.execute (Worker.answer refuses) w).2 = w
  := by
  rw [Fileworker.uploadChunk, Async.execute_ask_bind, answer_getHandle, h]
  rfl

/-- The beginning of an upload that is fresh registers it, or fails and changes nothing. -/
theorem Cleared.begin {id : UuidHex} (h : Cleared w id.text destPath) :
  (((UploadsHandlers.begin destPath id.text).run.execute (Worker.answer refuses) w).1 = .ok ()
      ∧ Held ((UploadsHandlers.begin destPath id.text).run.execute (Worker.answer refuses) w).2 id.text
        destPath)
    ∨ (∃ e, ((UploadsHandlers.begin destPath id.text).run.execute (Worker.answer refuses) w).1 = .error e)
      ∧ ((UploadsHandlers.begin destPath id.text).run.execute (Worker.answer refuses) w).2 = w
  := by
  rcases hbegin : (UploadsHandlers.begin destPath id.text).run.execute (Worker.answer refuses) w
    with ⟨e | _, w'⟩
  · right
    exact ⟨⟨e, rfl⟩, Worker.of_begin_error hbegin⟩
  · left
    have hplaced := Placed.begin h.gone hbegin
    refine ⟨rfl, hplaced.registered, ?_⟩
    intro node hnode
    obtain ⟨node', hnode', hdir, -⟩ := hplaced.isFile
    cases hnode.symm.trans hnode'
    apply hdir

/-- What concerns another upload leaves this one. -/
theorem Held.other (h : Held w uploadId destPath) (huploads : w'.uploads uploadId = w.uploads uploadId)
    (hfiles : w'.files (partPathFor destPath uploadId) = w.files (partPathFor destPath uploadId)) :
  Held w' uploadId destPath
  := by
  constructor
  · rw [huploads, h.registered]
  · rw [hfiles]
    apply h.isFile

/-- What concerns another upload leaves this one gone. -/
theorem Cleared.other (h : Cleared w uploadId destPath)
    (huploads : w'.uploads uploadId = w.uploads uploadId)
    (hfiles : w'.files (partPathFor destPath uploadId) = w.files (partPathFor destPath uploadId)) :
  Cleared w' uploadId destPath
  := by
  constructor
  · rw [huploads, h.unregistered]
  · rw [hfiles, h.gone]

end

/-! ### The requests of a run -/

namespace UploadsRequest

/-- The upload that a request is about. -/
def about : UploadsRequest → String
  | .post id _ => id.text
  | .patch uploadId _ => uploadId
  | .head uploadId _ => uploadId
  | .delete uploadId _ => uploadId

/-- The protocol of a request. -/
def protocol (request : UploadsRequest) : Protocol UploadsOp UploadsOp.Answer UploadsStage where
  allowed stage op :=
    match request, op with
    | .post id request, .tus op => (postProtocol id request).allowed stage op
    | .delete uploadId _, .tus op => (deleteProtocol uploadId).allowed stage op
    | .patch uploadId _, .patch op => (patchProtocol uploadId).allowed stage op
    | .head uploadId _, .patch op => (patchProtocol uploadId).allowed stage op
    | _, _ => False
  next stage op :=
    match request, op with
    | .post id request, .tus op => (postProtocol id request).next stage op
    | .delete uploadId _, .tus op => (deleteProtocol uploadId).next stage op
    | .patch uploadId _, .patch op => (patchProtocol uploadId).next stage op
    | .head uploadId _, .patch op => (patchProtocol uploadId).next stage op
    | _, _ => fun _ => stage

/-- What a request ends with. -/
def Ends : UploadsRequest → UploadsStage → Except Exc Response → Prop
  | .post _ _ => RowFollows
  | .delete _ _ => GivenUp
  | _ => fun _ _ => True

/-- A request obeys its protocol. -/
theorem obeys_task (request : UploadsRequest) :
  request.task.Obeys request.protocol request.Ends .idle
  := by
  cases request with
  | post id request =>
      apply (obeys_createUpload id request).interpret
      intro stage op hop
      exact ⟨hop, fun _ => rfl⟩
  | patch uploadId request =>
      change Coroutine.Obeys _ (fun _ _ => True) UploadsStage.idle (Coroutine.interpret _ _)
      apply (obeys_patchUpload uploadId request).interpret
      intro stage op hop
      exact ⟨hop, fun _ => rfl⟩
  | head uploadId uid =>
      change Coroutine.Obeys _ (fun _ _ => True) UploadsStage.idle (Coroutine.interpret _ _)
      apply (obeys_headUpload uploadId uid).interpret
      intro stage op hop
      exact ⟨hop, fun _ => rfl⟩
  | delete uploadId uid =>
      change Coroutine.Obeys _ GivenUp .idle (Coroutine.interpret _ _)
      apply (obeys_deleteUpload uploadId uid).interpret
      intro stage op hop
      exact ⟨hop, fun _ => rfl⟩

end UploadsRequest

/-- The condition on a step: the worker is not restarted while an upload is registered, an `upload_begin`
that was done is answered, the row of a new upload is committed, and the system does not refuse to remove
a part file. -/
def Undisturbed (requests : List UploadsRequest)
    (p : Pool UploadsOp UploadsOp.Answer UploadsWorld (Except Exc Response)) :
    Pool.Label PatchChoice Unit → Prop
  | .task i choice =>
      match p.pendingOf i with
      | some (.tus (.uploadBegin _ _ _)) => choice.reached = true → choice.raises = none
      | some (.tus (.addUpload _)) => choice.reached = true
      | some (.tus (.uploadAbort uploadId)) =>
          ∀ handle ∈ p.world.worker.uploads uploadId, choice.refuses (.remove handle.partPath) = none
      | _ => True
  | .environment _ => ∀ request ∈ requests, p.world.worker.uploads request.about = none

/-- Each POST has an id of its own. -/
def OwnIds (requests : List UploadsRequest) : Prop :=
  ∀ (i j : ℕ) (id id' : UuidHex) (request request' : PostRequest), requests[i]? = some (.post id request) →
    requests[j]? = some (.post id' request') → id.text = id'.text → i = j

/-- A POST begins an upload, and no upload has the path of its part file as its destination. -/
structure BeginsAt (requests : List UploadsRequest) (k : ℕ) (id : UuidHex) (destPath : String) : Prop where
  post : ∃ request, requests[k]? = some (.post id request) ∧ request.destPath = some destPath
  unpublished : ∀ (i : ℕ) (id' : UuidHex) (request' : PostRequest),
    requests[i]? = some (.post id' request') →
      request'.destPath ≠ some (partPathFor destPath id.text)

/-! ### The invariant -/

/-- The handles of a worker are those of uploads that POST requests began. -/
def HandlesOf (requests : List UploadsRequest) (w : Worker) : Prop :=
  ∀ uploadId handle, w.uploads uploadId = some handle →
    handle.partPath = partPathFor handle.destPath uploadId
      ∧ ∃ (i : ℕ) (id : UuidHex) (request : PostRequest), requests[i]? = some (.post id request)
        ∧ uploadId = id.text ∧ request.destPath = some handle.destPath

/-- What there is of an upload at a stage of its POST. -/
def KeptAt (world : UploadsWorld) (uploadId destPath : String) : UploadsStage → Prop
  | .begun => Held world.worker uploadId destPath
  | .added => Held world.worker uploadId destPath ∧ world.rows uploadId ≠ none
      ∨ Cleared world.worker uploadId destPath
  | _ => Cleared world.worker uploadId destPath

/-- What the stage of a request says of an upload whose POST is at a stage. -/
def SaysOf (w : Worker) (uploadId destPath : String) (post : UploadsStage) (about : String) :
    UploadsStage → Prop
  | .found uploadId' => uploadId' = about ∧ (uploadId' = uploadId → post = .added)
  | .gone uploadId' =>
      uploadId' = about ∧ (uploadId' = uploadId → post = .added ∧ Cleared w uploadId destPath)
  | _ => True

/-- The invariant of the requests, about the upload that one of them begins. -/
structure RowsInv (requests : List UploadsRequest) (k : ℕ) (uploadId destPath : String)
    (stages : ℕ → UploadsStage) (world : UploadsWorld) : Prop where
  kept : KeptAt world uploadId destPath (stages k)
  row : world.rows uploadId ≠ none → stages k = .added
  knows : ∀ (i : ℕ) (request : UploadsRequest), requests[i]? = some request →
    SaysOf world.worker uploadId destPath (stages k) request.about (stages i)
  handles : HandlesOf requests world.worker

section

variable {requests : List UploadsRequest} {w w' : Worker} {uploadId destPath about : String}
  {post stage : UploadsStage}

/-- What a stage says remains so, where the upload stays cleared. -/
theorem SaysOf.mono (h : SaysOf w uploadId destPath post about stage)
    (hcleared : Cleared w uploadId destPath → Cleared w' uploadId destPath) :
  SaysOf w' uploadId destPath post about stage
  := by
  cases stage with
  | gone uploadId' =>
      use h.1
      intro heq
      obtain ⟨hpost, hgone⟩ := h.2 heq
      exact ⟨hpost, hcleared hgone⟩
  | _ => apply h

/-- What a stage says where the upload has no row yet: nothing. -/
theorem SaysOf.before (h : SaysOf w uploadId destPath post about stage) (hpost : post ≠ .added)
    (post' : UploadsStage) :
  SaysOf w' uploadId destPath post' about stage
  := by
  cases stage with
  | found uploadId' =>
      use h.1
      intro heq
      apply absurd (h.2 heq) hpost
  | gone uploadId' =>
      use h.1
      intro heq
      apply absurd (h.2 heq).1 hpost
  | _ => trivial

/-- A change that concerns one upload leaves the handles of uploads that were begun. -/
theorem HandlesOf.onlyOf (h : HandlesOf requests w) {uploadId' : String}
    (honly : w.OnlyOf w' uploadId') :
  HandlesOf requests w'
  := by
  intro uploadId handle hregistered
  apply h
  by_cases heq : uploadId = uploadId'
  · subst heq
    rcases honly.registered with hnone | hsame
    · cases hnone.symm.trans hregistered
    · rw [← hsame, hregistered]
  · rw [← honly.uploads uploadId heq, hregistered]

end

section

variable {requests : List UploadsRequest} {k i : ℕ} {id : UuidHex} {destPath : String}
  {stages : ℕ → UploadsStage} {world world' : UploadsWorld} {request : UploadsRequest}
  {stage : UploadsStage}

/-- The path of the part file is none of those of another upload. -/
theorem HandlesOf.notMem_pathsOf (h : HandlesOf requests world.worker)
    (hbegins : BeginsAt requests k id destPath) {uploadId : String} (hne : uploadId ≠ id.text) :
  partPathFor destPath id.text ∉ world.worker.pathsOf uploadId
  := by
  rw [Worker.pathsOf]
  cases hregistered : world.worker.uploads uploadId with
  | none => simp
  | some handle =>
      obtain ⟨hpart, j, id', request', hpost, rfl, hdest⟩ := h uploadId handle hregistered
      rw [List.mem_pair, not_or]
      constructor
      · intro heq
        rw [hpart] at heq
        apply hne (partPathFor_inj heq).symm
      · intro heq
        apply hbegins.unpublished j id' request' hpost
        rw [hdest, heq]

/-- A step of another request, which keeps what there is of the upload. -/
theorem RowsInv.of_ne (h : RowsInv requests k id.text destPath stages world) (hik : i ≠ k)
    (hrequest : requests[i]? = some request)
    (hkept : KeptAt world' id.text destPath (stages k))
    (hrow : world'.rows id.text ≠ none → stages k = .added)
    (hcleared : Cleared world.worker id.text destPath → Cleared world'.worker id.text destPath)
    (hhandles : HandlesOf requests world'.worker)
    (hstage : SaysOf world'.worker id.text destPath (stages k) request.about stage) :
  RowsInv requests k id.text destPath (Function.update stages i stage) world'
  := by
  have hk : Function.update stages i stage k = stages k := Function.update_of_ne (Ne.symm hik) _ _
  constructor
  · rw [hk]
    apply hkept
  · rw [hk]
    apply hrow
  · intro j request' hrequest'
    rw [hk]
    by_cases hji : j = i
    · subst hji
      cases hrequest.symm.trans hrequest'
      rw [Function.update_self]
      apply hstage
    · rw [Function.update_of_ne hji]
      apply (h.knows j request' hrequest').mono hcleared
  · apply hhandles

/-- A step of another request that changes nothing. -/
theorem RowsInv.quiet (h : RowsInv requests k id.text destPath stages world) (hik : i ≠ k)
    (hrequest : requests[i]? = some request)
    (hstage : SaysOf world.worker id.text destPath (stages k) request.about stage) :
  RowsInv requests k id.text destPath (Function.update stages i stage) world
  := by
  apply h.of_ne hik hrequest h.kept h.row _ h.handles hstage
  intro hcleared
  apply hcleared

/-- A change that leaves what concerns the upload keeps it. -/
theorem KeptAt.other (h : KeptAt world id.text destPath stage)
    (huploads : world'.worker.uploads id.text = world.worker.uploads id.text)
    (hfiles : world'.worker.files (partPathFor destPath id.text)
      = world.worker.files (partPathFor destPath id.text))
    (hrows : world'.rows id.text = world.rows id.text) :
  KeptAt world' id.text destPath stage
  := by
  cases stage with
  | begun => apply Held.other h huploads hfiles
  | added =>
      rcases h with ⟨hheld, hrow⟩ | hcleared
      · left
        use hheld.other huploads hfiles
        rw [hrows]
        apply hrow
      · right
        apply hcleared.other huploads hfiles
  | _ => apply Cleared.other h huploads hfiles

/-- A step of another request by which the worker changes one upload. -/
theorem RowsInv.onlyOf (h : RowsInv requests k id.text destPath stages world)
    (hbegins : BeginsAt requests k id destPath) (hik : i ≠ k) (hrequest : requests[i]? = some request)
    {uploadId : String} (hrows : world'.rows = world.rows)
    (honly : world.worker.OnlyOf world'.worker uploadId)
    (hkept : uploadId = id.text → KeptAt world' id.text destPath (stages k))
    (hcleared : uploadId = id.text → Cleared world.worker id.text destPath →
      Cleared world'.worker id.text destPath)
    (hstage : SaysOf world'.worker id.text destPath (stages k) request.about stage) :
  RowsInv requests k id.text destPath (Function.update stages i stage) world'
  := by
  have hrow : world'.rows id.text ≠ none → stages k = .added := by
    rw [hrows]
    apply h.row
  by_cases heq : uploadId = id.text
  · apply h.of_ne hik hrequest (hkept heq) hrow (hcleared heq) (h.handles.onlyOf honly) hstage
  · have huploads := honly.uploads id.text (Ne.symm heq)
    have hfiles := honly.files _ (h.handles.notMem_pathsOf hbegins heq)
    apply h.of_ne hik hrequest _ hrow _ (h.handles.onlyOf honly) hstage
    · apply h.kept.other huploads hfiles (congrFun hrows _)
    · intro hcleared
      apply hcleared.other huploads hfiles

/-- A step of the POST itself, before its row is there. -/
theorem RowsInv.self (h : RowsInv requests k id.text destPath stages world) (hbefore : stages k ≠ .added)
    (hkept : KeptAt world' id.text destPath stage) (hrow : world'.rows id.text ≠ none → stage = .added)
    (hhandles : HandlesOf requests world'.worker)
    (hstage : ∀ about, SaysOf world'.worker id.text destPath stage about stage) :
  RowsInv requests k id.text destPath (Function.update stages k stage) world'
  := by
  constructor
  · rw [Function.update_self]
    apply hkept
  · rw [Function.update_self]
    apply hrow
  · intro j request' hrequest'
    rw [Function.update_self]
    by_cases hjk : j = k
    · subst hjk
      rw [Function.update_self]
      apply hstage
    · rw [Function.update_of_ne hjk]
      apply (h.knows j request' hrequest').before hbefore
  · apply hhandles

end

/-! ### The steps of the other requests -/

section

variable {requests : List UploadsRequest} {k i : ℕ} {id : UuidHex} {destPath uploadId : String}
  {stages : ℕ → UploadsStage} {world world' : UploadsWorld} {request : UploadsRequest}
  {choice : PatchChoice} {volumes : List (String × ℕ)}

/-- A request finds the row of its upload. -/
theorem RowsInv.says_found (h : RowsInv requests k id.text destPath stages world) {upload : Upload}
    {r : Except Exc (Option Upload)} (hr : r = .ok (world.rows uploadId) ∨ ∃ e, r = .error e)
    (hupload : r = .ok (some upload)) :
  SaysOf world.worker id.text destPath (stages k) uploadId (.found upload.id)
  := by
  rcases hr with rfl | ⟨e, rfl⟩
  · have hrow : world.rows uploadId = some upload := Except.ok.inj hupload
    have hid := world.rows_id uploadId upload hrow
    use hid
    intro heq
    apply h.row
    rw [← heq, hid, hrow]
    simp
  · cases hupload

/-- Where a request stands once the worker was asked to complete an upload or to give it up. -/
def afterCall (uploadId : String) : Except Exc Unit → UploadsStage
  | .ok _ => .gone uploadId
  | .error _ => .found uploadId

/-- A request deletes the row of an upload that is gone. -/
theorem RowsInv.deleteUpload (h : RowsInv requests k id.text destPath stages world) (hik : i ≠ k)
    (hrequest : requests[i]? = some request) (hstage : stages i = .gone uploadId)
    (hworker : world'.worker = world.worker)
    (hrows : world'.rows = world.rows ∨ world'.rows = Function.update world.rows uploadId none) :
  RowsInv requests k id.text destPath (Function.update stages i (.gone uploadId)) world'
  := by
  have hknows := h.knows i request hrequest
  rw [hstage] at hknows
  have hsubset : world'.rows id.text ≠ none → world.rows id.text ≠ none := by
    rcases hrows with hrows | hrows
    · rw [hrows]
      exact fun hne => hne
    · rw [hrows]
      intro hne hnone
      apply hne
      by_cases heq : id.text = uploadId
      · rw [heq, Function.update_self]
      · rw [Function.update_of_ne heq, hnone]
  apply h.of_ne hik hrequest _ (fun hne => h.row (hsubset hne)) _ (hworker ▸ h.handles) (hworker ▸ hknows)
  · by_cases heq : uploadId = id.text
    · obtain ⟨hadded, hcleared⟩ := hknows.2 heq
      rw [hadded]
      right
      rw [hworker]
      apply hcleared
    · apply h.kept.other (congrArg (fun w => w.uploads id.text) hworker)
        (congrArg (fun w => w.files (partPathFor destPath id.text)) hworker)
      rcases hrows with hrows | hrows
      · rw [hrows]
      · rw [hrows, Function.update_of_ne (Ne.symm heq)]
  · rw [hworker]
    exact fun hcleared => hcleared

/-- A PATCH has a chunk written. -/
theorem RowsInv.writeChunk (h : RowsInv requests k id.text destPath stages world)
    (hbegins : BeginsAt requests k id destPath) (hik : i ≠ k) (hrequest : requests[i]? = some request)
    (hstage : stages i = .found uploadId) {offset : ℤ} {data : List UInt8}
    {refuses : FileOp → Option Refusal} (hrows : world'.rows = world.rows)
    (hworker : world'.worker = ((Fileworker.uploadChunk uploadId offset data).run.execute
      (Worker.answer refuses) world.worker).2) :
  RowsInv requests k id.text destPath (Function.update stages i (.found uploadId)) world'
  := by
  have hknows := h.knows i request hrequest
  rw [hstage] at hknows
  have hchunk : Cleared world.worker id.text destPath → uploadId = id.text →
      world'.worker = world.worker := by
    rintro hcleared rfl
    rw [hworker]
    apply Worker.uploadChunk_unregistered hcleared.unregistered
  have honly : world.worker.OnlyOf world'.worker uploadId := by
    rw [hworker]
    apply Worker.onlyOf_uploadChunk
  have hfound : SaysOf world'.worker id.text destPath (stages k) request.about (.found uploadId) :=
    hknows
  apply h.onlyOf hbegins hik hrequest hrows honly _ _ hfound
  · intro heq
    have hkept := h.kept
    rw [hknows.2 heq] at hkept ⊢
    rcases hkept with ⟨hheld, hrow⟩ | hcleared
    · left
      rw [hrows, hworker]
      subst heq
      exact ⟨hheld.uploadChunk offset data, hrow⟩
    · right
      rw [hchunk hcleared heq]
      apply hcleared
  · intro heq hcleared
    rw [hchunk hcleared heq]
    apply hcleared

/-- A PATCH has an upload completed. -/
theorem RowsInv.uploadComplete (h : RowsInv requests k id.text destPath stages world)
    (hbegins : BeginsAt requests k id destPath) (hik : i ≠ k) (hrequest : requests[i]? = some request)
    (hstage : stages i = .found uploadId) {refuses : FileOp → Option Refusal}
    (hrows : world'.rows = world.rows)
    (hworker : world'.worker = ((UploadsHandlers.complete uploadId).run.execute
      (Worker.answer refuses) world.worker).2) {r : Except Exc Unit}
    (hr : (∃ e, r = .error e)
      ∨ r = ((UploadsHandlers.complete uploadId).run.execute (Worker.answer refuses) world.worker).1) :
  RowsInv requests k id.text destPath
    (Function.update stages i (afterCall uploadId r)) world'
  := by
  have hknows := h.knows i request hrequest
  rw [hstage] at hknows
  obtain ⟨request', hpost, hdest⟩ := hbegins.post
  have hne : destPath ≠ partPathFor destPath id.text := by
    intro heq
    apply hbegins.unpublished k id request' hpost
    rw [hdest, ← heq]
  have hends : uploadId = id.text →
      (Cleared world'.worker id.text destPath
        ∨ world'.worker = world.worker ∧ ∃ e, r = .error e) := by
    rintro rfl
    rw [hworker]
    have hkept := h.kept
    rw [hknows.2 rfl] at hkept
    rcases hkept with ⟨hheld, -⟩ | hcleared
    · rcases @Held.complete _ _ _ refuses hheld hne with ⟨-, hcleared⟩ | ⟨herror, hsame⟩
      · left
        apply hcleared
      · right
        use hsame
        rcases hr with hr | hr
        · apply hr
        · rw [hr]
          apply herror
    · right
      obtain ⟨herror, hsame⟩ :=
        @Worker.complete_unregistered _ _ refuses hcleared.unregistered
      use hsame
      rcases hr with hr | hr
      · apply hr
      · rw [hr]
        apply herror
  have honly : world.worker.OnlyOf world'.worker uploadId := by
    rw [hworker]
    apply Worker.onlyOf_complete
  apply h.onlyOf hbegins hik hrequest hrows honly
  · intro heq
    have hkept := h.kept
    rw [hknows.2 heq] at hkept ⊢
    rcases hends heq with hcleared | ⟨hsame, -⟩
    · right
      apply hcleared
    · rw [KeptAt, hsame, hrows]
      apply hkept
  · intro heq hcleared
    rcases hends heq with hcleared' | ⟨hsame, -⟩
    · apply hcleared'
    · rw [hsame]
      apply hcleared
  · cases r with
    | error e => apply hknows
    | ok _ =>
        use hknows.1
        intro heq
        use hknows.2 heq
        rcases hends heq with hcleared | ⟨-, e, ⟨⟩⟩
        apply hcleared

/-- A DELETE has an upload given up, whose part file may be removed. -/
theorem RowsInv.uploadAbort (h : RowsInv requests k id.text destPath stages world)
    (hbegins : BeginsAt requests k id destPath) (hik : i ≠ k) (hrequest : requests[i]? = some request)
    (hstage : stages i = .found uploadId) {refuses : FileOp → Option Refusal}
    (hrows : world'.rows = world.rows)
    (hworker : world'.worker = ((UploadsHandlers.abort uploadId).run.execute
      (Worker.answer refuses) world.worker).2)
    (hremove : ∀ handle ∈ world.worker.uploads uploadId, refuses (.remove handle.partPath) = none)
    (r : Except Exc Unit) :
  RowsInv requests k id.text destPath
    (Function.update stages i (afterCall uploadId r)) world'
  := by
  have hknows := h.knows i request hrequest
  rw [hstage] at hknows
  have hcleared : uploadId = id.text → Cleared world'.worker id.text destPath := by
    rintro rfl
    rw [hworker]
    have hkept := h.kept
    rw [hknows.2 rfl] at hkept
    rcases hkept with ⟨hheld, -⟩ | hcleared
    · apply (hheld.abort (hremove _ hheld.registered)).2
    · apply hcleared.abort
  have honly : world.worker.OnlyOf world'.worker uploadId := by
    rw [hworker]
    apply Worker.onlyOf_abort
  apply h.onlyOf hbegins hik hrequest hrows honly
  · intro heq
    rw [hknows.2 heq]
    right
    apply hcleared heq
  · intro heq _
    apply hcleared heq
  · cases r with
    | error e => apply hknows
    | ok _ =>
        use hknows.1
        intro heq
        exact ⟨hknows.2 heq, hcleared heq⟩

end

/-! ### The step lemma -/

section

variable {requests : List UploadsRequest} {k i : ℕ} {id : UuidHex} {destPath uploadId : String}
  {stages : ℕ → UploadsStage} {world : UploadsWorld} {request : UploadsRequest}
  {choice : PatchChoice} {volumes : List (String × ℕ)}

/-- A step of a PATCH or HEAD. -/
theorem RowsInv.stepPatch (h : RowsInv requests k id.text destPath stages world)
    (hbegins : BeginsAt requests k id destPath) (hik : i ≠ k) (hrequest : requests[i]? = some request)
    (habout : request.about = uploadId) {op : PatchOp} {r : op.Answer} {part : UploadWorld op.about}
    (hallowed : (patchProtocol uploadId).allowed (stages i) op)
    (hperform : (world.upload op.about).perform op choice = some (r, part)) :
  RowsInv requests k id.text destPath
    (Function.update stages i ((patchProtocol uploadId).next (stages i) op r)) (world.put part)
  := by
  have hknows := h.knows i request hrequest
  cases hstage : stages i with
  | idle =>
      rw [hstage] at hallowed
      cases op with
      | getUpload uploadId' =>
          cases hallowed
          obtain ⟨hworld, hr⟩ := UploadsWorld.of_outcome_self hperform
          change r = .ok (if uploadId = uploadId then world.rows uploadId else none) ∨ _ at hr
          rw [if_pos rfl] at hr
          rw [hworld]
          apply h.quiet hik hrequest
          rw [habout]
          rcases r with e | _ | upload
          · trivial
          · trivial
          · apply h.says_found hr rfl
      | _ => cases hallowed
  | found uploadId' =>
      rw [hstage] at hallowed hknows
      cases op with
      | uploadOffset id' =>
          have hworld : world.put part = world := by
            rcases UploadsWorld.of_atWorker hperform with ⟨-, hrows, hworker, -⟩ | ⟨hsame, -⟩
            · apply UploadsWorld.eq_of_parts _ hrows
              rw [hworker, AgentClient.execute_call rfl]
              apply Worker.execute_offset
            · apply hsame
          rw [hworld]
          apply h.quiet hik hrequest hknows
      | receive =>
          rw [(UploadsWorld.of_outcome_self hperform).1]
          apply h.quiet hik hrequest hknows
      | commitOffset id' offset =>
          rw [(UploadsWorld.of_outcome_self hperform).1]
          apply h.quiet hik hrequest hknows
      | writeChunk id' offset data =>
          cases hallowed
          rcases UploadsWorld.of_atWorker hperform with ⟨-, hrows, hworker, -⟩ | ⟨hsame, -⟩
          · apply h.writeChunk hbegins hik hrequest hstage hrows hworker
          · rw [hsame]
            apply h.quiet hik hrequest hknows
      | uploadComplete id' =>
          cases hallowed
          rcases UploadsWorld.of_atWorker hperform with ⟨-, hrows, hworker, hr⟩ | ⟨hsame, e, rfl⟩
          · rw [AgentClient.execute_call rfl] at hworker hr
            have hcomplete : (∃ e, r = .error e) ∨ r = ((UploadsHandlers.complete uploadId').run.execute
                (Worker.answer choice.refuses) world.worker).1 := by
              rcases hr with ⟨-, hr⟩ | ⟨e, -, hr⟩
              · rw [hr]
                cases ((UploadsHandlers.complete uploadId').run.execute
                  (Worker.answer choice.refuses) world.worker).1 with
                | error e =>
                    left
                    exact ⟨_, rfl⟩
                | ok _ =>
                    right
                    rfl
              · left
                exact ⟨e, hr⟩
            have hstep := h.uploadComplete hbegins hik hrequest hstage hrows hworker hcomplete
            cases r with
            | error e => apply hstep
            | ok _ => apply hstep
          · rw [hsame]
            apply h.quiet hik hrequest hknows
      | _ => cases hallowed
  | gone uploadId' =>
      rw [hstage] at hallowed
      cases op with
      | deleteUpload id' =>
          cases hallowed
          obtain ⟨hworker, hrows⟩ := UploadsWorld.of_deleteUpload hperform
          apply h.deleteUpload hik hrequest hstage hworker hrows
      | _ => cases hallowed
  | _ =>
      rw [hstage] at hallowed
      cases op with
      | _ => cases hallowed

/-- A step of a DELETE. -/
theorem RowsInv.stepDelete (h : RowsInv requests k id.text destPath stages world)
    (hbegins : BeginsAt requests k id destPath) (hik : i ≠ k) (hrequest : requests[i]? = some request)
    (habout : request.about = uploadId) {op : TusOp} {r : op.Answer} {part : UploadWorld op.about}
    (hallowed : (deleteProtocol uploadId).allowed (stages i) op)
    (hremove : ∀ uploadId, op = .uploadAbort uploadId →
      ∀ handle ∈ world.worker.uploads uploadId, choice.refuses (.remove handle.partPath) = none)
    (hperform : (world.upload op.about).performTus volumes op choice = some (r, part)) :
  RowsInv requests k id.text destPath
    (Function.update stages i ((deleteProtocol uploadId).next (stages i) op r)) (world.put part)
  := by
  have hknows := h.knows i request hrequest
  cases hstage : stages i with
  | idle =>
      rw [hstage] at hallowed
      cases op with
      | getUpload uploadId' =>
          cases hallowed
          obtain ⟨hworld, hr⟩ := UploadsWorld.of_outcome_self hperform
          change r = .ok (if uploadId = uploadId then world.rows uploadId else none) ∨ _ at hr
          rw [if_pos rfl] at hr
          rw [hworld]
          apply h.quiet hik hrequest
          rw [habout]
          rcases r with e | _ | upload
          · trivial
          · trivial
          · apply h.says_found hr rfl
      | _ => cases hallowed
  | found uploadId' =>
      rw [hstage] at hallowed hknows
      cases op with
      | uploadAbort id' =>
          cases hallowed
          rcases UploadsWorld.of_atWorker hperform with ⟨-, hrows, hworker, -⟩ | ⟨hsame, e, rfl⟩
          · rw [AgentClient.execute_call rfl] at hworker
            have hstep := h.uploadAbort hbegins hik hrequest hstage hrows hworker (hremove _ rfl) r
            cases r with
            | error e => apply hstep
            | ok _ => apply hstep
          · rw [hsame]
            apply h.quiet hik hrequest hknows
      | _ => cases hallowed
  | gone uploadId' =>
      rw [hstage] at hallowed
      cases op with
      | deleteUpload id' =>
          cases hallowed
          obtain ⟨hworker, hrows⟩ := UploadsWorld.of_deleteUpload hperform
          apply h.deleteUpload hik hrequest hstage hworker hrows
      | _ => cases hallowed
  | _ =>
      rw [hstage] at hallowed
      cases op with
      | _ => cases hallowed

/-- The handles after an upload was begun. -/
theorem HandlesOf.begin {w : Worker} (h : HandlesOf requests w) {id' : UuidHex} {request' : PostRequest}
    {destPath' : String} {refuses : FileOp → Option Refusal}
    (hrequest : requests[i]? = some (.post id' request')) (hdest : request'.destPath = some destPath') :
  HandlesOf requests ((UploadsHandlers.begin destPath' id'.text).run.execute (Worker.answer refuses) w).2
  := by
  obtain ⟨-, hothers, hself⟩ := @Worker.execute_begin refuses w destPath' id'.text
  intro uploadId handle hregistered
  by_cases heq : uploadId = id'.text
  · subst heq
    rcases hself with hsame | hnew
    · rw [hsame] at hregistered
      apply h _ handle hregistered
    · rw [hnew] at hregistered
      cases hregistered
      exact ⟨rfl, i, id', request', hrequest, rfl, hdest⟩
  · rw [hothers uploadId heq] at hregistered
    apply h uploadId handle hregistered

/-- What the worker does for the call of `files.upload_begin`: what the handler does, or nothing. -/
theorem execute_callBegin (w : Worker) (refuses : FileOp → Option Refusal) (destPath uploadId : String)
    (size : ℤ) :
  (((AgentClient.call (fun _ : Unit => uploadBeginError destPath size)
        (fun _ => UploadsHandlers.begin destPath uploadId) ()).run.execute (Worker.answer refuses) w).2 = w
      ∧ ∃ e, ((AgentClient.call (fun _ : Unit => uploadBeginError destPath size)
        (fun _ => UploadsHandlers.begin destPath uploadId) ()).run.execute (Worker.answer refuses) w).1
          = .error e)
    ∨ (AgentClient.call (fun _ : Unit => uploadBeginError destPath size)
        (fun _ => UploadsHandlers.begin destPath uploadId) ()).run.execute (Worker.answer refuses) w
      = (((UploadsHandlers.begin destPath uploadId).run.execute (Worker.answer refuses) w).1.mapError
          AgentClient.callError,
        ((UploadsHandlers.begin destPath uploadId).run.execute (Worker.answer refuses) w).2)
  := by
  let call : FileM Unit := AgentClient.call (fun _ : Unit => uploadBeginError destPath size)
    (fun _ => UploadsHandlers.begin destPath uploadId) ()
  have hinvalid : ∀ message, uploadBeginError destPath size = some message →
      call.run = .done (.error (.other message)) := by
    intro message hvalid
    apply AgentClient.call_of_invalid hvalid
  have hvalid := @AgentClient.execute_call _ _ _ _ (fun _ : Unit => uploadBeginError destPath size)
    (fun _ => UploadsHandlers.begin destPath uploadId) () _ (Worker.answer refuses)
  change ((call.run.execute (Worker.answer refuses) w).2 = w
      ∧ ∃ e, (call.run.execute (Worker.answer refuses) w).1 = .error e)
    ∨ call.run.execute (Worker.answer refuses) w = _
  rcases herror : uploadBeginError destPath size with _ | message
  · right
    apply hvalid herror
  · left
    rw [hinvalid message herror]
    exact ⟨rfl, _, rfl⟩

/-- A step of another POST. -/
theorem RowsInv.stepPost (h : RowsInv requests k id.text destPath stages world)
    (hik : i ≠ k) {id' : UuidHex} {request' : PostRequest}
    (hrequest : requests[i]? = some (.post id' request')) (hid : id'.text ≠ id.text) {op : TusOp}
    {r : op.Answer} {part : UploadWorld op.about}
    (hallowed : (postProtocol id' request').allowed (stages i) op)
    (hperform : (world.upload op.about).performTus volumes op choice = some (r, part)) :
  RowsInv requests k id.text destPath
    (Function.update stages i ((postProtocol id' request').next (stages i) op r)) (world.put part)
  := by
  cases hstage : stages i with
  | idle =>
      rw [hstage] at hallowed
      cases op with
      | volumes =>
          rw [(UploadsWorld.of_outcome_self hperform).1]
          apply h.quiet hik hrequest
          trivial
      | freeSpace mountpoint =>
          rw [(UploadsWorld.of_outcome_self hperform).1]
          apply h.quiet hik hrequest
          trivial
      | uploadBegin uploadId' destPath' size =>
          obtain ⟨rfl, hdest⟩ := hallowed
          have hstep : ∀ stage, (∀ w, SaysOf w id.text destPath (stages k) id'.text stage) →
              RowsInv requests k id.text destPath (Function.update stages i stage) (world.put part) := by
            intro stage hstage'
            have hquiet : world.put part = world →
                RowsInv requests k id.text destPath (Function.update stages i stage) (world.put part) := by
              intro hsame
              rw [hsame]
              apply h.quiet hik hrequest (hstage' _)
            rcases UploadsWorld.of_atWorker hperform with ⟨-, hrows, hworker, -⟩ | ⟨hsame, -⟩
            · rcases execute_callBegin world.worker choice.refuses destPath' id'.text size
                with ⟨hsame, -⟩ | hcall
              · rw [hsame] at hworker
                apply hquiet (UploadsWorld.eq_of_parts hworker hrows)
              · rw [hcall] at hworker
                obtain ⟨hfiles, huploads, -⟩ :=
                  @Worker.execute_begin choice.refuses world.worker destPath' id'.text
                rw [← hworker] at hfiles huploads
                have hpath : partPathFor destPath id.text ≠ partPathFor destPath' id'.text := by
                  intro heq
                  apply hid (partPathFor_inj heq).symm
                have hupload := huploads id.text (Ne.symm hid)
                have hfile := hfiles _ hpath
                have hkept := h.kept.other hupload hfile (congrFun hrows _)
                apply h.of_ne hik hrequest hkept _ _ _ (hstage' _)
                · rw [hrows]
                  apply h.row
                · intro hcleared
                  apply hcleared.other hupload hfile
                · rw [hworker]
                  apply h.handles.begin hrequest hdest
            · apply hquiet hsame
          cases r with
          | error e =>
              apply hstep
              intro w
              trivial
          | ok _ =>
              apply hstep
              intro w
              trivial
      | _ => cases hallowed
  | begun =>
      rw [hstage] at hallowed
      cases op with
      | addUpload upload =>
          have hne : id.text ≠ upload.id := by
            rw [show upload.id = id'.text from hallowed]
            apply Ne.symm hid
          have hrow : (world.put part).rows id.text = world.rows id.text :=
            Function.update_of_ne hne _ _
          have hworker : (world.put part).worker = world.worker := by
            rcases PatchChoice.outcome_eq_some hperform with ⟨-, rfl, -⟩ | ⟨-, rfl, -⟩
            · change (dite _ _ _ : UploadWorld _).worker = _
              split
              all_goals rfl
            · rfl
          apply h.of_ne hik hrequest
          · apply h.kept.other (congrArg (fun w => w.uploads id.text) hworker)
              (congrArg (fun w => w.files (partPathFor destPath id.text)) hworker) hrow
          · rw [hrow]
            apply h.row
          · rw [hworker]
            exact fun hcleared => hcleared
          · rw [hworker]
            apply h.handles
          · trivial
      | _ => cases hallowed
  | _ =>
      rw [hstage] at hallowed
      cases op with
      | _ => cases hallowed

/-- A step of the POST that begins the upload. -/
theorem RowsInv.stepSelf (h : RowsInv requests k id.text destPath stages world)
    {request' : PostRequest} (hrequest : requests[k]? = some (.post id request'))
    (hdest : request'.destPath = some destPath) {op : TusOp} {r : op.Answer}
    {part : UploadWorld op.about} (hallowed : (postProtocol id request').allowed (stages k) op)
    (hbegin : ∀ uploadId destPath size, op = .uploadBegin uploadId destPath size →
      choice.reached = true → choice.raises = none)
    (hadd : ∀ upload, op = .addUpload upload → choice.reached = true)
    (hperform : (world.upload op.about).performTus volumes op choice = some (r, part)) :
  RowsInv requests k id.text destPath
    (Function.update stages k ((postProtocol id request').next (stages k) op r)) (world.put part)
  := by
  cases hstage : stages k with
  | idle =>
      have hbefore : stages k ≠ .added := by
        rw [hstage]
        rintro ⟨⟩
      have hcleared : Cleared world.worker id.text destPath := by
        have hkept := h.kept
        rw [hstage] at hkept
        apply hkept
      have hnorow : world.rows id.text = none := by
        by_contra hrow
        apply hbefore (h.row hrow)
      have hidle : RowsInv requests k id.text destPath (Function.update stages k .idle) world := by
        apply h.self hbefore
        · apply hcleared
        · intro hrow
          apply absurd hnorow hrow
        · apply h.handles
        · intro about
          trivial
      rw [hstage] at hallowed
      cases op with
      | volumes =>
          rw [(UploadsWorld.of_outcome_self hperform).1]
          apply hidle
      | freeSpace mountpoint =>
          rw [(UploadsWorld.of_outcome_self hperform).1]
          apply hidle
      | uploadBegin uploadId' destPath' size =>
          obtain ⟨rfl, hdest'⟩ := hallowed
          cases hdest.symm.trans hdest'
          rcases UploadsWorld.of_atWorker hperform with ⟨hreached, hrows, hworker, hr⟩ | ⟨hsame, e, rfl⟩
          · have hraises := hbegin _ _ _ rfl hreached
            replace hr := hr.resolve_right (by
              rintro ⟨e, he, -⟩
              cases hraises.symm.trans he)
            have hanswer := hr.2
            rcases execute_callBegin world.worker choice.refuses destPath id.text size
              with ⟨hsame, e, herror⟩ | hcall
            · rw [hsame] at hworker
              rw [herror] at hanswer
              subst hanswer
              rw [UploadsWorld.eq_of_parts hworker hrows]
              apply hidle
            · rw [hcall] at hworker hanswer
              rcases @Cleared.begin _ _ choice.refuses id hcleared
                with ⟨hok, hheld⟩ | ⟨⟨e, herror⟩, hsame⟩
              · rw [hok] at hanswer
                subst hanswer
                apply h.self hbefore
                · rw [← hworker] at hheld
                  apply hheld
                · rw [hrows]
                  intro hrow
                  apply absurd hnorow hrow
                · rw [hworker]
                  apply h.handles.begin hrequest hdest
                · intro about
                  trivial
              · rw [herror] at hanswer
                subst hanswer
                rw [hsame] at hworker
                rw [UploadsWorld.eq_of_parts hworker hrows]
                apply hidle
          · rw [hsame]
            apply hidle
      | _ => cases hallowed
  | begun =>
      have hbefore : stages k ≠ .added := by
        rw [hstage]
        rintro ⟨⟩
      have hheld : Held world.worker id.text destPath := by
        have hkept := h.kept
        rw [hstage] at hkept
        apply hkept
      rw [hstage] at hallowed
      cases op with
      | addUpload upload =>
          have hid : upload.id = id.text := hallowed
          obtain ⟨hsame, hrows⟩ := UploadsWorld.of_addUpload hperform (hadd upload rfl)
          have hworker : (world.put part).worker = world.worker := hsame
          have hrow : (world.put part).rows id.text ≠ none := by
            rw [← hid]
            apply ne_of_eq_of_ne (congrFun hrows upload.id)
            rw [Function.update_self]
            simp
          apply h.self hbefore
          · left
            rw [hworker]
            exact ⟨hheld, hrow⟩
          · intro _
            rfl
          · rw [hworker]
            apply h.handles
          · intro about
            trivial
      | _ => cases hallowed
  | _ =>
      rw [hstage] at hallowed
      cases op with
      | _ => cases hallowed

end

/-! ### What is left of uploads -/

/-- A DELETE that runs alone, and with which nothing goes wrong, removes a part file that is held. -/
theorem Held.ensures_deleteUpload {uploadId destPath : String} {world : UploadWorld uploadId}
    {upload : Upload} (h : Held world.worker uploadId destPath) (hrow : world.row = some upload) :
  (UploadsApi.deleteUpload uploadId upload.uid).run.Ensures (UploadWorld.answerTusBy [])
    (fun _ _ => True)
    (fun r s => r = .ok ⟨204, tusHeaders []⟩ ∧ s.1.worker.files (partPathFor destPath uploadId) = none
      ∧ s.1.row = none)
    (world, Script.well)
  := by
  have hid := world.row_id upload hrow
  have hget : world.answerTus [] (.getUpload uploadId) PatchChoice.well = (.ok (some upload), world) := by
    change (Except.ok (if uploadId = uploadId then world.row else none), world) = _
    rw [if_pos rfl, hrow]
  obtain ⟨hok, hcleared⟩ := @Held.abort _ _ _ (fun _ => none) h rfl
  have habort : world.answerTus [] (.uploadAbort upload.id) PatchChoice.well
      = (.ok (), { world with worker := ((UploadsHandlers.abort uploadId).run.execute
          (Worker.answer fun _ => none) world.worker).2 }) := by
    have hcall : (AgentClient.call (fun _ => none) UploadsHandlers.abort upload.id).run.execute
        (Worker.answer fun _ => none) world.worker
          = (.ok (), ((UploadsHandlers.abort uploadId).run.execute (Worker.answer fun _ => none)
            world.worker).2) := by
      rw [hid, AgentClient.execute_call rfl, hok]
      rfl
    change (((AgentClient.call (fun _ => none) UploadsHandlers.abort upload.id).run.execute
        (Worker.answer fun _ => none) world.worker).1,
      ({ world with worker := ((AgentClient.call (fun _ => none) UploadsHandlers.abort upload.id).run.execute
        (Worker.answer fun _ => none) world.worker).2 } : UploadWorld uploadId)) = _
    rw [hcall]
  intro _
  change Coroutine.Ensures _ _ _
    (Coroutine.bind (.done (world.answerTus [] (.getUpload uploadId) PatchChoice.well).1) _)
    ((world.answerTus [] (.getUpload uploadId) PatchChoice.well).2, Script.well)
  rw [hget]
  apply Async.ensures_raiseIf_bind
  · intro hne
    apply absurd rfl hne
  · intro _ _
    change Coroutine.Ensures _ _ _ (Coroutine.bind
        (Coroutine.bind (Coroutine.bind (Coroutine.bind
          (.done (world.answerTus [] (.uploadAbort upload.id) PatchChoice.well).1) _) _) _) _)
      ((world.answerTus [] (.uploadAbort upload.id) PatchChoice.well).2, Script.well)
    rw [habort]
    intro _
    exact ⟨rfl, hcleared.gone, rfl⟩

/-- The uploads of the requests are fresh: there is none yet, and no part file with one of their ids. -/
structure FreshUploads (requests : List UploadsRequest) (world : UploadsWorld) : Prop where
  unregistered : ∀ uploadId, world.worker.uploads uploadId = none
  rows : ∀ uploadId, world.rows uploadId = none
  files : ∀ (i : ℕ) (id : UuidHex) (request : PostRequest), requests[i]? = some (.post id request) →
    ∀ destPath, world.worker.files (partPathFor destPath id.text) = none

/-- A part file that is on disk once its POST was answered has a row and a handle, and the DELETE of its
owner removes it; a DELETE that was answered with success has left no part file. -/
structure PartFileReached (requests : List UploadsRequest) (k : ℕ) (id : UuidHex) (destPath : String)
    (p : Pool UploadsOp UploadsOp.Answer UploadsWorld (Except Exc Response)) : Prop where
  reached : p.pendingOf k = none → p.world.worker.files (partPathFor destPath id.text) ≠ none →
    ∃ upload, p.world.rows id.text = some upload
      ∧ p.world.worker.uploads id.text = some ⟨destPath, partPathFor destPath id.text⟩
      ∧ ((UploadsApi.deleteUpload id.text upload.uid).run.execute (UploadWorld.answerTusBy [])
          (p.world.upload id.text, Script.well)).1 = .ok ⟨204, tusHeaders []⟩
      ∧ ((UploadsApi.deleteUpload id.text upload.uid).run.execute (UploadWorld.answerTusBy [])
          (p.world.upload id.text, Script.well)).2.1.worker.files (partPathFor destPath id.text) = none
  removed : ∀ (i uid : ℕ) (response : Response), requests[i]? = some (.delete id.text uid) →
    p.tasks[i]? = some (.done (.ok response)) →
      p.world.worker.files (partPathFor destPath id.text) = none

section

variable {requests : List UploadsRequest} {k : ℕ} {id : UuidHex} {destPath : String}
  {volumes : List (String × ℕ)} {world : UploadsWorld} {l : List (Pool.Label PatchChoice Unit)}
  {p : Pool UploadsOp UploadsOp.Answer UploadsWorld (Except Exc Response)}

/-- The worker is restarted while no upload of the requests is registered. -/
theorem RowsInv.restart {stages : ℕ → UploadsStage}
    (h : RowsInv requests k id.text destPath stages world) (hbegins : BeginsAt requests k id destPath)
    (hunregistered : ∀ request ∈ requests, world.worker.uploads request.about = none) :
  RowsInv requests k id.text destPath stages world.restart
  := by
  obtain ⟨request, hpost, -⟩ := hbegins.post
  have hnone : world.worker.uploads id.text = none :=
    hunregistered _ (List.mem_of_getElem? hpost)
  have hcleared : Cleared world.worker id.text destPath →
      Cleared world.restart.worker id.text destPath := by
    intro hcleared
    exact ⟨rfl, hcleared.gone⟩
  constructor
  · have hkept := h.kept
    cases hstage : stages k with
    | begun =>
        rw [hstage] at hkept
        cases hnone.symm.trans hkept.registered
    | added =>
        rw [hstage] at hkept
        rcases hkept with ⟨hheld, -⟩ | hgone
        · cases hnone.symm.trans hheld.registered
        · right
          apply hcleared hgone
    | _ =>
        rw [hstage] at hkept
        apply hcleared hkept
  · apply h.row
  · intro i request' hrequest'
    apply (h.knows i request' hrequest').mono hcleared
  · rintro uploadId handle ⟨⟩

/-- The step lemma of the invariant. -/
theorem RowsInv.step {stages : ℕ → UploadsStage} {i : ℕ} {request : UploadsRequest}
    {op : UploadsOp} {r : op.Answer} {world' : UploadsWorld} {choice : PatchChoice}
    (h : RowsInv requests k id.text destPath stages p.world) (hids : OwnIds requests)
    (hbegins : BeginsAt requests k id destPath) (hrequest : requests[i]? = some request)
    (hpending : p.pendingOf i = some op) (hallowed : request.protocol.allowed (stages i) op)
    (hundisturbed : Undisturbed requests p (.task i choice))
    (hperform : p.world.perform volumes op choice = some (r, world')) :
  RowsInv requests k id.text destPath
    (Function.update stages i (request.protocol.next (stages i) op r)) world'
  := by
  obtain ⟨request₀, hpost, hdest⟩ := hbegins.post
  simp only [Undisturbed, hpending] at hundisturbed
  cases op with
  | tus op =>
      obtain ⟨⟨r', part⟩, hpart, heq⟩ := Option.map_eq_some_iff.mp hperform
      cases heq
      cases request with
      | post id' request' =>
          by_cases hik : i = k
          · subst hik
            cases hpost.symm.trans hrequest
            apply h.stepSelf hpost hdest hallowed _ _ hpart
            · rintro uploadId' destPath' size rfl
              apply hundisturbed
            · rintro upload rfl
              apply hundisturbed
          · apply h.stepPost hik hrequest _ hallowed hpart
            intro heq
            apply hik (hids i k id' id request' request₀ hrequest hpost heq)
      | delete uploadId uid =>
          have hik : i ≠ k := by
            rintro rfl
            cases hpost.symm.trans hrequest
          apply h.stepDelete hbegins hik hrequest rfl hallowed _ hpart
          rintro uploadId' rfl
          apply hundisturbed
      | _ => cases hallowed
  | patch op =>
      obtain ⟨⟨r', part⟩, hpart, heq⟩ := Option.map_eq_some_iff.mp hperform
      cases heq
      have hik : i ≠ k := by
        rintro rfl
        cases hpost.symm.trans hrequest
        cases hallowed
      cases request with
      | patch uploadId request' => apply h.stepPatch hbegins hik hrequest rfl hallowed hpart
      | head uploadId uid => apply h.stepPatch hbegins hik hrequest rfl hallowed hpart
      | _ => cases hallowed

/-- In every run of requests for uploads in which no worker is restarted while an upload is registered,
no part file is refused its removal, and nothing fails between the beginning of an upload and the commit
of its row, every part file is reached by a DELETE. -/
theorem partFileReached_of_run (hids : OwnIds requests) (hfresh : FreshUploads requests world)
    (hbegins : BeginsAt requests k id destPath)
    (hundisturbed : (Pool.machine (uploadsEffects volumes)).Along (Undisturbed requests)
      (UploadsRequest.pool requests world) l)
    (hrun : (Pool.machine (uploadsEffects volumes)).run (UploadsRequest.pool requests world) l = some p) :
  PartFileReached requests k id destPath p
  := by
  obtain ⟨request₀, hpost, hdest⟩ := hbegins.post
  let requestOf : ℕ → UploadsRequest := fun i => requests.getD i (.head "" 0)
  have hrequest : ∀ (i : ℕ) (request : UploadsRequest), requests[i]? = some request →
      requestOf i = request := by
    intro i request hi
    simp only [requestOf, List.getD_eq_getElem?_getD, hi, Option.getD_some]
  have hobeying : (UploadsRequest.pool requests world).Obeying (fun i => (requestOf i).protocol)
      (fun i => (requestOf i).Ends) fun _ => .idle := by
    intro i c hc
    obtain ⟨request, hi, rfl⟩ := Option.map_eq_some_iff.mp (List.getElem?_map ▸ hc)
    change request.task.Obeys (requestOf i).protocol (requestOf i).Ends .idle
    rw [hrequest i request hi]
    apply request.obeys_task
  have hstart : RowsInv requests k id.text destPath (fun _ => .idle) world := by
    constructor
    · exact ⟨hfresh.unregistered _, hfresh.files k id request₀ hpost destPath⟩
    · intro hrow
      apply absurd (hfresh.rows _) hrow
    · intro i request _
      trivial
    · intro uploadId handle hregistered
      cases (hfresh.unregistered uploadId).symm.trans hregistered
  obtain ⟨hlength, stages, hobeys, hinv⟩ := Pool.run_obeys
    (I := fun stages p => RowsInv requests k id.text destPath stages p.world) hobeying hstart
    (by
      intro p stages i choice op resume r world' hlength _ hinv hD hi hallowed hperform
      rw [List.length_map] at hlength
      obtain ⟨hlt, -⟩ := List.getElem?_eq_some_iff.mp hi
      have hi' : requests[i]? = some (requestOf i) := by
        have hlt' : i < requests.length := hlength ▸ hlt
        simp only [requestOf, List.getD_eq_getElem?_getD, List.getElem?_eq_getElem hlt',
          Option.getD_some]
      apply hinv.step hids hbegins hi' (Pool.pendingOf_eq hi) hallowed hD hperform)
    (by
      intro p stages e world' hinv hD hworld
      cases hworld
      apply hinv.restart hbegins hD)
    hundisturbed hrun
  constructor
  · intro hdone hfile
    have hbegun : stages k ≠ .begun := by
      intro hstage
      rw [List.length_map] at hlength
      obtain ⟨hlt, -⟩ := List.getElem?_eq_some_iff.mp hpost
      obtain ⟨c, hc⟩ : ∃ c, p.tasks[k]? = some c := ⟨_, List.getElem?_eq_getElem (hlength ▸ hlt)⟩
      have hobey : c.Obeys (requestOf k).protocol (requestOf k).Ends (stages k) := hobeys k c hc
      rw [Pool.pendingOf_eq hc] at hdone
      rw [hrequest k _ hpost, hstage] at hobey
      cases c with
      | done result => apply hobey rfl
      | await op resume => cases hdone
    have hkept := hinv.kept
    have hheld : Held p.world.worker id.text destPath ∧ p.world.rows id.text ≠ none := by
      cases hstage : stages k with
      | begun => apply absurd hstage hbegun
      | added =>
          rw [hstage] at hkept
          rcases hkept with hkept | hcleared
          · apply hkept
          · apply absurd hcleared.gone hfile
      | _ =>
          rw [hstage] at hkept
          apply absurd hkept.gone hfile
    obtain ⟨upload, hrow⟩ := Option.ne_none_iff_exists'.mp hheld.2
    have hdeleted := (@Held.ensures_deleteUpload _ _ (p.world.upload id.text) upload hheld.1
      hrow).execute (Coroutine.executesAlong_true _ _)
    exact ⟨upload, hrow, hheld.1.registered, hdeleted.1, hdeleted.2.1⟩
  · intro i uid response hi hdone
    have hends : (requestOf i).Ends (stages i) (.ok response) := hobeys i _ hdone
    rw [hrequest i _ hi] at hends
    obtain ⟨uploadId, hstage⟩ := hends response rfl
    have hknows := hinv.knows i _ hi
    rw [hstage] at hknows
    apply (hknows.2 hknows.1).2.gone

end

/-- The worker of a user who has no uploads. -/
def mediaUploads : UploadsWorld where
  worker := mediaWorker
  rows _ := none
  rows_id := UploadWorld.row_id_none

/-- An upload of two bytes, and a DELETE of it. -/
def begunAndDeleted : List UploadsRequest :=
  [.post mediaId (mediaPost "2"), .delete mediaId.text 1001]

theorem begunAndDeleted_ownIds :
  OwnIds begunAndDeleted
  := by
  have hzero : ∀ (i : ℕ) (id : UuidHex) (request : PostRequest),
      begunAndDeleted[i]? = some (.post id request) → i = 0 := by
    rintro (_ | _ | i) id request hi
    · rfl
    · cases hi
    · cases hi
  intro i j id id' request request' hi hj _
  rw [hzero i id request hi, hzero j id' request' hj]

theorem begunAndDeleted_fresh :
  FreshUploads begunAndDeleted mediaUploads
  := by
  refine ⟨fun _ => rfl, fun _ => rfl, ?_⟩
  rintro (_ | _ | i) id request hi destPath
  · cases hi
    apply mediaWorld_fresh
  · cases hi
  · cases hi

theorem begunAndDeleted_begins :
  BeginsAt begunAndDeleted 0 mediaId "/volume1/media/a"
  := by
  constructor
  · exact ⟨mediaPost "2", rfl, by decide +kernel⟩
  · rintro (_ | _ | i) id request hi
    · cases hi
      decide +kernel
    · cases hi
    · cases hi

/-- A step with which nothing goes wrong. -/
def wellStep (i : ℕ) : Pool.Label PatchChoice Unit :=
  .task i .well

/-- Nothing is disturbed where nothing goes wrong. -/
theorem undisturbed_well (requests : List UploadsRequest)
    (p : Pool UploadsOp UploadsOp.Answer UploadsWorld (Except Exc Response)) (i : ℕ) :
  Undisturbed requests p (wellStep i)
  := by
  rw [wellStep, Undisturbed]
  split
  · intro _
    rfl
  · rfl
  · intro _ _
    rfl
  · trivial

/-- An upload is begun and deleted. -/
theorem partFileReached_deleted :
  ∃ p, (Pool.machine (uploadsEffects [])).run (UploadsRequest.pool begunAndDeleted mediaUploads)
      ([0, 0, 0, 1, 1, 1].map wellStep) = some p
    ∧ PartFileReached begunAndDeleted 0 mediaId "/volume1/media/a" p
  := by
  have hdone : ((Pool.machine (uploadsEffects [])).run (UploadsRequest.pool begunAndDeleted mediaUploads)
      ([0, 0, 0, 1, 1, 1].map wellStep)).map (fun p => p.tasks.map Coroutine.result)
      = some [some (.ok ⟨201, tusHeaders [("Location", "/api/v1/uploads/" ++ mediaId.text)]⟩),
          some (.ok ⟨204, tusHeaders []⟩)] := by
    rfl
  obtain ⟨p, hrun, -⟩ := Option.map_eq_some_iff.mp hdone
  use p, hrun
  apply partFileReached_of_run begunAndDeleted_ownIds begunAndDeleted_fresh begunAndDeleted_begins _ hrun
  apply Machine.along_of_mem
  intro a ha q
  obtain ⟨i, -, rfl⟩ := List.mem_map.mp ha
  apply undisturbed_well

/-- The worker is restarted after an upload was begun: its DELETE is answered with success, and the part
file stays. -/
theorem not_partFileReached_restarted :
  ¬ ∀ (requests : List UploadsRequest) (k : ℕ) (id : UuidHex) (destPath : String)
      (volumes : List (String × ℕ)) (world : UploadsWorld) (l : List (Pool.Label PatchChoice Unit))
      (p : Pool UploadsOp UploadsOp.Answer UploadsWorld (Except Exc Response)),
      OwnIds requests → FreshUploads requests world → BeginsAt requests k id destPath →
      (Pool.machine (uploadsEffects volumes)).run (UploadsRequest.pool requests world) l = some p →
      PartFileReached requests k id destPath p
  := by
  intro hall
  have hdone : ((Pool.machine (uploadsEffects [])).run (UploadsRequest.pool begunAndDeleted mediaUploads)
      ([0, 0, 0].map wellStep ++ .environment () :: [1, 1, 1].map wellStep)).map
        (fun p => (p.tasks[1]?, (p.world.worker.files (partPathFor "/volume1/media/a" mediaId.text)).isSome))
      = some (some (.done (.ok ⟨204, tusHeaders []⟩)), true) := by
    rfl
  obtain ⟨p, hrun, hp⟩ := Option.map_eq_some_iff.mp hdone
  obtain ⟨htask, hfile⟩ := Prod.mk.inj hp
  have hreached := hall begunAndDeleted 0 mediaId "/volume1/media/a" [] mediaUploads _ p
    begunAndDeleted_ownIds begunAndDeleted_fresh begunAndDeleted_begins hrun
  rw [hreached.removed 1 1001 _ rfl htask] at hfile
  cases hfile
