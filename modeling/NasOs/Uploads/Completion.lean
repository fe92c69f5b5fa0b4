import NasOs.Uploads.Resuming

/-!
# When an upload is complete

The requests of one upload are served one after the other, and any of their operations may fail.  A HEAD
tells the client that the upload is complete when it reports the length as the offset.  That is before the
upload is published when the part file has its length between two requests: after a POST that declares
no length, or when something failed after the last byte was written.
-/

/-- A request for uploads. -/
inductive TusRequest where
  | post (request : PostRequest) (volumes : List (String × ℕ))
  | patch (uploadId : String) (request : PatchRequest)
  | head (uploadId : String) (uid : ℕ)
  | delete (uploadId : String) (uid : ℕ)

/-- What a request that is served by a script leaves. -/
def UploadWorld.serve {uploadId : String} (world : UploadWorld uploadId) (script : Script) :
    TusRequest → UploadWorld uploadId
  | .post request volumes =>
      ((UploadsApi.createUpload uploadId request).run.execute (answerTusBy volumes)
        (world, script)).2.1
  | .patch id request => ((UploadsApi.patchUpload id request).run.execute answerBy (world, script)).2.1
  | .head id uid => ((UploadsApi.headUpload id uid).run.execute answerBy (world, script)).2.1
  | .delete id uid =>
      ((UploadsApi.deleteUpload id uid).run.execute (answerTusBy []) (world, script)).2.1

/-- The machine of the requests of an upload. -/
def tusMachine (uploadId : String) : Machine (UploadWorld uploadId) (TusRequest × Script) where
  step world label := some (world.serve label.2 label.1)

namespace UploadWorld

variable {uploadId : String}

/-- The part file of the upload has the length that its row declares. -/
def Full (world : UploadWorld uploadId) : Prop :=
  ∃ upload handle node, world.row = some upload ∧ world.worker.uploads uploadId = some handle
    ∧ world.worker.files handle.partPath = some node ∧ upload.size = node.content.length

/-- A HEAD reports the length as the offset. -/
def SaysComplete (world : UploadWorld uploadId) (uid : ℕ) : Prop :=
  ∃ response, ((UploadsApi.headUpload uploadId uid).run.execute (answerDelivery false) (world, 0)).1
      = .ok response
    ∧ response.headers.lookup "Upload-Offset" = response.headers.lookup "Upload-Length"

/-- Once a HEAD says that the upload is complete, the file is at its destination and no part file is
left. -/
def PublishedWhenComplete (world : UploadWorld uploadId) : Prop :=
  ∀ uid, world.SaysComplete uid → ∀ handle, world.worker.uploads uploadId = some handle →
    world.worker.files handle.destPath ≠ none ∧ world.worker.files handle.partPath = none

/-- An operation that does not leave the part file full, or nothing goes wrong with it. -/
def FaultlessWhenFull (state : UploadWorld uploadId × Script) (op : PatchOp) : Prop :=
  (state.1.answer op (state.2 0)).2.Full → (state.2 0).Faultless

/-- The condition on a request: a POST declares a length other than zero, and nothing goes wrong with
an operation of a PATCH that leaves the part file full. -/
def Condition (world : UploadWorld uploadId) (label : TusRequest × Script) : Prop :=
  match label.1 with
  | .post request _ => request.size ≠ some 0
  | .patch id request =>
      (UploadsApi.patchUpload id request).run.ExecutesAlong answerBy FaultlessWhenFull
        (world, label.2)
  | _ => True

/-- The id that `uuid4` gives a POST is fresh: there is no row and no part file with it. -/
def FreshId (world : UploadWorld uploadId) (label : TusRequest × Script) : Prop :=
  match label.1 with
  | .post _ _ => world.row = none
      ∧ ∀ destPath, world.worker.files (partPathFor destPath uploadId) = none
  | _ => True

end UploadWorld

/-! ### The invariant -/

section

variable {id : UuidHex} {world world' : UploadWorld id.text} {upload : Upload} {handle : UploadHandle}
  {content : List UInt8} {script : Script}

/-- Between two requests the part file of an upload that is registered is in place, and not full. -/
structure Settled (world : UploadWorld id.text) : Prop where
  placed : ∀ handle, world.worker.uploads id.text = some handle →
    ∃ content, Placed world.worker id.text handle content
  not_full : ¬ world.Full

/-- An upload that is not registered is settled. -/
theorem Settled.of_unregistered (h : world.worker.uploads id.text = none) :
  Settled world
  := by
  constructor
  · intro handle hregistered
    cases h.symm.trans hregistered
  · rintro ⟨upload, handle, node, -, hregistered, -⟩
    cases h.symm.trans hregistered

/-- An upload without a row is settled when its part file is in place. -/
theorem Settled.of_row_none (hplaced : ∀ handle, world.worker.uploads id.text = some handle →
    ∃ content, Placed world.worker id.text handle content) (hrow : world.row = none) :
  Settled world
  := by
  use hplaced
  rintro ⟨upload, handle, node, hrow', -⟩
  cases hrow.symm.trans hrow'

/-- An upload that is under way and not full is settled. -/
theorem Uploading.settled (h : Uploading world upload handle content) (hfull : ¬ world.Full) :
  Settled world
  := by
  refine ⟨?_, hfull⟩
  intro handle' hregistered
  cases h.placed.registered.symm.trans hregistered
  exact ⟨content, h.placed⟩

/-- The part file of an upload that is under way is full when it has the length of its row. -/
theorem Uploading.full_iff (h : Uploading world upload handle content) :
  world.Full ↔ upload.size = content.length
  := by
  obtain ⟨node, hnode, -, rfl⟩ := h.placed.isFile
  constructor
  · rintro ⟨upload', handle', node', hrow, hregistered, hnode', hsize⟩
    cases h.row.symm.trans hrow
    cases h.placed.registered.symm.trans hregistered
    cases hnode.symm.trans hnode'
    apply hsize
  · intro hsize
    exact ⟨upload, handle, node, h.row, h.placed.registered, hnode, hsize⟩

/-! ### What a PATCH keeps -/

/-- Where something goes wrong without leaving the part file full, the upload is settled. -/
theorem Uploading.settled_of_fault (h : Uploading world upload handle content)
    (hD : world.Full → (script 0).Faultless) (hfault : ¬ (script 0).Faultless) :
  Settled world
  := h.settled fun hfull => hfault (hD hfull)

/-- An operation that changes nothing goes well, or leaves the upload settled. -/
theorem Uploading.quiet (h : Uploading world upload handle content)
    {a : Except Exc Unit × UploadWorld id.text}
    (ha : a = ((script 0).outcome (.ok (), world) world).getD (.error cancelled, world))
    (hD : a.2.Full → (script 0).Faultless) :
  a.2 = world ∧ (a.1 = .ok () ∨ (∃ e, a.1 = .error e) ∧ Settled world)
  := by
  rcases (script 0).getD_outcome (.ok (), world) world cancelled with hok | ⟨hfault, e, herror | herror⟩
  · rw [ha, hok]
    exact ⟨rfl, Or.inl rfl⟩
  · rw [ha, herror] at hD ⊢
    exact ⟨rfl, Or.inr ⟨⟨e, rfl⟩, h.settled_of_fault hD hfault⟩⟩
  · rw [ha, herror] at hD ⊢
    exact ⟨rfl, Or.inr ⟨⟨e, rfl⟩, h.settled_of_fault hD hfault⟩⟩

/-- A chunk is written, or something goes wrong and the upload is settled. -/
theorem Uploading.goes_writeChunk (h : Uploading world upload handle content) (data : List UInt8)
    (hD : (world.answer (.writeChunk upload.id content.length data) (script 0)).2.Full →
      (script 0).Faultless) :
  ((world.answer (.writeChunk upload.id content.length data) (script 0)).1
        = .ok ((content ++ data).length : ℤ)
      ∧ Uploading (world.answer (.writeChunk upload.id content.length data) (script 0)).2 upload handle
        (content ++ data))
    ∨ (∃ e, (world.answer (.writeChunk upload.id content.length data) (script 0)).1 = .error e)
      ∧ Settled (world.answer (.writeChunk upload.id content.length data) (script 0)).2
  := by
  rcases hdone : (Fileworker.uploadChunk id.text content.length data).run.execute
    (Worker.answer (script 0).refuses) world.worker with ⟨r, w'⟩
  have hchunk := @Placed.uploadChunk world.worker id.text handle content (script 0).refuses h.placed data
  rw [hdone] at hchunk
  obtain ⟨written, -, hplaced, hresult⟩ := hchunk
  have huploading : Uploading { world with worker := w' } upload handle (content ++ written) :=
    ⟨h.row, hplaced⟩
  have hwrite : world.answer (.writeChunk id.text content.length data) (script 0)
      = (world.atWorker (Fileworker.uploadChunk id.text content.length data) (script 0)).getD
        (.error cancelled, world) := rfl
  rw [h.id_eq, hwrite] at hD ⊢
  rcases world.getD_atWorker (Fileworker.uploadChunk id.text content.length data) (script 0) hdone
    cancelled with hanswer | ⟨hfault, e, hanswer | hanswer⟩
  · rw [hanswer] at hD ⊢
    rcases hresult with ⟨e, op, hr, hrefused⟩ | ⟨rfl, hr⟩
    · right
      use ⟨e, hr⟩
      apply huploading.settled_of_fault hD
      intro hfaultless
      apply hrefused (hfaultless.refuses op)
    · left
      exact ⟨hr, huploading⟩
  · rw [hanswer] at hD ⊢
    right
    exact ⟨⟨e, rfl⟩, huploading.settled_of_fault hD hfault⟩
  · rw [hanswer] at hD ⊢
    right
    exact ⟨⟨e, rfl⟩, h.settled_of_fault hD hfault⟩

/-- How a part of a PATCH ends: with an upload under way whose part file ends at the offset told, or
with an exception and the upload settled. -/
def Goes {α : Type} (offset : α → ℤ) (upload : Upload) (handle : UploadHandle)
    (r : Except Exc α) (state : UploadWorld id.text × Script) : Prop :=
  match r with
  | .ok a => ∃ content, Uploading state.1 upload handle content ∧ offset a = content.length
  | .error _ => Settled state.1

/-- The rule for a chunk. -/
theorem Uploading.ensures_writeChunk (h : Uploading world upload handle content) (data : List UInt8) :
  (UploadsService.writeChunk upload content.length data).run.Ensures UploadWorld.answerBy
    UploadWorld.FaultlessWhenFull (Goes (fun offset => offset) upload handle) (world, script)
  := by
  apply Coroutine.Ensures.exceptT_bind (Q := Goes (fun offset => offset) upload handle)
  · apply Coroutine.Ensures.tryCatch (Q := Goes (fun offset => offset) upload handle)
    · intro hD
      change Goes _ _ _ (world.answer (.writeChunk upload.id content.length data) (script 0)).1
        ((world.answer (.writeChunk upload.id content.length data) (script 0)).2, script.rest)
      rcases h.goes_writeChunk data hD with ⟨hok, huploading⟩ | ⟨⟨e, herror⟩, hsettled⟩
      · rw [hok]
        exact ⟨_, huploading, rfl⟩
      · rw [herror]
        apply hsettled
    · intro offset s hs
      apply hs
    · intro e s hs
      cases e
      all_goals apply hs
  · rintro offset ⟨world', script'⟩ ⟨content', h', hoffset⟩ hD
    change Coroutine.Ensures _ _ _
      (Coroutine.bind (.done (world'.answer (.commitOffset upload.id offset) (script' 0)).1) _)
      ((world'.answer (.commitOffset upload.id offset) (script' 0)).2, script'.rest)
    obtain ⟨hsame, hok | ⟨⟨e, herror⟩, hsettled⟩⟩ := h'.quiet
      (show world'.answer (.commitOffset upload.id offset) (script' 0) =
        ((script' 0).outcome (.ok (), world') world').getD (.error cancelled, world') from rfl) hD
    · rw [hok, hsame]
      exact ⟨content', h', hoffset⟩
    · rw [herror, hsame]
      apply hsettled
  · intro e s hs
    apply hs

/-- The rule for the full chunks of a buffer. -/
theorem Uploading.ensures_writeFull (h : Uploading world upload handle content) (rounds : ℕ)
    (buf : List UInt8) :
  (UploadsApi.writeFull upload rounds content.length buf).run.Ensures UploadWorld.answerBy
    UploadWorld.FaultlessWhenFull (Goes Prod.fst upload handle) (world, script)
  := by
  induction rounds generalizing world content buf script with
  | zero => exact ⟨content, h, rfl⟩
  | succ rounds ih =>
      rw [UploadsApi.writeFull]
      split
      · apply (h.ensures_writeChunk (buf.take patchBufferSize)).exceptT_bind
        · rintro offset s ⟨content', h', rfl⟩
          apply ih h'
        · intro e s hs
          apply hs
      · exact ⟨content, h, rfl⟩

/-- The rule for the body as it arrives. -/
theorem Uploading.ensures_receiveAll (h : Uploading world upload handle content)
    (pieces : List (List UInt8)) (buf : List UInt8) :
  (UploadsApi.receiveAll upload pieces content.length buf).run.Ensures UploadWorld.answerBy
    UploadWorld.FaultlessWhenFull (Goes Prod.fst upload handle) (world, script)
  := by
  induction pieces generalizing world content buf script with
  | nil =>
      intro hD
      change Coroutine.Ensures _ _ _ (Coroutine.bind (.done (world.answer .receive (script 0)).1) _)
        ((world.answer .receive (script 0)).2, script.rest)
      obtain ⟨hsame, hok | ⟨⟨e, herror⟩, hsettled⟩⟩ :=
        h.quiet (show world.answer .receive (script 0) =
          ((script 0).outcome (.ok (), world) world).getD (.error cancelled, world) from rfl) hD
      · rw [hok, hsame]
        exact ⟨content, h, rfl⟩
      · rw [herror, hsame]
        apply hsettled
  | cons piece pieces ih =>
      intro hD
      change Coroutine.Ensures _ _ _ (Coroutine.bind (.done (world.answer .receive (script 0)).1) _)
        ((world.answer .receive (script 0)).2, script.rest)
      obtain ⟨hsame, hok | ⟨⟨e, herror⟩, hsettled⟩⟩ :=
        h.quiet (show world.answer .receive (script 0) =
          ((script 0).outcome (.ok (), world) world).getD (.error cancelled, world) from rfl) hD
      · rw [hok, hsame]
        apply (h.ensures_writeFull (buf ++ piece).length (buf ++ piece)).exceptT_bind
        · rintro ⟨offset, rest⟩ s ⟨content', h', rfl⟩
          apply ih h'
        · intro e s hs
          apply hs
      · rw [herror, hsame]
        apply hsettled

/-- An upload is completed, or something goes wrong and it is settled. -/
theorem Uploading.goes_uploadComplete (h : Uploading world upload handle content)
    (hD : (world.answer (.uploadComplete upload.id) (script 0)).2.Full → (script 0).Faultless) :
  ((world.answer (.uploadComplete upload.id) (script 0)).1 = .ok ()
      ∧ (world.answer (.uploadComplete upload.id) (script 0)).2.worker.uploads id.text = none)
    ∨ (∃ e, (world.answer (.uploadComplete upload.id) (script 0)).1 = .error e)
      ∧ Settled (world.answer (.uploadComplete upload.id) (script 0)).2
  := by
  have hcall := @AgentClient.execute_call _ _ _ _ (fun _ => none) UploadsHandlers.complete id.text _
    (Worker.answer (script 0).refuses) rfl world.worker
  have hcomplete := @Placed.complete world.worker id.text handle content (script 0).refuses h.placed
  rcases hdone : (UploadsHandlers.complete id.text).run.execute (Worker.answer (script 0).refuses)
    world.worker with ⟨r, w'⟩
  rw [hdone] at hcall hcomplete
  have hworker : world.answer (.uploadComplete id.text) (script 0)
      = (world.atWorker (AgentClient.call (fun _ => none) UploadsHandlers.complete id.text)
        (script 0)).getD (.error cancelled, world) := rfl
  rw [h.id_eq, hworker] at hD ⊢
  have hsettled : ¬ (script 0).Faultless →
      (({ world with worker := w' } : UploadWorld id.text).Full → (script 0).Faultless) →
      Settled { world with worker := w' } := by
    intro hfault hD
    rcases hcomplete with ⟨-, hsame⟩ | ⟨-, hpublished⟩
    · change w' = world.worker at hsame
      subst hsame
      apply h.settled_of_fault hD hfault
    · apply Settled.of_unregistered hpublished.unregistered
  rcases world.getD_atWorker (AgentClient.call (fun _ => none) UploadsHandlers.complete id.text)
    (script 0) hcall cancelled with hanswer | ⟨hfault, e, hanswer | hanswer⟩
  · rw [hanswer] at hD ⊢
    rcases hcomplete with ⟨⟨e, op, hr, hrefused⟩, -⟩ | ⟨hr, hpublished⟩
    · right
      constructor
      · use AgentClient.callError e
        change r = _ at hr
        rw [hr]
        rfl
      · apply hsettled _ hD
        intro hfaultless
        apply hrefused (hfaultless.refuses op)
    · left
      change r = _ at hr
      rw [hr]
      exact ⟨rfl, hpublished.unregistered⟩
  · rw [hanswer] at hD ⊢
    right
    exact ⟨⟨e, rfl⟩, hsettled hfault hD⟩
  · rw [hanswer] at hD ⊢
    right
    exact ⟨⟨e, rfl⟩, h.settled_of_fault hD hfault⟩

/-- What a completion leaves is settled: the upload is published, or not full. -/
theorem Uploading.ensures_completeUpload (h : Uploading world upload handle content) :
  (UploadsService.completeUpload upload).run.Ensures UploadWorld.answerBy
    UploadWorld.FaultlessWhenFull (fun _ s => Settled s.1) (world, script)
  := by
  apply Coroutine.Ensures.exceptT_bind
    (Q := fun r s => (r = .ok () ∧ s.1.worker.uploads id.text = none) ∨ (∃ e, r = .error e) ∧ Settled s.1)
  · apply Coroutine.Ensures.tryCatch
      (Q := fun r s => (r = .ok () ∧ s.1.worker.uploads id.text = none)
        ∨ (∃ e, r = .error e) ∧ Settled s.1)
    · intro hD
      apply h.goes_uploadComplete hD
    · intro _ s hs
      apply hs
    · rintro e s (⟨⟨⟩, -⟩ | ⟨-, hs⟩)
      cases e
      all_goals exact Or.inr ⟨⟨_, rfl⟩, hs⟩
  · rintro _ ⟨world', script'⟩ (⟨-, hunregistered⟩ | ⟨⟨e, ⟨⟩⟩, -⟩)
    intro _
    have hworker : (world'.answer (.deleteUpload upload.id) (script' 0)).2.worker = world'.worker := by
      apply PatchChoice.of_getD_outcome
        (P := fun world : UploadWorld id.text => world.worker = world'.worker) _ rfl rfl
    have hsettled : Settled (world'.answer (.deleteUpload upload.id) (script' 0)).2 := by
      apply Settled.of_unregistered
      rw [hworker]
      apply hunregistered
    change Coroutine.Ensures _ _ _
      (Coroutine.bind (.done (world'.answer (.deleteUpload upload.id) (script' 0)).1) _)
      ((world'.answer (.deleteUpload upload.id) (script' 0)).2, script'.rest)
    rcases (world'.answer (.deleteUpload upload.id) (script' 0)).1 with e | _
    · apply hsettled
    · apply hsettled
  · rintro e s (⟨⟨⟩, -⟩ | ⟨-, hs⟩)
    apply hs

/-- The rule for what is done with the whole body. -/
theorem Uploading.ensures_writeBody (h : Uploading world upload handle content)
    (pieces : List (List UInt8)) :
  (UploadsApi.writeBody upload pieces content.length).run.Ensures UploadWorld.answerBy
    UploadWorld.FaultlessWhenFull (fun _ s => Settled s.1) (world, script)
  := by
  apply (h.ensures_receiveAll pieces []).exceptT_bind
  · rintro ⟨offset, buf⟩ ⟨world', script'⟩ ⟨content', h', rfl⟩
    have hlast : (if buf = [] then pure (content'.length : ℤ)
        else UploadsService.writeChunk upload content'.length buf : PatchM ℤ).run.Ensures
          UploadWorld.answerBy UploadWorld.FaultlessWhenFull
          (Goes (fun offset => offset) upload handle) (world', script') := by
      split
      · exact ⟨content', h', rfl⟩
      · apply h'.ensures_writeChunk
    apply hlast.exceptT_bind
    · rintro lastOffset ⟨world'', script''⟩ ⟨content'', h'', rfl⟩
      apply Coroutine.Ensures.exceptT_bind (Q := fun _ s => Settled s.1)
      · by_cases hlong : upload.size ≤ (content''.length : ℤ)
        · rw [if_pos hlong]
          apply h''.ensures_completeUpload
        · rw [if_neg hlong]
          apply h''.settled
          rw [h''.full_iff]
          rintro hfull
          apply hlong hfull.le
      · intro _ s hs
        apply hs
      · intro e s hs
        apply hs
    · intro e s hs
      apply hs
  · intro e s hs
    apply hs

/-- The worker is asked for the size of the part file, which changes nothing. -/
theorem Settled.answer_uploadOffset (h : Settled world) (choice : PatchChoice) :
  (world.answer (.uploadOffset id.text) choice).2 = world
    ∧ ∀ size, (world.answer (.uploadOffset id.text) choice).1 = .ok size →
      ∃ handle content, Placed world.worker id.text handle content ∧ size = content.length
  := by
  have hcall := @AgentClient.execute_call _ _ _ _ (fun _ => none) UploadsHandlers.offset id.text _
    (Worker.answer choice.refuses) rfl world.worker
  have hworker : world.answer (.uploadOffset id.text) choice
      = (world.atWorker (AgentClient.call (fun _ => none) UploadsHandlers.offset id.text)
        choice).getD (.error cancelled, world) := rfl
  have hoffset : ((UploadsHandlers.offset id.text).run.execute (Worker.answer choice.refuses)
        world.worker).2 = world.worker
      ∧ ∀ size, ((UploadsHandlers.offset id.text).run.execute (Worker.answer choice.refuses)
          world.worker).1 = .ok size →
        ∃ handle content, Placed world.worker id.text handle content ∧ size = content.length := by
    cases hregistered : world.worker.uploads id.text with
    | none =>
        rw [UploadsHandlers.offset, ExceptT.run_bind, Coroutine.execute_bind,
          Worker.execute_handleOrRaise, hregistered]
        use rfl
        rintro size ⟨⟩
    | some handle =>
        obtain ⟨content, hplaced⟩ := h.placed handle hregistered
        obtain ⟨node, hnode, hdir, hcontent⟩ := hplaced.isFile
        obtain ⟨hsame, hsize⟩ := @HasBytes.offset _ _ _ _ choice.refuses
          (HasBytes.part node hregistered hnode hdir hcontent)
        use hsame
        intro size hok
        exact ⟨handle, content, hplaced, (hsize size hok).1⟩
  rcases hdone : (UploadsHandlers.offset id.text).run.execute (Worker.answer choice.refuses)
    world.worker with ⟨r, w'⟩
  rw [hdone] at hcall hoffset
  obtain ⟨rfl, hsize⟩ := hoffset
  rw [hworker]
  rcases world.getD_atWorker (AgentClient.call (fun _ => none) UploadsHandlers.offset id.text)
    choice hcall cancelled with hanswer | ⟨-, e, hanswer | hanswer⟩
  · rw [hanswer]
    use rfl
    intro size hok
    apply hsize
    change Except.mapError AgentClient.callError r = _ at hok
    cases r with
    | error e => cases hok
    | ok size' =>
        cases hok
        rfl
  · rw [hanswer]
    use rfl
    rintro size ⟨⟩
  · rw [hanswer]
    use rfl
    rintro size ⟨⟩

/-- Asking for the size of the part file changes nothing, and tells where it ends. -/
theorem Settled.ensures_currentOffset {D : UploadWorld id.text × Script → PatchOp → Prop}
    (h : Settled world) :
  (UploadsService.currentOffset id.text).run.Ensures UploadWorld.answerBy D
    (fun r s => s.1 = world ∧ ∀ size, r = .ok size → ∃ handle content,
      Placed world.worker id.text handle content ∧ size = content.length)
    (world, script)
  := by
  apply Coroutine.Ensures.tryCatch
    (Q := fun r s => s.1 = world ∧ ∀ size, r = .ok size → ∃ handle content,
      Placed world.worker id.text handle content ∧ size = content.length)
  · intro _
    apply h.answer_uploadOffset (script 0)
  · intro size s hs
    apply hs
  · rintro e s ⟨hs, -⟩
    cases e
    all_goals
      refine ⟨hs, ?_⟩
      rintro size ⟨⟩

/-- A row that is found is that of the upload. -/
theorem UploadWorld.of_getUpload {uploadId : String} {choice : PatchChoice}
    (h : ((choice.outcome (.ok (if uploadId = id.text then world.row else none), world) world).getD
      (.error cancelled, world)).1 = .ok (some upload)) :
  uploadId = id.text ∧ world.row = some upload
  := by
  rcases choice.getD_outcome (.ok (if uploadId = id.text then world.row else none), world) world
    cancelled with hanswer | ⟨-, e, hanswer | hanswer⟩
  · rw [hanswer] at h
    split at h
    · rename_i hid
      exact ⟨hid, Except.ok.inj h⟩
    · cases h
  · rw [hanswer] at h
    cases h
  · rw [hanswer] at h
    cases h

/-- What a PATCH leaves is settled. -/
theorem Settled.ensures_patchUpload (h : Settled world) (uploadId : String) (request : PatchRequest) :
  (UploadsApi.patchUpload uploadId request).run.Ensures UploadWorld.answerBy
    UploadWorld.FaultlessWhenFull (fun _ s => Settled s.1) (world, script)
  := by
  have hsame : (world.answer (.getUpload uploadId) (script 0)).2 = world := by
    apply PatchChoice.of_getD_outcome (P := fun world' => world' = world) _ rfl rfl
  intro _
  change Coroutine.Ensures _ _ _
    (Coroutine.bind (.done (world.answer (.getUpload uploadId) (script 0)).1) _)
    ((world.answer (.getUpload uploadId) (script 0)).2, script.rest)
  rw [hsame]
  rcases hanswer : (world.answer (.getUpload uploadId) (script 0)).1 with e | _ | upload
  · apply h
  · apply h
  · obtain ⟨rfl, hrow⟩ := UploadWorld.of_getUpload hanswer
    apply Async.ensures_raiseIf_bind (fun _ => h)
    intro _
    apply Async.ensures_raiseIf_bind (fun _ => h)
    intro _
    apply Async.ensures_raiseIf_bind (fun _ => h)
    intro _
    cases request.offset with
    | none => apply h
    | some offset =>
        apply h.ensures_currentOffset.exceptT_bind
        · rintro size ⟨world', script'⟩ ⟨rfl, hsize⟩
          obtain ⟨handle, content, hplaced, rfl⟩ := hsize size rfl
          by_cases hoffset : offset = content.length
          · rw [if_neg (not_not.mpr hoffset), hoffset]
            apply Coroutine.Ensures.exceptT_bind (Q := fun _ s => Settled s.1)
            · have huploading : Uploading world' upload handle content := ⟨hrow, hplaced⟩
              apply (huploading.ensures_writeBody request.pieces).tryCatch
              · intro offset s hs
                apply hs
              · intro e s hs
                cases e
                all_goals apply hs
            · intro offset s hs
              apply hs
            · intro e s hs
              apply hs
          · rw [if_pos hoffset]
            apply h
        · rintro e s ⟨hs, -⟩
          rw [hs]
          apply h

/-! ### What the other requests keep -/

/-- A HEAD changes nothing. -/
theorem Settled.ensures_headUpload (h : Settled world) (uploadId : String) (uid : ℕ) :
  (UploadsApi.headUpload uploadId uid).run.Ensures UploadWorld.answerBy (fun _ _ => True)
    (fun _ s => Settled s.1) (world, script)
  := by
  have hsame : (world.answer (.getUpload uploadId) (script 0)).2 = world := by
    apply PatchChoice.of_getD_outcome (P := fun world' => world' = world) _ rfl rfl
  intro _
  change Coroutine.Ensures _ _ _
    (Coroutine.bind (.done (world.answer (.getUpload uploadId) (script 0)).1) _)
    ((world.answer (.getUpload uploadId) (script 0)).2, script.rest)
  rw [hsame]
  rcases hanswer : (world.answer (.getUpload uploadId) (script 0)).1 with e | _ | upload
  · apply h
  · apply h
  · obtain ⟨rfl, -⟩ := UploadWorld.of_getUpload hanswer
    apply Async.ensures_raiseIf_bind (fun _ => h)
    intro _
    apply h.ensures_currentOffset.exceptT_bind
    · rintro size s ⟨hs, -⟩
      change Settled s.1
      rw [hs]
      apply h
    · rintro e s ⟨hs, -⟩
      rw [hs]
      apply h

/-- Giving an upload up unregisters it. -/
theorem Worker.uploads_abort {w : Worker} {refuses : FileOp → Option Refusal} (uploadId : String) :
  ((UploadsHandlers.abort uploadId).run.execute (answer refuses) w).2.uploads uploadId = none
  := by
  rw [UploadsHandlers.abort, Async.execute_ask_bind, answer_popHandle]
  cases hhandle : w.uploads uploadId with
  | none => apply Function.update_self
  | some handle =>
      let popped : Worker := { w with uploads := Function.update w.uploads uploadId none }
      have hpopped : (popped.answer refuses (.remove handle.partPath)).2.uploads uploadId = none := by
        rw [uploads_answer popped (by simp) (by simp)]
        apply Function.update_self
      change (Coroutine.execute _ (.await (FileOp.remove handle.partPath) _) popped).2.uploads uploadId = none
      rw [Coroutine.execute_await]
      generalize popped.answer refuses (.remove handle.partPath) = answer at hpopped
      rcases answer with ⟨(_ | _) | _, w'⟩
      all_goals apply hpopped

theorem uploads_call_abort {w : Worker} {refuses : FileOp → Option Refusal} (uploadId : String) :
  ((AgentClient.call (fun _ => none) UploadsHandlers.abort uploadId).run.execute (Worker.answer refuses)
    w).2.uploads uploadId = none
  := by
  rw [AgentClient.execute_call rfl]
  apply Worker.uploads_abort

/-- A DELETE gives the upload up, or leaves it as it was. -/
theorem Settled.ensures_deleteUpload (h : Settled world) (uploadId : String) (uid : ℕ) :
  (UploadsApi.deleteUpload uploadId uid).run.Ensures (UploadWorld.answerTusBy []) (fun _ _ => True)
    (fun _ s => Settled s.1) (world, script)
  := by
  have hsame : (world.answerTus [] (.getUpload uploadId) (script 0)).2 = world := by
    apply PatchChoice.of_getD_outcome (P := fun world' => world' = world) _ rfl rfl
  intro _
  change Coroutine.Ensures _ _ _
    (Coroutine.bind (.done (world.answerTus [] (.getUpload uploadId) (script 0)).1) _)
    ((world.answerTus [] (.getUpload uploadId) (script 0)).2, script.rest)
  rw [hsame]
  rcases hanswer : (world.answerTus [] (.getUpload uploadId) (script 0)).1 with e | _ | upload
  · apply h
  · apply h
  · obtain ⟨rfl, hrow⟩ := UploadWorld.of_getUpload hanswer
    apply Async.ensures_raiseIf_bind (fun _ => h)
    intro _
    apply Coroutine.Ensures.exceptT_bind (Q := fun _ s => Settled s.1)
    · apply Coroutine.Ensures.tryCatch (Q := fun _ s => Settled s.1)
      · apply Coroutine.Ensures.exceptT_bind (Q := fun _ s => Settled s.1)
        · apply Coroutine.Ensures.tryCatch (Q := fun _ s => Settled s.1)
          · intro _
            change Settled (world.answerTus [] (.uploadAbort upload.id) (script.rest 0)).2
            rw [world.row_id upload hrow]
            apply PatchChoice.of_getD_outcome (P := Settled)
            · apply Settled.of_unregistered
              apply uploads_call_abort
            · apply h
          · intro _ s hs
            apply hs
          · intro e s hs
            cases e
            all_goals apply hs
        · rintro _ ⟨world', script'⟩ hs _
          have hsettled : Settled (world'.answerTus [] (.deleteUpload upload.id) (script' 0)).2 := by
            apply PatchChoice.of_getD_outcome (P := Settled)
            · exact @Settled.of_row_none id { world' with row := none, row_id := by simp } hs.placed rfl
            · apply hs
          change Coroutine.Ensures _ _ _
            (.done (world'.answerTus [] (.deleteUpload upload.id) (script' 0)).1)
            ((world'.answerTus [] (.deleteUpload upload.id) (script' 0)).2, script'.rest)
          apply hsettled
        · intro e s hs
          apply hs
      · intro _ s hs
        apply hs
      · intro e s hs
        cases e
        all_goals apply hs
    · intro _ s hs
      apply hs
    · intro e s hs
      apply hs

/-- A POST that declares a length begins an upload that is not full. -/
theorem Settled.ensures_post (h : Settled world) {request : PostRequest}
    {volumes : List (String × ℕ)} (hrow : world.row = none)
    (hfresh : ∀ destPath, world.worker.files (partPathFor destPath id.text) = none)
    (hsize : request.size ≠ some 0) :
  (UploadsApi.createUpload id.text request).run.Ensures (UploadWorld.answerTusBy volumes)
    (fun _ _ => True) (fun _ s => Settled s.1) (world, script)
  := by
  apply (ensures_createUpload hfresh request script).mono
  rintro r s (⟨hs, -⟩ | ⟨size, hrequest, hbegun, -⟩)
  · rw [hs]
    apply h
  · generalize s.1 = world' at hbegun
    cases hbegun with
    | nothing => apply h
    | part _ _ handle hplaced hrow' =>
        apply Settled.of_row_none
        · intro handle' hregistered
          cases hplaced.registered.symm.trans hregistered
          exact ⟨[], hplaced⟩
        · rw [hrow', hrow]
    | created _ _ handle hplaced hrow' =>
        have huploading : Uploading world' ⟨id.text, request.uid, size⟩ handle [] := ⟨hrow', hplaced⟩
        apply huploading.settled
        rw [huploading.full_iff]
        rintro rfl
        apply hsize hrequest

/-- The step lemma: a request that meets the condition leaves the upload settled. -/
theorem Settled.serve (h : Settled world) {label : TusRequest × Script}
    (hcondition : world.Condition label) (hfresh : world.FreshId label) :
  Settled (world.serve label.2 label.1)
  := by
  obtain ⟨request, script⟩ := label
  cases request with
  | post request volumes =>
      obtain ⟨hrow, hfiles⟩ := hfresh
      apply (h.ensures_post hrow hfiles hcondition).execute
      apply Coroutine.executesAlong_true
  | patch uploadId request => apply (h.ensures_patchUpload uploadId request).execute hcondition
  | head uploadId uid =>
      apply (h.ensures_headUpload uploadId uid).execute
      apply Coroutine.executesAlong_true
  | delete uploadId uid =>
      apply (h.ensures_deleteUpload uploadId uid).execute
      apply Coroutine.executesAlong_true

/-- A numeral of a natural number is no numeral of a negative one. -/
theorem eq_of_toString {n : ℕ} {z : ℤ} (h : toString n = toString z) :
  z = n
  := by
  cases z with
  | ofNat m =>
      have hread := Text.int_toString n
      have hm : toString (Int.ofNat m) = toString m := rfl
      rw [h, hm, Text.int_toString] at hread
      apply Option.some.inj hread
  | negSucc m =>
      have hdigits : ∀ c ∈ (toString n).toList, c.isDigit = true := by
        have hlist : (toString n).toList = Nat.toDigits 10 n := String.toList_ofList
        rw [hlist]
        intro c hc
        apply Nat.isDigit_of_mem_toDigits (by decide) (by decide) hc
      have hminus : '-' ∈ (toString n).toList := by
        have hm : toString (Int.negSucc m) = "-" ++ toString (m + 1) := rfl
        rw [h, hm, String.toList_append]
        simp
      cases hdigits '-' hminus

/-- A HEAD that is answered tells the size of the part file of an upload that is under way. -/
theorem Settled.ensures_answer_headUpload (h : Settled world) (uid : ℕ) :
  (UploadsApi.headUpload id.text uid).run.Ensures (UploadWorld.answerDelivery false)
    (fun _ _ => True)
    (fun r _ => ∀ response, r = .ok response → ∃ upload handle content,
      Uploading world upload handle content ∧ response = ⟨200, tusHeaders
        [("Upload-Offset", toString content.length), ("Upload-Length", toString upload.size),
          ("Cache-Control", "no-store")]⟩)
    (world, 0)
  := by
  have hget : world.answer (.getUpload id.text) .well = (.ok world.row, world) := by
    change (Except.ok (if id.text = id.text then world.row else none), world) = _
    rw [if_pos rfl]
  intro _
  change Coroutine.Ensures _ _ _
    (Coroutine.bind (.done (world.answer (.getUpload id.text) .well).1) _)
    ((world.answer (.getUpload id.text) .well).2, 0)
  rw [hget]
  cases hrow : world.row with
  | none => rintro response ⟨⟩
  | some upload =>
      apply Async.ensures_raiseIf_bind
      · rintro _ response ⟨⟩
      · intro _
        apply Coroutine.Ensures.exceptT_bind (Q := fun r _ => ∀ size, r = .ok size →
          ∃ handle content, Placed world.worker id.text handle content ∧ size = content.length)
        · apply Coroutine.Ensures.tryCatch (Q := fun r _ => ∀ size, r = .ok size →
            ∃ handle content, Placed world.worker id.text handle content ∧ size = content.length)
          · intro _
            apply (h.answer_uploadOffset .well).2
          · intro size s hs
            apply hs
          · intro e s hs
            cases e
            all_goals rintro size ⟨⟩
        · rintro size s hs response ⟨⟩
          obtain ⟨handle, content, hplaced, rfl⟩ := hs size rfl
          exact ⟨upload, handle, content, ⟨hrow, hplaced⟩, rfl⟩
        · rintro e s hs response ⟨⟩

/-- No HEAD says that a settled upload is complete. -/
theorem Settled.not_saysComplete (h : Settled world) (uid : ℕ) :
  ¬ world.SaysComplete uid
  := by
  rintro ⟨response, hresponse, hlookup⟩
  have hhead := (h.ensures_answer_headUpload uid).execute (Coroutine.executesAlong_true _ _)
  obtain ⟨upload, handle, content, huploading, rfl⟩ := hhead response hresponse
  apply h.not_full
  rw [huploading.full_iff]
  apply eq_of_toString
  apply Option.some.inj hlookup

end

/-- Once a HEAD says that an upload is complete, it is published, in every state that is reached by
requests which meet the condition. -/
theorem published_when_complete {id : UuidHex} {world world' : UploadWorld id.text}
    {labels : List (TusRequest × Script)} (hunregistered : world.worker.uploads id.text = none)
    (hfresh : (tusMachine id.text).Along UploadWorld.FreshId world labels)
    (hcondition : (tusMachine id.text).Along UploadWorld.Condition world labels)
    (hrun : (tusMachine id.text).run world labels = some world') :
  world'.PublishedWhenComplete
  := by
  have hsettled : Settled world' := by
    apply Machine.run_invariant (I := Settled) _ (Settled.of_unregistered hunregistered)
      (Machine.along_and _ hcondition hfresh) hrun
    rintro world label world' h ⟨hcondition, hfresh⟩ hstep
    cases hstep
    apply h.serve hcondition hfresh
  intro uid hcomplete
  apply absurd hcomplete (hsettled.not_saysComplete uid)

/-- A script by which all goes well meets the condition. -/
theorem executesAlong_well {id : UuidHex} {α : Type} (c : Coroutine PatchOp PatchOp.Answer α)
    (world : UploadWorld id.text) :
  c.ExecutesAlong UploadWorld.answerBy UploadWorld.FaultlessWhenFull (world, Script.well)
  := by
  induction c generalizing world with
  | done a => trivial
  | await op resume ih =>
      constructor
      · intro _
        exact ⟨fun _ => rfl, rfl, rfl⟩
      · apply ih

/-- Two bytes are uploaded, one after the other. -/
def twoBytes : List (TusRequest × Script) :=
  [(.post (mediaPost "2") [], Script.well),
    (.patch mediaId.text (Delivery.request ⟨[[104]], false⟩ 1001 "0"), Script.well),
    (.patch mediaId.text (Delivery.request ⟨[[105]], false⟩ 1001 "1"), Script.well)]

/-- All is published of an upload of two bytes. -/
theorem published_when_complete_two :
  ∃ world', (tusMachine mediaId.text).run mediaWorld twoBytes = some world'
    ∧ world'.PublishedWhenComplete
  := by
  have hfresh : (tusMachine mediaId.text).Along UploadWorld.FreshId mediaWorld twoBytes := by
    refine ⟨⟨rfl, mediaWorld_fresh⟩, ?_⟩
    intro _ _
    refine ⟨trivial, ?_⟩
    intro _ _
    refine ⟨trivial, ?_⟩
    intro _ _
    trivial
  have hcondition : (tusMachine mediaId.text).Along UploadWorld.Condition mediaWorld twoBytes := by
    have hsize : (mediaPost "2").size ≠ some 0 := by
      decide +kernel
    refine ⟨hsize, ?_⟩
    intro world₁ _
    refine ⟨executesAlong_well _ world₁, ?_⟩
    intro world₂ _
    refine ⟨executesAlong_well _ world₂, ?_⟩
    intro _ _
    trivial
  refine ⟨_, rfl, ?_⟩
  apply published_when_complete rfl hfresh hcondition
  rfl

/-- After a POST that declares the length zero, a HEAD says that the upload is complete, and nothing is
published. -/
theorem complete_not_published :
  ¬ ∀ (id : UuidHex) (world world' : UploadWorld id.text) (labels : List (TusRequest × Script)),
      world.worker.uploads id.text = none →
      (tusMachine id.text).Along UploadWorld.FreshId world labels →
      (tusMachine id.text).run world labels = some world' →
      world'.PublishedWhenComplete
  := by
  intro hall
  have hfresh : (tusMachine mediaId.text).Along UploadWorld.FreshId mediaWorld
      [(.post (mediaPost "0") [], Script.well)] := by
    refine ⟨⟨rfl, mediaWorld_fresh⟩, ?_⟩
    intro _ _
    trivial
  have hpublished := hall mediaId mediaWorld _ [(.post (mediaPost "0") [], Script.well)] rfl hfresh rfl
  have hcomplete : (mediaWorld.serve Script.well (.post (mediaPost "0") [])).SaysComplete 1001 := by
    refine ⟨_, rfl, ?_⟩
    decide +kernel
  obtain ⟨hdest, -⟩ := hpublished 1001 hcomplete mediaHandle (by decide +kernel)
  apply hdest
  rfl
