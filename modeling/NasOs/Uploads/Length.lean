import NasOs.Uploads.Completion
import NasOs.Uploads.Interleaving

/-!
# The declared length of an upload

A POST declares the length of an upload.  A PATCH writes all of its body, and looks only afterwards
whether the upload has reached its length: a body that runs past the length is written and published.
When no body of an accepted PATCH runs past the length, the part file has at every moment at most as many
bytes, however the requests interleave and whatever fails, and the published file has exactly as many.
-/

/-- A body that starts at an offset ends within a length. -/
def PatchRequest.FitsAt (request : PatchRequest) (length : ℤ) (start : ℕ) : Prop :=
  request.offset = some (start : ℤ) ∧ (start : ℤ) + request.body.length ≤ length

section

variable {uploadId : String}

/-- A PATCH whose offset is the size of the part file has a body that ends within the length. -/
def BodiesFit (length : ℤ) (requests : List PatchRequest)
    (p : Pool PatchOp PatchOp.Answer (UploadWorld uploadId) (Except Exc Response)) :
    Pool.Label PatchChoice PEmpty → Prop
  | .task i _ => p.pendingOf i = some (.uploadOffset uploadId) →
      ∀ request ∈ requests[i]?, ∀ handle ∈ p.world.worker.uploads uploadId,
        request.offset = some (p.world.worker.partSize handle : ℤ) →
          (p.world.worker.partSize handle : ℤ) + request.body.length ≤ length
  | .environment _ => True

instance (length : ℤ) (requests : List PatchRequest)
    (p : Pool PatchOp PatchOp.Answer (UploadWorld uploadId) (Except Exc Response))
    (l : Pool.Label PatchChoice PEmpty) :
    Decidable (BodiesFit length requests p l) :=
  match l with
  | .task i _ => inferInstanceAs (Decidable (p.pendingOf i = some (.uploadOffset uploadId) →
      ∀ request ∈ requests[i]?, ∀ handle ∈ p.world.worker.uploads uploadId,
        request.offset = some (p.world.worker.partSize handle : ℤ) →
          (p.world.worker.partSize handle : ℤ) + request.body.length ≤ length))
  | .environment _ => isTrue trivial

/-- The upload keeps to its length: the part file has at most so many bytes, the published file has so
many, and a PATCH whose body runs past it is not answered with success. -/
structure KeepsLength (length : ℤ) (handle : UploadHandle) (requests : List PatchRequest)
    (p : Pool PatchOp PatchOp.Answer (UploadWorld uploadId) (Except Exc Response)) : Prop where
  part : p.world.worker.uploads uploadId = some handle →
    ∃ node, p.world.worker.files handle.partPath = some node ∧ node.content.length ≤ length
  published : p.world.worker.uploads uploadId = none →
    ∃ node, p.world.worker.files handle.destPath = some node ∧ node.content.length = length
  refused : ∀ (i : ℕ) (request : PatchRequest) (response : Response), requests[i]? = some request →
    p.tasks[i]? = some (.done (.ok response)) → response.statusCode = 204 →
      ∃ start, request.FitsAt length start

/-! ### The invariant -/

/-- What a stage of a PATCH says, of an upload that has `size` bytes. -/
def PatchRequest.Within (uploadId : String) (request : PatchRequest) (length : ℤ) (size : ℕ) :
    PatchStage → Prop
  | .waiting => True
  | .found upload => upload.id = uploadId ∧ upload.size = length
  | .running upload start sent offset =>
      upload.id = uploadId ∧ upload.size = length ∧ offset = ((start + sent.length : ℕ) : ℤ)
        ∧ start + sent.length ≤ size ∧ request.FitsAt length start
  | .closed start => request.FitsAt length start

/-- The invariant of the requests: the upload has bytes within its length, all of them once it is published,
and each request stands where these say. -/
structure LengthInv (length : ℤ) (handle : UploadHandle) (requests : List PatchRequest)
    (stages : ℕ → PatchStage) (world : UploadWorld uploadId) (content : List UInt8) : Prop where
  hasBytes : HasBytes world.worker uploadId handle content
  within : content.length ≤ length
  full : world.worker.uploads uploadId = none → content.length = length
  row : ∀ upload ∈ world.row, upload.size = length
  stands : ∀ (i : ℕ) (request : PatchRequest), requests[i]? = some request →
    request.Within uploadId length content.length (stages i)

variable {length : ℤ} {handle : UploadHandle} {requests : List PatchRequest}
  {stages : ℕ → PatchStage} {world world' : UploadWorld uploadId} {content content' : List UInt8}
  {request : PatchRequest} {i : ℕ} {stage : PatchStage} {choice : PatchChoice}

/-- What a stage says remains so while the upload gets longer. -/
theorem PatchRequest.Within.mono {size size' : ℕ} (h : request.Within uploadId length size stage)
    (hsize : size ≤ size') :
  request.Within uploadId length size' stage
  := by
  cases stage with
  | running upload start sent offset =>
      obtain ⟨hid, hlength, hoffset, hsent, hfits⟩ := h
      exact ⟨hid, hlength, hoffset, hsent.trans hsize, hfits⟩
  | _ => apply h

/-- The invariant after a step that does not make the upload shorter. -/
theorem LengthInv.update (h : LengthInv length handle requests stages world content)
    (hrequest : requests[i]? = some request)
    (hbytes : HasBytes world'.worker uploadId handle content')
    (hgrows : content.length ≤ content'.length) (hwithin : content'.length ≤ length)
    (hfull : world'.worker.uploads uploadId = none → content'.length = length)
    (hrow : ∀ upload ∈ world'.row, upload.size = length)
    (hself : request.Within uploadId length content'.length stage) :
  LengthInv length handle requests (Function.update stages i stage) world' content'
  := by
  refine ⟨hbytes, hwithin, hfull, hrow, ?_⟩
  intro j request' hrequest'
  by_cases hji : j = i
  · subst hji
    cases hrequest.symm.trans hrequest'
    rw [Function.update_self]
    apply hself
  · rw [Function.update_of_ne hji]
    apply (h.stands j request' hrequest').mono hgrows

/-- The invariant after a step that leaves the worker. -/
theorem LengthInv.quiet (h : LengthInv length handle requests stages world content)
    (hrequest : requests[i]? = some request) (hworker : world'.worker = world.worker)
    (hrow : ∀ upload ∈ world'.row, upload.size = length)
    (hself : request.Within uploadId length content.length stage) :
  LengthInv length handle requests (Function.update stages i stage) world' content
  := by
  apply h.update hrequest _ le_rfl h.within _ hrow hself
  · rw [hworker]
    apply h.hasBytes
  · rw [hworker]
    apply h.full

/-- A request that asks for its row. -/
theorem LengthInv.getUpload (h : LengthInv length handle requests stages world content)
    (hrequest : requests[i]? = some request) {r : PatchOp.Answer (.getUpload uploadId)}
    (hperform : world.perform (.getUpload uploadId) choice = some (r, world')) :
  LengthInv length handle requests
    (Function.update stages i ((request.protocol uploadId).next .waiting (.getUpload uploadId) r))
    world' content
  := by
  have hworld : world' = world := by
    rcases of_outcome hperform with ⟨hsame, -⟩ | ⟨hsame, -⟩
    all_goals apply hsame
  subst hworld
  apply h.quiet hrequest rfl h.row
  rcases r with e | _ | upload
  · trivial
  · trivial
  · have hupload : upload ∈ world'.row := by
      rcases of_outcome hperform with ⟨-, e, hr⟩ | ⟨-, hr | ⟨e, hr⟩⟩
      · cases hr
      · rw [if_pos rfl] at hr
        rw [← Except.ok.inj hr]
        rfl
      · cases hr
    exact ⟨world'.row_id upload hupload, h.row upload hupload⟩

/-- A request that is told the offset is accepted at it only when its body fits. -/
theorem LengthInv.uploadOffset (h : LengthInv length handle requests stages world content)
    (hrequest : requests[i]? = some request) {upload : Upload}
    (hself : upload.id = uploadId ∧ upload.size = length)
    (hfits : ∀ handle ∈ world.worker.uploads uploadId,
      request.offset = some (world.worker.partSize handle : ℤ) →
        (world.worker.partSize handle : ℤ) + request.body.length ≤ length)
    {r : PatchOp.Answer (.uploadOffset uploadId)}
    (hperform : world.perform (.uploadOffset uploadId) choice = some (r, world')) :
  LengthInv length handle requests
    (Function.update stages i
      ((request.protocol uploadId).next (.found upload) (.uploadOffset uploadId) r))
    world' content
  := by
  obtain ⟨hworker, hsize⟩ := h.hasBytes.of_uploadOffset hperform
  have hrow : world'.row = world.row := by
    rcases of_outcome hperform with ⟨hsame, -⟩ | ⟨hsame, -⟩
    all_goals
      rw [hsame]
  apply h.quiet hrequest hworker
  · rw [hrow]
    apply h.row
  · cases r with
    | error e => apply hself
    | ok size =>
        obtain ⟨rfl, hregistered⟩ := hsize size rfl
        by_cases hoffset : request.offset = some (content.length : ℤ)
        · have hnext : (request.protocol uploadId).next (.found upload) (.uploadOffset uploadId)
              (.ok content.length) = .running upload content.length [] content.length :=
            if_pos hoffset
          have hpart := h.hasBytes.partSize hregistered
          have hbody := hfits handle hregistered
          rw [hpart] at hbody
          rw [hnext]
          refine ⟨hself.1, hself.2, rfl, le_rfl, hoffset, hbody hoffset⟩
        · have hnext : (request.protocol uploadId).next (.found upload) (.uploadOffset uploadId)
              (.ok content.length) = .found upload :=
            if_neg hoffset
          rw [hnext]
          apply hself

/-- A chunk of a body that fits is written within the length. -/
theorem LengthInv.writeChunk (h : LengthInv length handle requests stages world content)
    (hrequest : requests[i]? = some request) {upload : Upload} {start : ℕ}
    {sent data : List UInt8} {offset : ℤ}
    (hself : request.Within uploadId length content.length (.running upload start sent offset))
    (hdata : sent ++ data <+: request.body) {r : PatchOp.Answer (.writeChunk upload.id offset data)}
    (hperform : world.perform (.writeChunk upload.id offset data) choice = some (r, world')) :
  ∃ content', LengthInv length handle requests
    (Function.update stages i ((request.protocol uploadId).next (.running upload start sent offset)
      (.writeChunk upload.id offset data) r))
    world' content'
  := by
  obtain ⟨rfl, hlength, rfl, hsent, hfits⟩ := hself
  obtain ⟨written, hwritten, hbytes, huploads, hok⟩ :=
    @HasBytes.uploadChunkAt _ _ _ _ choice.refuses h.hasBytes (start + sent.length) data
  have hend : start + sent.length + data.length ≤ start + request.body.length := by
    have hle := hdata.length_le
    rw [List.length_append] at hle
    omega
  have hwlength := hwritten.length_le
  have hnew := length_writeAt hsent written
  rcases of_outcome hperform with ⟨hworld, e, hr⟩ | ⟨hworld, hr⟩
  · cases hr
    use content
    apply h.quiet hrequest (congrArg UploadWorld.worker hworld)
    · rw [hworld]
      apply h.row
    · apply hfits
  · have hworker := congrArg UploadWorld.worker hworld
    use writeAt content (start + sent.length) written
    have hbound := hfits.2
    have hwithin := h.within
    apply h.update hrequest
    · rw [hworker]
      apply hbytes
    · omega
    · omega
    · intro hnone
      rw [hworker, huploads] at hnone
      have hall := h.full hnone
      omega
    · rw [hworld]
      apply h.row
    · cases r with
      | error e => apply hfits
      | ok newOffset =>
          rcases hr with hr | ⟨e, hr⟩
          · obtain ⟨rfl, rfl⟩ := hok newOffset hr.symm
            refine ⟨rfl, hlength, ?_, ?_, hfits⟩
            · rw [List.length_append, Nat.add_assoc]
            · rw [List.length_append]
              omega
          · cases hr

/-- An upload that is completed when its length is reached has exactly as many bytes. -/
theorem LengthInv.uploadComplete (h : LengthInv length handle requests stages world content)
    (hrequest : requests[i]? = some request) {upload : Upload} {start : ℕ} {sent : List UInt8}
    {offset : ℤ}
    (hself : request.Within uploadId length content.length (.running upload start sent offset))
    (hreached : upload.size ≤ offset) {r : PatchOp.Answer (.uploadComplete upload.id)}
    (hperform : world.perform (.uploadComplete upload.id) choice = some (r, world')) :
  LengthInv length handle requests (Function.update stages i (.closed start)) world' content
  := by
  obtain ⟨rfl, hlength, rfl, hsent, hfits⟩ := hself
  have hwithin := h.within
  have hcall := @AgentClient.execute_call _ _ _ _ (fun _ => none) UploadsHandlers.complete upload.id _
    (Worker.answer choice.refuses) rfl world.worker
  rw [UploadWorld.perform, UploadWorld.atWorker, hcall] at hperform
  have hclosed : request.Within upload.id length content.length (.closed start) := hfits
  apply h.update hrequest _ le_rfl hwithin _ _ hclosed
  · rcases of_outcome hperform with ⟨hworld, -⟩ | ⟨hworld, -⟩
    · rw [hworld]
      apply h.hasBytes
    · rw [hworld]
      apply h.hasBytes.complete
  · intro _
    omega
  · rcases of_outcome hperform with ⟨hworld, -⟩ | ⟨hworld, -⟩
    · rw [hworld]
      apply h.row
    · rw [hworld]
      apply h.row

/-- The step lemma of the invariant. -/
theorem LengthInv.step {p : Pool PatchOp PatchOp.Answer (UploadWorld uploadId) (Except Exc Response)}
    {op : PatchOp} {r : op.Answer}
    (h : LengthInv length handle requests stages p.world content)
    (hrequest : requests[i]? = some request) (hpending : p.pendingOf i = some op)
    (hallowed : (request.lengthProtocol uploadId).allowed (stages i) op)
    (hfits : BodiesFit length requests p (.task i choice))
    (hperform : p.world.perform op choice = some (r, world')) :
  ∃ content', LengthInv length handle requests
    (Function.update stages i ((request.lengthProtocol uploadId).next (stages i) op r)) world' content'
  := by
  have hself := h.stands i request hrequest
  obtain ⟨hallowed, hcompletes⟩ := hallowed
  cases hstage : stages i with
  | waiting =>
      rw [hstage] at hallowed
      cases hallowed
      exact ⟨content, h.getUpload hrequest hperform⟩
  | found upload =>
      rw [hstage] at hallowed hself
      cases hallowed
      exact ⟨content, h.uploadOffset hrequest hself (hfits hpending request hrequest) hperform⟩
  | running upload start sent offset =>
      rw [hstage] at hallowed hself hcompletes
      have hquiet : ∀ stage, stage = .running upload start sent offset ∨ stage = .closed start →
          world' = p.world →
          LengthInv length handle requests (Function.update stages i stage) world' content := by
        rintro stage hcases rfl
        apply h.quiet hrequest rfl h.row
        rcases hcases with rfl | rfl
        · apply hself
        · exact hself.2.2.2.2
      rcases hallowed with rfl | ⟨newOffset, rfl⟩ | rfl | ⟨data, rfl, hdata⟩
      · use content
        have hworld : world' = p.world := by
          rcases of_outcome hperform with ⟨hsame, -⟩ | ⟨hsame, -⟩
          all_goals apply hsame
        cases r with
        | error e => apply hquiet _ (.inr rfl) hworld
        | ok _ => apply hquiet _ (.inl rfl) hworld
      · use content
        have hworld : world' = p.world := by
          rcases of_outcome hperform with ⟨hsame, -⟩ | ⟨hsame, -⟩
          all_goals apply hsame
        cases r with
        | error e => apply hquiet _ (.inr rfl) hworld
        | ok _ => apply hquiet _ (.inl rfl) hworld
      · exact ⟨content, h.uploadComplete hrequest hself hcompletes hperform⟩
      · apply h.writeChunk hrequest hself hdata hperform
  | closed start =>
      rw [hstage] at hallowed hself
      obtain ⟨id, rfl⟩ := hallowed
      use content
      have hkeeps : world'.worker = p.world.worker ∧ ∀ upload ∈ world'.row, upload.size = length := by
        rcases of_outcome hperform with ⟨hworld, -⟩ | ⟨hworld, -⟩
        · rw [hworld]
          exact ⟨rfl, h.row⟩
        · rw [hworld]
          use rfl
          rintro upload ⟨⟩
      apply h.quiet hrequest hkeeps.1 hkeeps.2 hself

end

/-! ### The length of a published file -/

section

variable {id : UuidHex} {before : UploadWorld id.text} {volumes : List (String × ℕ)} {script : Script}
  {post : PostRequest} {length : ℤ} {handle : UploadHandle}

/-- The invariant holds of an upload that a POST created. -/
theorem lengthInv_of_post (requests : List PatchRequest)
    (hfresh : before.FreshId (.post post volumes, script))
    (hunregistered : before.worker.uploads id.text = none) (hsize : post.size = some length)
    (hregistered : (before.serve script (.post post volumes)).worker.uploads id.text = some handle) :
  LengthInv length handle requests (fun _ => .waiting) (before.serve script (.post post volumes)) []
  := by
  obtain ⟨hrow, hfiles⟩ := hfresh
  have hpost := (@ensures_createUpload id before volumes hfiles post script).execute
    (Coroutine.executesAlong_true _ _)
  change (_ ∧ _ ∨ ∃ size, _ ∧ Begun before _ _ (before.serve script (.post post volumes)) ∧ _) at hpost
  have hnot : before.serve script (.post post volumes) ≠ before := by
    intro hsame
    rw [hsame, hunregistered] at hregistered
    cases hregistered
  rcases hpost with ⟨hsame, -⟩ | ⟨size, hsize', hbegun, hnonneg⟩
  · apply absurd hsame hnot
  · cases hsize.symm.trans hsize'
    have hwithin : 0 ≤ length := by
      rcases hnonneg with hsame | hnonneg
      · apply absurd hsame hnot
      · apply hnonneg
    have hplaced : ∀ handle', Placed (before.serve script (.post post volumes)).worker id.text handle' [] →
        HasBytes (before.serve script (.post post volumes)).worker id.text handle [] := by
      intro handle' hplaced
      cases hplaced.registered.symm.trans hregistered
      obtain ⟨node, hnode, hdir, hcontent⟩ := hplaced.isFile
      exact .part node hregistered hnode hdir hcontent
    have hfull : (before.serve script (.post post volumes)).worker.uploads id.text = none →
        (([] : List UInt8).length : ℤ) = length := by
      intro hnone
      cases hnone.symm.trans hregistered
    generalize ((UploadsApi.createUpload id.text post).run.execute (UploadWorld.answerTusBy volumes)
      (before, script)).1 = result at hbegun
    generalize before.serve script (.post post volumes) = world at hbegun hregistered hnot hplaced hfull
    cases hbegun with
    | nothing => apply absurd rfl hnot
    | part _ _ handle' hplaced' hrow' =>
        refine ⟨hplaced handle' hplaced', hwithin, hfull, ?_, fun _ _ _ => trivial⟩
        rw [hrow', hrow]
        rintro upload ⟨⟩
    | created _ _ handle' hplaced' hrow' =>
        refine ⟨hplaced handle' hplaced', hwithin, hfull, ?_, fun _ _ _ => trivial⟩
        rw [hrow']
        rintro upload ⟨⟩
        rfl

/-- The pool of unstarted PATCH requests of an upload. -/
def PatchRequest.pool (requests : List PatchRequest) (world : UploadWorld uploadId) :
    Pool PatchOp PatchOp.Answer (UploadWorld uploadId) (Except Exc Response) :=
  Pool.start world (requests.map fun request => (UploadsApi.patchUpload uploadId request).run)

/-- In every run of PATCH requests of an upload that a POST created with some length, in which no body of
an accepted PATCH runs past it, the part file never has more bytes, a published file has exactly as many,
and a PATCH that is answered with success has a body that ends within it. -/
theorem keepsLength_of_run {requests : List PatchRequest} {l : List (Pool.Label PatchChoice PEmpty)}
    {p : Pool PatchOp PatchOp.Answer (UploadWorld id.text) (Except Exc Response)}
    (hfresh : before.FreshId (.post post volumes, script))
    (hunregistered : before.worker.uploads id.text = none) (hsize : post.size = some length)
    (hregistered : (before.serve script (.post post volumes)).worker.uploads id.text = some handle)
    (hfits : (Pool.machine (patchEffects id.text)).Along (BodiesFit length requests)
      (PatchRequest.pool requests (before.serve script (.post post volumes))) l)
    (hrun : (Pool.machine (patchEffects id.text)).run
      (PatchRequest.pool requests (before.serve script (.post post volumes))) l = some p) :
  KeepsLength length handle requests p
  := by
  let P := fun i => (requests.getD i ⟨0, none, none, []⟩).lengthProtocol id.text
  have hrequest : ∀ i < requests.length, requests[i]? = some (requests.getD i ⟨0, none, none, []⟩) := by
    intro i hi
    simp [hi]
  have hobeying : (PatchRequest.pool requests (before.serve script (.post post volumes))).Obeying P
      (fun _ => PatchRequest.Answers) fun _ => .waiting := by
    intro i c hc
    obtain ⟨request, hi, rfl⟩ := Option.map_eq_some_iff.mp (List.getElem?_map ▸ hc)
    have hP : P i = request.lengthProtocol id.text := by
      simp only [P, List.getD_eq_getElem?_getD, hi, Option.getD_some]
    rw [hP]
    apply PatchRequest.obeys_lengthProtocol
  obtain ⟨-, stages, hobeys, content, hinv⟩ := Pool.run_obeys
    (I := fun stages p => ∃ content, LengthInv length handle requests stages p.world content) hobeying
    ⟨[], lengthInv_of_post requests hfresh hunregistered hsize hregistered⟩
    (by
      rintro p stages i choice op resume r world' hlength _ ⟨content, hinv⟩ hD hi hallowed hperform
      rw [List.length_map] at hlength
      obtain ⟨hlt, -⟩ := List.getElem?_eq_some_iff.mp hi
      apply hinv.step (hrequest i (hlength ▸ hlt)) (Pool.pendingOf_eq hi) hallowed hD hperform)
    (fun _ _ e => e.elim) hfits hrun
  constructor
  · intro hregistered'
    rcases hinv.hasBytes with ⟨node, -, hnode, -, rfl⟩ | ⟨node, hnone, -, -⟩
    · exact ⟨node, hnode, hinv.within⟩
    · cases hnone.symm.trans hregistered'
  · intro hnone
    rcases hinv.hasBytes with ⟨node, hregistered', -, -, -⟩ | ⟨node, -, hnode, rfl⟩
    · cases hregistered'.symm.trans hnone
    · exact ⟨node, hnode, hinv.full hnone⟩
  · intro i request response hi hdone hstatus
    obtain ⟨start, hstart⟩ := hobeys i _ hdone response rfl hstatus
    use start
    have hstands := hinv.stands i request hi
    cases hstage : stages i with
    | running upload start' sent offset =>
        rw [hstage] at hstart hstands
        cases hstart
        apply hstands.2.2.2.2
    | closed start' =>
        rw [hstage] at hstart hstands
        cases hstart
        apply hstands
    | _ =>
        rw [hstage] at hstart
        cases hstart

end

/-- The world of an upload that a POST created. -/
def mediaCreated (length : String) : UploadWorld mediaId.text :=
  mediaWorld.serve Script.well (.post (mediaPost length) [])

/-- The steps of PATCH requests in which every call reaches the worker and nothing fails. -/
def patchOrder (order : List ℕ) : List (Pool.Label PatchChoice PEmpty) :=
  order.map fun i => .task i ⟨fun _ => none, true, none⟩

/-- Two bytes are written to an upload of two bytes. -/
theorem keepsLength_two :
  ∃ p, (Pool.machine (patchEffects mediaId.text)).run
      (PatchRequest.pool [bytePatch "0" [104, 105]] (mediaCreated "2")) (patchOrder [0, 0, 0, 0, 0, 0, 0, 0])
      = some p
    ∧ KeepsLength 2 mediaHandle [bytePatch "0" [104, 105]] p
  := by
  have hdone : ((Pool.machine (patchEffects mediaId.text)).run
      (PatchRequest.pool [bytePatch "0" [104, 105]] (mediaCreated "2"))
      (patchOrder [0, 0, 0, 0, 0, 0, 0, 0])).map (fun p => p.tasks.map Coroutine.result)
      = some [some (.ok ⟨204, tusHeaders [("Upload-Offset", "2")]⟩)] := by
    rfl
  obtain ⟨p, hrun, -⟩ := Option.map_eq_some_iff.mp hdone
  use p, hrun
  apply keepsLength_of_run ⟨rfl, mediaWorld_fresh⟩ rfl rfl (by decide +kernel) (by decide +kernel) hrun

/-- Two bytes that are sent to an upload of one byte are published. -/
theorem not_keepsLength_past :
  ¬ ∀ (id : UuidHex) (before : UploadWorld id.text) (volumes : List (String × ℕ)) (script : Script)
      (post : PostRequest) (length : ℤ) (handle : UploadHandle) (requests : List PatchRequest)
      (l : List (Pool.Label PatchChoice PEmpty))
      (p : Pool PatchOp PatchOp.Answer (UploadWorld id.text) (Except Exc Response)),
      before.FreshId (.post post volumes, script) → before.worker.uploads id.text = none →
      post.size = some length →
      (before.serve script (.post post volumes)).worker.uploads id.text = some handle →
      (Pool.machine (patchEffects id.text)).run
        (PatchRequest.pool requests (before.serve script (.post post volumes))) l = some p →
      KeepsLength length handle requests p
  := by
  intro hall
  have hdone : ((Pool.machine (patchEffects mediaId.text)).run
      (PatchRequest.pool [bytePatch "0" [104, 105]] (mediaCreated "1"))
      (patchOrder [0, 0, 0, 0, 0, 0, 0, 0])).map
        (fun p => (p.world.worker.uploads mediaId.text,
          (p.world.worker.files mediaHandle.destPath).map FileNode.content))
      = some (none, some [104, 105]) := by
    rfl
  obtain ⟨p, hrun, hp⟩ := Option.map_eq_some_iff.mp hdone
  obtain ⟨hnone, hfile⟩ := Prod.mk.inj hp
  obtain ⟨node, hnode, hlength⟩ := (hall mediaId mediaWorld [] Script.well (mediaPost "1") 1 mediaHandle _ _
    p ⟨rfl, mediaWorld_fresh⟩ rfl rfl (by decide +kernel) hrun).published hnone
  rw [hnode] at hfile
  rw [Option.some.inj hfile] at hlength
  cases hlength
