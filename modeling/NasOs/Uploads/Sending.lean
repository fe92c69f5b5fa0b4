import NasOs.Library.Protocol
import NasOs.Uploads.Patch
import NasOs.Uploads.Worker

/-!
# What a PATCH sends

PATCH requests of one upload run over the worker of the user and the row of the upload.  The worker
answers a call in one step, as its handler does when it runs alone; a call may also fail on the way,
before or after the worker has done its part.

A PATCH is accepted when the size of the part file that it was told is the offset that it starts at.
From there on it sends its body, each chunk to where the chunk before ended.
-/

/-- The worker of a user, and the row of one of their uploads. -/
structure UploadWorld (uploadId : String) where
  worker : Worker
  row : Option Upload
  row_id : ∀ upload ∈ row, upload.id = uploadId

/-- How an operation turns out: what the system refuses the worker, whether the operation gets as far
as being done, and what the caller gets instead of its answer. -/
structure PatchChoice where
  refuses : FileOp → Option Refusal
  reached : Bool
  raises : Option Exc

/-- What a caller gets of an answer. -/
def PatchChoice.deliver {α : Type} (choice : PatchChoice) (answer : Except Exc α) : Except Exc α :=
  match choice.raises with
  | none => answer
  | some e => .error e

/-- The answer to a call that may not reach its end. -/
def PatchChoice.outcome {α σ : Type} (choice : PatchChoice) (done : Except Exc α × σ) (undone : σ) :
    Option (Except Exc α × σ) :=
  if choice.reached then some (choice.deliver done.1, done.2)
  else choice.raises.map fun e => (.error e, undone)

/-- How an operation turned out: it was done, and its caller got the answer or an exception instead, or it
was not done and its caller got an exception. -/
theorem PatchChoice.outcome_eq_some {α σ : Type} {choice : PatchChoice} {done : Except Exc α × σ}
    {undone : σ} {answer : Except Exc α} {state : σ} (h : choice.outcome done undone = some (answer, state)) :
  (choice.reached = true ∧ state = done.2
      ∧ (choice.raises = none ∧ answer = done.1 ∨ ∃ e, choice.raises = some e ∧ answer = .error e))
    ∨ choice.reached = false ∧ state = undone ∧ ∃ e, answer = .error e
  := by
  rw [PatchChoice.outcome] at h
  split at h
  · rename_i hreached
    cases h
    left
    refine ⟨hreached, rfl, ?_⟩
    rw [PatchChoice.deliver]
    split
    · rename_i hraises
      left
      exact ⟨hraises, rfl⟩
    · rename_i e hraises
      right
      exact ⟨e, hraises, rfl⟩
  · rename_i hreached
    obtain ⟨e, -, hpair⟩ := Option.map_eq_some_iff.mp h
    cases hpair
    right
    exact ⟨Bool.eq_false_iff.mpr hreached, rfl, e, rfl⟩

/-- What a caller is told when nothing was done. -/
theorem of_outcome {α σ : Type} {choice : PatchChoice} {done : Except Exc α × σ} {undone : σ}
    {answer : Except Exc α} {state : σ} (h : choice.outcome done undone = some (answer, state)) :
  (state = undone ∧ ∃ e, answer = .error e)
    ∨ (state = done.2 ∧ (answer = done.1 ∨ ∃ e, answer = .error e))
  := by
  rcases PatchChoice.outcome_eq_some h with ⟨-, hstate, hanswer⟩ | ⟨-, hundone⟩
  · right
    use hstate
    rcases hanswer with ⟨-, hanswer⟩ | ⟨e, -, hanswer⟩
    · left
      apply hanswer
    · right
      exact ⟨e, hanswer⟩
  · left
    apply hundone

namespace UploadWorld

/-- An upload without a row has no row of another. -/
theorem row_id_none (uploadId : String) :
  ∀ upload ∈ (none : Option Upload), upload.id = uploadId
  := by
  rintro upload ⟨⟩

variable {uploadId : String}

/-- Have the worker run a coroutine. -/
def atWorker {α : Type} (world : UploadWorld uploadId) (c : FileM α) (choice : PatchChoice) :
    Option (Except Exc α × UploadWorld uploadId) :=
  let done := c.run.execute (Worker.answer choice.refuses) world.worker
  choice.outcome (done.1, { world with worker := done.2 }) world

/-- The answers to the operations of a PATCH of the upload. -/
def perform (world : UploadWorld uploadId) : (op : PatchOp) → PatchChoice →
    Option (op.Answer × UploadWorld uploadId)
  | .getUpload id, choice =>
      choice.outcome (.ok (if id = uploadId then world.row else none), world) world
  | .uploadOffset id, choice =>
      world.atWorker (AgentClient.call (fun _ => none) UploadsHandlers.offset id) choice
  | .receive, choice => choice.outcome (.ok (), world) world
  | .writeChunk id offset data, choice =>
      world.atWorker (Fileworker.uploadChunk id offset data) choice
  | .commitOffset _ _, choice => choice.outcome (.ok (), world) world
  | .uploadComplete id, choice =>
      world.atWorker (AgentClient.call (fun _ => none) UploadsHandlers.complete id) choice
  | .deleteUpload _, choice =>
      choice.outcome (.ok (), { world with row := none, row_id := row_id_none uploadId }) world

end UploadWorld

/-- The effects of the PATCH requests of an upload. -/
def patchEffects (uploadId : String) :
    Effects PatchOp PatchOp.Answer (UploadWorld uploadId) PatchChoice PEmpty :=
  ⟨UploadWorld.perform, fun _ e => e.elim⟩

/-! ### The protocol of a PATCH -/

/-- How far a PATCH has come: it has nothing, it has its row, it was accepted at an offset and has sent
bytes, the next of which goes to an offset, or it was accepted and sends nothing more. -/
inductive PatchStage where
  | waiting
  | found (upload : Upload)
  | running (upload : Upload) (start : ℕ) (sent : List UInt8) (offset : ℤ)
  | closed (start : ℕ)

/-- A PATCH looks its row up, asks for the offset, and if that is its own sends its body from there on,
each chunk where the one before ended. -/
def PatchRequest.protocol (uploadId : String) (request : PatchRequest) :
    Protocol PatchOp PatchOp.Answer PatchStage where
  allowed stage op :=
    match stage with
    | .waiting => op = .getUpload uploadId
    | .found _ => op = .uploadOffset uploadId
    | .running upload _ sent offset =>
        op = .receive ∨ (∃ offset, op = .commitOffset upload.id offset)
          ∨ op = .uploadComplete upload.id
          ∨ ∃ data, op = .writeChunk upload.id offset data ∧ sent ++ data <+: request.body
    | .closed _ => ∃ id, op = .deleteUpload id
  next stage op :=
    match stage, op with
    | .waiting, .getUpload _ => fun
        | .ok (some upload) => .found upload
        | _ => .waiting
    | .found upload, .uploadOffset _ => fun
        | .ok size => if request.offset = some (size : ℤ) then .running upload size [] size
            else .found upload
        | .error _ => .found upload
    | .running upload start sent _, .writeChunk _ _ data => fun
        | .ok offset => .running upload start (sent ++ data) offset
        | .error _ => .closed start
    | .running _ start _ _, .uploadComplete _ => fun _ => .closed start
    | .running upload start sent offset, .receive => fun
        | .ok _ => .running upload start sent offset
        | .error _ => .closed start
    | .running upload start sent offset, .commitOffset _ _ => fun
        | .ok _ => .running upload start sent offset
        | .error _ => .closed start
    | stage, _ => fun _ => stage

/-- An upload is completed only at an offset that reaches its length. -/
def CompletesAtLength : PatchStage → PatchOp → Prop
  | .running upload _ _ offset, .uploadComplete _ => upload.size ≤ offset
  | _, _ => True

/-- The offset that a PATCH was accepted at. -/
def PatchStage.start : PatchStage → Option ℕ
  | .running _ start _ _ => some start
  | .closed start => some start
  | _ => none

/-- The protocol of a PATCH, which moreover completes the upload only when it has its length. -/
def PatchRequest.lengthProtocol (uploadId : String) (request : PatchRequest) :
    Protocol PatchOp PatchOp.Answer PatchStage :=
  (request.protocol uploadId).restrict CompletesAtLength

namespace PatchRequest

variable {uploadId : String} {request : PatchRequest} {upload : Upload} {start : ℕ}

/-- What the writing of a chunk ends with. -/
def SendsChunk (upload : Upload) (start : ℕ) (sent : List UInt8) (stage : PatchStage)
    (result : Except Exc ℤ) : Prop :=
  stage = match result with
    | .ok offset => .running upload start sent offset
    | .error _ => .closed start

/-- What the writing of the bytes `got` ends with: a part of them was sent and the rest is left. -/
def Sends (upload : Upload) (start : ℕ) (got : List UInt8) (stage : PatchStage)
    (result : Except Exc (ℤ × List UInt8)) : Prop :=
  match result with
  | .ok (offset, buf) => ∃ sent, stage = .running upload start sent offset ∧ sent ++ buf = got
  | .error _ => stage = .closed start

/-- What a PATCH that was accepted ends with. -/
def Started (stage : PatchStage) : Prop :=
  ∃ start, stage.start = some start

/-- What a PATCH ends with: an answer 204 says that it was accepted. -/
def Answers (stage : PatchStage) (result : Except Exc Response) : Prop :=
  ∀ response, result = .ok response → response.statusCode = 204 → Started stage

/-- The rule for a chunk. -/
theorem obeys_writeChunk {sent data : List UInt8} {offset : ℤ}
    (hdata : sent ++ data <+: request.body) :
  (UploadsService.writeChunk upload offset data).run.Obeys (request.lengthProtocol uploadId)
    (SendsChunk upload start (sent ++ data)) (.running upload start sent offset)
  := by
  constructor
  · refine ⟨?_, trivial⟩
    right; right; right
    use data
  · rintro (e | newOffset)
    · cases e
      all_goals rfl
    · constructor
      · refine ⟨?_, trivial⟩
        right; left
        use newOffset
      · rintro (e | _)
        · rfl
        · rfl

/-- The rule for the full chunks of a buffer. -/
theorem obeys_writeFull (n : ℕ) {sent buf : List UInt8} {offset : ℤ}
    (hgot : sent ++ buf <+: request.body) :
  (UploadsApi.writeFull upload n offset buf).run.Obeys (request.lengthProtocol uploadId)
    (Sends upload start (sent ++ buf)) (.running upload start sent offset)
  := by
  induction n generalizing sent buf offset with
  | zero => exact ⟨sent, rfl, rfl⟩
  | succ n ih =>
      rw [UploadsApi.writeFull]
      split
      · have hsplit : sent ++ buf.take patchBufferSize ++ buf.drop patchBufferSize = sent ++ buf := by
          rw [List.append_assoc, List.take_append_drop]
        have hchunk : sent ++ buf.take patchBufferSize <+: request.body := by
          rw [← hsplit] at hgot
          apply (List.prefix_append _ _).trans hgot
        apply (obeys_writeChunk hchunk).exceptT_bind
        · rintro stage newOffset rfl
          have hrest := @ih (sent ++ buf.take patchBufferSize) (buf.drop patchBufferSize) newOffset
          rw [hsplit] at hrest
          apply hrest hgot
        · intro stage e h
          apply h
      · exact ⟨sent, rfl, rfl⟩

/-- The rule for the body as it arrives. -/
theorem obeys_receiveAll {pieces : List (List UInt8)} {sent buf : List UInt8} {offset : ℤ}
    (hgot : sent ++ buf ++ pieces.flatten <+: request.body) :
  (UploadsApi.receiveAll upload pieces offset buf).run.Obeys (request.lengthProtocol uploadId)
    (Sends upload start (sent ++ buf ++ pieces.flatten)) (.running upload start sent offset)
  := by
  induction pieces generalizing sent buf offset with
  | nil =>
      constructor
      · refine ⟨?_, trivial⟩
        left
        rfl
      · rintro (e | _)
        · rfl
        · use sent, rfl
          simp
  | cons piece pieces ih =>
      constructor
      · refine ⟨?_, trivial⟩
        left
        rfl
      · rintro (e | _)
        · rfl
        · have hfull : sent ++ (buf ++ piece) <+: request.body := by
            apply (List.prefix_append _ pieces.flatten).trans
            simpa using hgot
          apply (obeys_writeFull _ hfull).exceptT_bind
          · rintro stage ⟨newOffset, rest⟩ ⟨sent', rfl, hsent'⟩
            have hall : sent' ++ rest ++ pieces.flatten
                = sent ++ buf ++ (piece :: pieces).flatten := by
              rw [hsent']
              simp
            have hrest := @ih sent' rest newOffset
            rw [hall] at hrest
            apply hrest hgot
          · intro stage e h
            apply h

/-- The rule for the completion of an upload that has its length. -/
theorem obeys_completeUpload {sent : List UInt8} {offset : ℤ} (hlength : upload.size ≤ offset) :
  (UploadsService.completeUpload upload).run.Obeys (request.lengthProtocol uploadId)
    (fun stage _ => Started stage) (.running upload start sent offset)
  := by
  constructor
  · refine ⟨?_, hlength⟩
    right; right; left
    rfl
  · rintro (e | _)
    · cases e
      all_goals exact ⟨start, rfl⟩
    · constructor
      · refine ⟨?_, trivial⟩
        use upload.id
      · rintro (e | _)
        all_goals exact ⟨start, rfl⟩

/-- The rule for what is done with the whole body. -/
theorem obeys_writeBody {offset : ℤ} :
  (UploadsApi.writeBody upload request.pieces offset).run.Obeys (request.lengthProtocol uploadId)
    (fun stage _ => Started stage) (.running upload start [] offset)
  := by
  have hbody : [] ++ [] ++ request.pieces.flatten <+: request.body := by
    simp [body]
  apply (obeys_receiveAll hbody).exceptT_bind
  · rintro stage ⟨newOffset, buf⟩ ⟨sent, rfl, hsent⟩
    have hlast : (if buf = [] then pure newOffset
        else UploadsService.writeChunk upload newOffset buf : PatchM ℤ).run.Obeys
          (request.lengthProtocol uploadId)
          (fun stage result => ∃ sent, SendsChunk upload start sent stage result)
          (.running upload start sent newOffset) := by
      split
      · exact ⟨sent, rfl⟩
      · have hchunk : sent ++ buf <+: request.body := by
          rw [hsent]
          apply hbody
        apply (obeys_writeChunk hchunk).mono
        intro stage result h
        exact ⟨_, h⟩
    apply hlast.exceptT_bind
    · rintro stage lastOffset ⟨sent', rfl⟩
      apply Coroutine.Obeys.exceptT_bind (Q := fun stage _ => Started stage)
      · by_cases hsize : upload.size ≤ lastOffset
        · rw [if_pos hsize]
          apply obeys_completeUpload hsize
        · rw [if_neg hsize]
          exact ⟨start, rfl⟩
      · intro stage _ h
        apply h
      · intro stage e h
        apply h
    · rintro stage e ⟨sent', rfl⟩
      exact ⟨start, rfl⟩
  · rintro stage e rfl
    exact ⟨start, rfl⟩

/-- The rule for the question where the upload is. -/
theorem obeys_currentOffset :
  (UploadsService.currentOffset uploadId).run.Obeys (request.lengthProtocol uploadId)
    (fun stage result => match result with
      | .ok size => stage = if request.offset = some (size : ℤ) then .running upload size [] size
          else .found upload
      | .error _ => True)
    (.found upload)
  := by
  constructor
  · exact ⟨rfl, trivial⟩
  · rintro (e | size)
    · cases e
      all_goals trivial
    · rfl

/-- An exception is no answer. -/
theorem answers_error (stage : PatchStage) (e : Exc) :
  Answers stage (.error e)
  := by
  rintro response ⟨⟩

/-- A PATCH obeys its protocol, completes the upload only when it has its length, and is answered with
204 only where it was accepted. -/
theorem obeys_lengthProtocol (uploadId : String) (request : PatchRequest) :
  (UploadsApi.patchUpload uploadId request).run.Obeys (request.lengthProtocol uploadId) Answers
    .waiting
  := by
  constructor
  · exact ⟨rfl, trivial⟩
  · rintro (e | _ | upload)
    · apply answers_error
    · apply answers_error
    · apply Async.obeys_raiseIf_bind fun _ => answers_error _ _
      intro _
      apply Async.obeys_raiseIf_bind fun _ => answers_error _ _
      intro _
      apply Async.obeys_raiseIf_bind fun _ => answers_error _ _
      intro _
      cases hoffset : request.offset with
      | none => apply answers_error
      | some offset =>
          apply obeys_currentOffset.exceptT_bind
          · rintro stage size hstage
            by_cases hsame : offset = size
            · subst hsame
              simp only [if_pos hoffset] at hstage
              subst hstage
              rw [if_neg (not_not.mpr rfl)]
              apply Coroutine.Obeys.exceptT_bind (Q := fun stage _ => Started stage)
              · apply obeys_writeBody.tryCatch
                · intro stage _ h
                  apply h
                · intro stage e h
                  cases e
                  all_goals apply h
              · intro stage _ h _ _ _
                apply h
              · intro stage e _
                apply answers_error
            · rw [if_pos hsame]
              rintro response ⟨⟩ ⟨⟩
          · intro stage e _
            apply answers_error

/-- A PATCH obeys its protocol. -/
theorem obeys_patchUpload (uploadId : String) (request : PatchRequest) :
  (UploadsApi.patchUpload uploadId request).run.Obeys (request.protocol uploadId)
    (fun _ _ => True) .waiting
  := by
  apply (obeys_lengthProtocol uploadId request).of_restrict.mono
  intro stage result _
  trivial

end PatchRequest
