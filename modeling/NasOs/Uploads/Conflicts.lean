import NasOs.Library.Machine
import NasOs.Uploads.Worker

/-!
# Uploads to one destination

A worker runs each of its handlers without a break, while other processes change the files it sees:
between the calls, and between the check and the creation in `files.upload_begin`.

Only the beginning of an upload looks for a file at its destination.  A completion renames the part
file onto the destination whatever is there, so that it keeps a file that exists exactly when there
is none to keep.  That is so as long as no file appears at the destination of an upload that is
under way.
-/

/-- What a client has the worker do for its uploads. -/
inductive UploadCall where
  | begin (destPath uploadId : String)
  | offset (uploadId : String)
  | chunk (uploadId : String) (start : ℤ) (data : List UInt8)
  | complete (uploadId : String)
  | abort (uploadId : String)

/-- The handler of a call. -/
def UploadCall.handler : UploadCall → FileM Unit
  | .begin destPath uploadId => UploadsHandlers.begin destPath uploadId
  | .offset uploadId => do
      let _ ← UploadsHandlers.offset uploadId
      pure ()
  | .chunk uploadId start data => do
      let _ ← Fileworker.uploadChunk uploadId start data
      pure ()
  | .complete uploadId => UploadsHandlers.complete uploadId
  | .abort uploadId => UploadsHandlers.abort uploadId

/-- What another process does: it puts a file at a path, or takes it away. -/
structure FileChange where
  path : String
  node : Option FileNode

namespace Worker

/-- The files after other processes changed them. -/
def others (w : Worker) (changes : List FileChange) : Worker :=
  changes.foldl (fun w change => w.setFile change.path change.node) w

/-- The answer to an operation, other processes changing files after an existence check. -/
def answerAmid (refuses : FileOp → Option Refusal) (meanwhile : List FileChange) (w : Worker) :
    (op : FileOp) → op.Answer × Worker
  | .exists path => ((w.files path).isSome, w.others meanwhile)
  | op => w.answer refuses op

end Worker

/-- A step of a worker and the processes around it: a call with what the system refuses and what the
others do meanwhile, or a change by another process. -/
inductive UploadsLabel where
  | call (call : UploadCall) (refuses : FileOp → Option Refusal) (meanwhile : List FileChange)
  | change (change : FileChange)

/-- Run the handler of a call. -/
def Worker.serve (w : Worker) (call : UploadCall) (refuses : FileOp → Option Refusal)
    (meanwhile : List FileChange) : Except Exc Unit × Worker :=
  call.handler.run.execute (Worker.answerAmid refuses meanwhile) w

/-- The machine of a worker and the processes around it. -/
def uploadsMachine : Machine Worker UploadsLabel where
  step w
    | .call call refuses meanwhile => some (w.serve call refuses meanwhile).2
    | .change change => some (w.setFile change.path change.node)

/-! ### What a completion should do, and when it does -/

/-- A completion keeps every file but the part file, and reports a file at its destination. -/
structure Spares (w : Worker) (uploadId : String) (refuses : FileOp → Option Refusal)
    (meanwhile : List FileChange) (handle : UploadHandle) : Prop where
  reports : w.files handle.destPath ≠ none →
    ∃ message, (w.serve (.complete uploadId) refuses meanwhile).1
      = .error (.rpcException "already_exists" message)
  keeps : ∀ path node, path ≠ handle.partPath → w.files path = some node →
    (w.serve (.complete uploadId) refuses meanwhile).2.files path = some node

/-- Every completion of a registered upload spares the files that exist. -/
def CompletionSpares (w : Worker) : UploadsLabel → Prop
  | .call (.complete uploadId) refuses meanwhile =>
      ∀ handle, w.uploads uploadId = some handle → Spares w uploadId refuses meanwhile handle
  | _ => True

/-- No file exists at the destination of an upload that is completed. -/
def CompletesToNothing (w : Worker) : UploadsLabel → Prop
  | .call (.complete uploadId) _ _ => ∀ handle ∈ w.uploads uploadId, w.files handle.destPath = none
  | _ => True

instance decidableCompletesToNothing (w : Worker) :
    (label : UploadsLabel) → Decidable (CompletesToNothing w label)
  | .call (.complete uploadId) _ _ =>
      inferInstanceAs (Decidable (∀ handle ∈ w.uploads uploadId, w.files handle.destPath = none))
  | .call (.begin _ _) _ _ => isTrue trivial
  | .call (.offset _) _ _ => isTrue trivial
  | .call (.chunk _ _ _) _ _ => isTrue trivial
  | .call (.abort _) _ _ => isTrue trivial
  | .change _ => isTrue trivial

/-- An upload to a path is under way. -/
def UnderWay (w : Worker) (path : String) : Prop :=
  ∃ uploadId handle, w.uploads uploadId = some handle ∧ handle.destPath = path

/-- No file appears at the destination of an upload that is under way: none that another process puts
there, no part file, and no other upload that is completed. -/
def NoneAppears (w : Worker) : UploadsLabel → Prop
  | .change change => change.node ≠ none → ¬ UnderWay w change.path
  | .call (.begin destPath uploadId) _ meanwhile =>
      (∀ change ∈ meanwhile, change.node ≠ none →
        ¬ UnderWay w change.path ∧ (w.files destPath = none → change.path ≠ destPath))
      ∧ (w.files destPath = none → ¬ UnderWay w (partPathFor destPath uploadId)
        ∧ partPathFor destPath uploadId ≠ destPath)
  | .call (.complete uploadId) _ _ =>
      ∀ handle, w.uploads uploadId = some handle →
        ∀ uploadId' handle', uploadId' ≠ uploadId → w.uploads uploadId' = some handle' →
          handle'.destPath ≠ handle.destPath
  | _ => True

section

variable {w w' : Worker} {refuses : FileOp → Option Refusal} {meanwhile : List FileChange}

/-- The rename of a part file onto nothing keeps every other file. -/
theorem Worker.keeps_of_answer_rename {source target path : String} {node : FileNode}
    (htarget : w.files target = none) (hpath : path ≠ source) (hnode : w.files path = some node) :
  (w.answer refuses (.rename source target)).2.files path = some node
  := by
  have hne : path ≠ target := by
    rintro rfl
    cases hnode.symm.trans htarget
  rw [answer]
  split
  · simp only [perform, rename]
    split
    · split
      · apply hnode
      · split
        · apply hnode
        · split
          · apply hnode
          · simp [setFile, Function.update_of_ne hpath, Function.update_of_ne hne, hnode]
    · apply hnode
  · apply hnode

/-- An operation other than an existence check is answered as ever. -/
theorem Worker.answerAmid_of_not_exists {op : FileOp} (h : ∀ path, op ≠ .exists path) :
  w.answerAmid refuses meanwhile op = w.answer refuses op
  := by
  cases op with
  | «exists» path => apply absurd rfl (h path)
  | _ => rfl

/-- How a completion ends: as the rename does. -/
theorem Worker.serve_complete {uploadId : String} {handle : UploadHandle}
    (hregistered : w.uploads uploadId = some handle) :
  w.serve (.complete uploadId) refuses meanwhile
    = match w.answer refuses (.rename handle.partPath handle.destPath) with
      | (.ok _, w') => (.ok (), { w' with uploads := Function.update w'.uploads uploadId none })
      | (.error e, w') => (.error (.rpcException "io_error" e.str), w')
  := by
  have hhandle : w.answerAmid refuses meanwhile (.getHandle uploadId) = (some handle, w) := by
    rw [answerAmid_of_not_exists (by simp), answer_getHandle, hregistered]
  change (UploadsHandlers.complete uploadId).run.execute _ w = _
  rw [UploadsHandlers.complete, UploadsHandlers.handleOrRaise]
  change Coroutine.execute _ (.await (FileOp.getHandle uploadId) _) w = _
  rw [Coroutine.execute_await, hhandle]
  change Coroutine.execute _ (.await (FileOp.rename _ _) _) w = _
  rw [Coroutine.execute_await, answerAmid_of_not_exists (by simp)]
  rcases w.answer refuses (.rename handle.partPath handle.destPath) with ⟨_ | _, w'⟩
  · rfl
  · change Coroutine.execute _ (.await (FileOp.popHandle uploadId) _) w' = _
    rw [Coroutine.execute_await, answerAmid_of_not_exists (by simp), answer_popHandle]
    rfl

/-- A completion spares the files that exist exactly when none exists at its destination. -/
theorem spares_iff {uploadId : String} {handle : UploadHandle}
    (hregistered : w.uploads uploadId = some handle) :
  Spares w uploadId refuses meanwhile handle ↔ w.files handle.destPath = none
  := by
  have hserve := @Worker.serve_complete w refuses meanwhile uploadId handle hregistered
  constructor
  · intro h
    by_contra hexists
    obtain ⟨message, hmessage⟩ := h.reports hexists
    rw [hserve] at hmessage
    split at hmessage
    · cases hmessage
    · simp at hmessage
  · intro htarget
    constructor
    · intro hexists
      apply absurd htarget hexists
    · intro path node hpath hnode
      have hkeeps := @Worker.keeps_of_answer_rename w refuses _ _ path node htarget hpath hnode
      rw [hserve]
      split
      · rename_i heq
        rw [heq] at hkeeps
        apply hkeeps
      · rename_i heq
        rw [heq] at hkeeps
        apply hkeeps

/-! ### Runs in which no file appears at a destination -/

/-- No file exists at the destination of an upload that is under way. -/
def Clear (w : Worker) : Prop :=
  ∀ path, UnderWay w path → w.files path = none

/-- No more uploads are under way and no more files exist. -/
structure Shrinks (w w' : Worker) : Prop where
  uploads : ∀ uploadId handle, w'.uploads uploadId = some handle → w.uploads uploadId = some handle
  files : ∀ path, w.files path = none → w'.files path = none

theorem Shrinks.refl (w : Worker) :
  Shrinks w w
  := ⟨fun _ _ h => h, fun _ h => h⟩

/-- Destinations stay clear when nothing is added. -/
theorem Clear.shrink (h : Clear w) (hshrinks : Shrinks w w') :
  Clear w'
  := by
  rintro path ⟨uploadId, handle, hregistered, hpath⟩
  apply hshrinks.files
  apply h
  exact ⟨uploadId, handle, hshrinks.uploads _ _ hregistered, hpath⟩

/-- Changing or removing a file adds nothing. -/
theorem Shrinks.setFile (h : Shrinks w w') {path : String} {node : Option FileNode}
    (hnode : w.files path = none → node = none) :
  Shrinks w (w'.setFile path node)
  := by
  use h.uploads
  intro path' hpath'
  change Function.update _ _ _ _ = _
  by_cases hsame : path' = path
  · subst hsame
    rw [Function.update_self]
    apply hnode hpath'
  · rw [Function.update_of_ne hsame]
    apply h.files path' hpath'

/-- Forgetting an upload adds nothing. -/
theorem Shrinks.popHandle (h : Shrinks w w') (uploadId : String) :
  Shrinks w { w' with uploads := Function.update w'.uploads uploadId none }
  := by
  constructor
  · intro uploadId' handle hregistered
    apply h.uploads
    change Function.update _ _ _ _ = _ at hregistered
    by_cases hsame : uploadId' = uploadId
    · subst hsame
      rw [Function.update_self] at hregistered
      cases hregistered
    · rw [Function.update_of_ne hsame] at hregistered
      apply hregistered
  · apply h.files

/-- Operations that neither create a file nor register an upload. -/
def FileOp.Removing : FileOp → Prop
  | .create _ _ | .rename _ _ | .putHandle _ _ | .exists _ => False
  | _ => True

/-- Such an operation adds nothing. -/
theorem Shrinks.answer (h : Shrinks w w') {op : FileOp} (hop : op.Removing) :
  Shrinks w (w'.answerAmid refuses meanwhile op).2
  := by
  rw [Worker.answerAmid_of_not_exists (by rintro path rfl; apply hop)]
  cases op with
  | getsize path =>
      rw [Worker.answer]
      split
      · simp only [Worker.perform]
        split
        · apply h
        · apply h
      · apply h
  | remove path =>
      rw [Worker.answer]
      split
      · simp only [Worker.perform]
        split
        · apply h
        · split
          · apply h
          · apply h.setFile fun _ => rfl
      · apply h
  | write path start data =>
      have hwrite := @Worker.answer_write refuses w' path start data
      rcases hwrite with hw | ⟨node, content, hnode, hw⟩
      · rw [hw]
        apply h
      · rw [hw]
        apply h.setFile
        intro hnone
        cases hnode.symm.trans (h.files _ hnone)
  | getHandle uploadId =>
      rw [Worker.answer_getHandle]
      apply h
  | popHandle uploadId =>
      rw [Worker.answer_popHandle]
      apply h.popHandle
  | _ => cases hop

/-- The calls that neither begin nor complete an upload add nothing. -/
theorem shrinks_serve {call : UploadCall} (hcall : call.handler.run.Awaits FileOp.Removing) :
  Shrinks w (w.serve call refuses meanwhile).2
  := by
  apply hcall.execute (I := Shrinks w)
  · intro w' op hop h
    apply h.answer hop
  · apply Shrinks.refl

/-- `files.upload_offset` only looks. -/
theorem awaits_offset (uploadId : String) :
  (UploadCall.offset uploadId).handler.run.Awaits FileOp.Removing
  := by
  apply Coroutine.awaits_exceptT_bind
  · constructor
    · trivial
    · rintro (_ | handle)
      · trivial
      · constructor
        · trivial
        · rintro (e | size)
          · trivial
          · trivial
  · intro _
    trivial

/-- The write of a chunk does not create the part file. -/
theorem awaits_chunk (uploadId : String) (start : ℤ) (data : List UInt8) :
  (UploadCall.chunk uploadId start data).handler.run.Awaits FileOp.Removing
  := by
  apply Coroutine.awaits_exceptT_bind
  · constructor
    · trivial
    · rintro (_ | handle)
      · trivial
      · constructor
        · trivial
        · rintro (e | offset)
          · trivial
          · trivial
  · intro _
    trivial

/-- `files.upload_abort` removes the part file. -/
theorem awaits_abort (uploadId : String) :
  (UploadCall.abort uploadId).handler.run.Awaits FileOp.Removing
  := by
  constructor
  · trivial
  · rintro (_ | handle)
    · trivial
    · constructor
      · trivial
      · rintro ((_ | _) | _)
        · trivial
        · trivial
        · trivial

/-! ### The beginning of an upload -/

/-- What others put in place is no destination, and stays none. -/
theorem Worker.files_others {changes : List FileChange} {path : String} (hnone : w.files path = none)
    (hchanges : ∀ change ∈ changes, change.node ≠ none → change.path ≠ path) :
  (w.others changes).files path = none
  := by
  induction changes generalizing w with
  | nil => apply hnone
  | cons change changes ih =>
      apply @ih (w.setFile change.path change.node)
      · change Function.update _ _ _ _ = _
        by_cases hsame : path = change.path
        · rw [hsame, Function.update_self]
          by_contra hnode
          apply hchanges change List.mem_cons_self hnode hsame.symm
        · rw [Function.update_of_ne hsame]
          apply hnone
      · intro change' hmem
        apply hchanges change' (List.mem_cons_of_mem _ hmem)

/-- What others do does not touch the uploads. -/
theorem Worker.uploads_others (w : Worker) (changes : List FileChange) :
  (w.others changes).uploads = w.uploads
  := by
  induction changes generalizing w with
  | nil => rfl
  | cons change changes ih => apply ih (w.setFile change.path change.node)

/-- The creation of a file makes no other file appear. -/
theorem Worker.files_answer_create {path path' : String} {mode : ℕ} (hnone : w.files path' = none)
    (hne : path' ≠ path) :
  (w.answer refuses (.create path mode)).2.files path' = none
  := by
  rw [answer]
  split
  · simp only [perform, create]
    split
    · split
      · apply hnone
      · apply hnone
    · split
      · apply hnone
      · split
        · change Function.update _ _ _ _ = _
          rw [Function.update_of_ne hne]
          apply hnone
        · apply hnone
  · apply hnone

/-- How the beginning of an upload ends: it is not registered, or the part file was created and it is
registered with a destination where nothing was found. -/
theorem serve_begin (destPath uploadId : String) :
  (w.files destPath ≠ none
      ∧ (w.serve (.begin destPath uploadId) refuses meanwhile).2 = w.others meanwhile)
    ∨ w.files destPath = none
      ∧ ∃ w', w' = ((w.others meanwhile).answer refuses
            (.create (partPathFor destPath uploadId) 0o600)).2
        ∧ ((w.serve (.begin destPath uploadId) refuses meanwhile).2 = w'
          ∨ (w.serve (.begin destPath uploadId) refuses meanwhile).2 = { w' with
              uploads := Function.update w'.uploads uploadId
                (some ⟨destPath, partPathFor destPath uploadId⟩) })
  := by
  rw [Worker.serve, UploadCall.handler, UploadsHandlers.begin, Async.execute_ask_bind, Worker.answerAmid]
  cases hdest : w.files destPath with
  | some node =>
      left
      exact ⟨by simp, rfl⟩
  | none =>
      right
      refine ⟨rfl, _, rfl, ?_⟩
      change (Coroutine.execute _ (.await (FileOp.create _ _) _) (w.others meanwhile)).2 = _
        ∨ (Coroutine.execute _ (.await (FileOp.create _ _) _) (w.others meanwhile)).2 = _
      simp only [Coroutine.execute_await]
      rw [Worker.answerAmid_of_not_exists (by simp)]
      rcases (w.others meanwhile).answer refuses (.create (partPathFor destPath uploadId) 0o600)
        with ⟨e | _, w'⟩
      · left
        rfl
      · right
        change (w'.answerAmid refuses meanwhile (.putHandle _ _)).2 = _
        rw [Worker.answerAmid_of_not_exists (by simp), Worker.answer_putHandle]

/-- The beginning of an upload keeps the destinations clear. -/
theorem Clear.begin (h : Clear w) {destPath uploadId : String}
    (hnone : NoneAppears w (.call (.begin destPath uploadId) refuses meanwhile)) :
  Clear (w.serve (.begin destPath uploadId) refuses meanwhile).2
  := by
  obtain ⟨hothers, hpart⟩ := hnone
  have hclear : ∀ path, UnderWay w path → (w.others meanwhile).files path = none := by
    intro path hpath
    apply Worker.files_others (h path hpath)
    rintro change hmem hnode rfl
    apply (hothers change hmem hnode).1 hpath
  have hserve := @serve_begin w refuses meanwhile destPath uploadId
  rcases hserve with ⟨-, hw⟩ | ⟨hdest, w', hcreate, hw⟩
  · rw [hw]
    rintro path ⟨uploadId', handle, hregistered, hpath⟩
    rw [Worker.uploads_others] at hregistered
    apply hclear path ⟨uploadId', handle, hregistered, hpath⟩
  · obtain ⟨hpart, hself⟩ := hpart hdest
    have hcreated : ∀ path, path ≠ partPathFor destPath uploadId →
        (w.others meanwhile).files path = none → w'.files path = none := by
      intro path hne hpath
      rw [hcreate]
      apply Worker.files_answer_create hpath hne
    have huploads : w'.uploads = w.uploads := by
      rw [hcreate, Worker.uploads_answer _ (by simp) (by simp), Worker.uploads_others]
    have hdest' : w'.files destPath = none := by
      apply hcreated destPath hself.symm
      apply Worker.files_others hdest
      intro change hmem hnode
      apply (hothers change hmem hnode).2 hdest
    have hold : ∀ path, UnderWay w path → w'.files path = none := by
      intro path hpath
      apply hcreated path _ (hclear path hpath)
      rintro rfl
      apply hpart hpath
    rcases hw with hw | hw
    · rw [hw]
      rintro path ⟨uploadId', handle, hregistered, hpath⟩
      rw [huploads] at hregistered
      apply hold path ⟨uploadId', handle, hregistered, hpath⟩
    · rw [hw]
      rintro path ⟨uploadId', handle, hregistered, rfl⟩
      change Function.update _ _ _ _ = _ at hregistered
      by_cases hsame : uploadId' = uploadId
      · rw [hsame, Function.update_self] at hregistered
        cases hregistered
        apply hdest'
      · rw [Function.update_of_ne hsame, huploads] at hregistered
        apply hold _ ⟨uploadId', handle, hregistered, rfl⟩

/-- A rename makes no file appear but at its target. -/
theorem Worker.files_answer_rename {source target path : String} (hnone : w.files path = none)
    (hne : path ≠ target) :
  (w.answer refuses (.rename source target)).2.files path = none
  := by
  rw [answer]
  split
  · simp only [perform, rename]
    split
    · split
      · apply hnone
      · split
        · apply hnone
        · split
          · apply hnone
          · change Function.update _ _ _ _ = _
            by_cases hsource : path = source
            · rw [hsource, Function.update_self]
            · rw [Function.update_of_ne hsource]
              change Function.update _ _ _ _ = _
              rw [Function.update_of_ne hne]
              apply hnone
    · apply hnone
  · apply hnone

/-- The completion of an upload that is not registered changes nothing. -/
theorem Worker.serve_complete_of_none {uploadId : String} (hnone : w.uploads uploadId = none) :
  (w.serve (.complete uploadId) refuses meanwhile).2 = w
  := by
  have hhandle : w.answerAmid refuses meanwhile (.getHandle uploadId) = (none, w) := by
    rw [answerAmid_of_not_exists (by simp), answer_getHandle, hnone]
  change ((UploadsHandlers.complete uploadId).run.execute _ w).2 = _
  rw [UploadsHandlers.complete, UploadsHandlers.handleOrRaise]
  change (Coroutine.execute _ (.await (FileOp.getHandle uploadId) _) w).2 = _
  rw [Coroutine.execute_await, hhandle]
  rfl

/-- A completion keeps the destinations of the other uploads clear. -/
theorem Clear.complete (h : Clear w) {uploadId : String}
    (hnone : NoneAppears w (.call (.complete uploadId) refuses meanwhile)) :
  Clear (w.serve (.complete uploadId) refuses meanwhile).2
  := by
  cases hregistered : w.uploads uploadId with
  | none =>
      rw [Worker.serve_complete_of_none hregistered]
      apply h
  | some handle =>
      have hfiles := @Worker.files_answer_rename w refuses handle.partPath handle.destPath
      have huploads : (w.answer refuses (.rename handle.partPath handle.destPath)).2.uploads = w.uploads := by
        apply Worker.uploads_answer
        · simp
        · simp
      have herror := @Worker.of_answer_rename_error refuses w
      rw [Worker.serve_complete hregistered]
      rcases hanswer : w.answer refuses (.rename handle.partPath handle.destPath) with ⟨e | _, w'⟩
      · rw [herror hanswer]
        apply h
      · rintro path ⟨uploadId', handle', hregistered', rfl⟩
        change Function.update _ _ _ _ = _ at hregistered'
        by_cases hsame : uploadId' = uploadId
        · rw [hsame, Function.update_self] at hregistered'
          cases hregistered'
        · rw [hanswer] at hfiles huploads
          rw [Function.update_of_ne hsame, huploads] at hregistered'
          apply hfiles
          · apply h
            exact ⟨uploadId', handle', hregistered', rfl⟩
          · apply hnone handle hregistered uploadId' handle' hsame hregistered'

/-- The step lemma: destinations stay clear while no file appears at one. -/
theorem Clear.step (h : Clear w) {label : UploadsLabel} (hnone : NoneAppears w label)
    (hstep : uploadsMachine.step w label = some w') :
  Clear w'
  := by
  cases label with
  | change change =>
      cases hstep
      rintro path ⟨uploadId, handle, hregistered, hpath⟩
      change Function.update _ _ _ _ = _
      have hunder : UnderWay w path := ⟨uploadId, handle, hregistered, hpath⟩
      by_cases hsame : path = change.path
      · rw [hsame, Function.update_self]
        by_contra hnode
        apply hnone hnode
        rw [← hsame]
        apply hunder
      · rw [Function.update_of_ne hsame]
        apply h path hunder
  | call call refuses meanwhile =>
      cases hstep
      cases call with
      | begin destPath uploadId => apply h.begin hnone
      | complete uploadId => apply h.complete hnone
      | offset uploadId => apply h.shrink (shrinks_serve (awaits_offset uploadId))
      | chunk uploadId start data => apply h.shrink (shrinks_serve (awaits_chunk uploadId start data))
      | abort uploadId => apply h.shrink (shrinks_serve (awaits_abort uploadId))

end

/-- Completions spare the files that exist where none exists at their destinations. -/
theorem completionSpares_iff (w : Worker) (label : UploadsLabel) :
  CompletionSpares w label ↔ CompletesToNothing w label
  := by
  cases label with
  | change change => rfl
  | call call refuses meanwhile =>
      cases call with
      | complete uploadId =>
          apply forall_congr'
          intro handle
          constructor
          · intro h hregistered
            apply (spares_iff hregistered).mp (h hregistered)
          · intro h hregistered
            apply (spares_iff hregistered).mpr (h hregistered)
      | _ => rfl

/-- A worker that has just started. -/
def Worker.started (uid : ℕ) (files : String → Option FileNode) : Worker :=
  ⟨uid, files, fun _ => none⟩

/-- In every run of a worker and the processes around it, the completions spare the files that exist if
and only if none exists at a destination when it is completed; and so they do when no file
appears at the destination of an upload that is under way. -/
theorem completions_spare (uid : ℕ) (files : String → Option FileNode) (labels : List UploadsLabel) :
  (uploadsMachine.Along CompletionSpares (Worker.started uid files) labels
      ↔ uploadsMachine.Along CompletesToNothing (Worker.started uid files) labels)
    ∧ (uploadsMachine.Along NoneAppears (Worker.started uid files) labels →
      uploadsMachine.Along CompletionSpares (Worker.started uid files) labels)
  := by
  constructor
  · apply Machine.along_congr completionSpares_iff
  · intro hnone
    apply Machine.along_of_invariant (I := Clear) _ _ _ hnone
    · intro w label w' h hlabel hstep
      apply h.step hlabel hstep
    · intro w label h _
      rw [completionSpares_iff]
      cases label with
      | change change => trivial
      | call call refuses meanwhile =>
          cases call with
          | complete uploadId =>
              intro handle hregistered
              apply h
              exact ⟨uploadId, handle, hregistered, rfl⟩
          | _ => trivial
    · rintro path ⟨uploadId, handle, hregistered, -⟩
      cases hregistered

/-- A directory and nothing in it. -/
def emptyVolume : String → Option FileNode :=
  Function.update (fun _ => none) "/volume1"
    (some ⟨0, ⟨true, Acl.minimal Perm.all Perm.all Perm.none, none, FileAcl.default_isDir_none true⟩, []⟩)

/-- Two uploads to one destination are begun, and both are completed. -/
def uploadedTwice : List UploadsLabel :=
  [.call (.begin "/volume1/report" "first") (fun _ => none) [],
    .call (.begin "/volume1/report" "second") (fun _ => none) [],
    .call (.chunk "first" 0 [1]) (fun _ => none) [],
    .call (.complete "first") (fun _ => none) [],
    .call (.complete "second") (fun _ => none) []]

/-- It is not so that completions spare the files that exist in every run. -/
theorem completions_replace :
  ¬ ∀ (uid : ℕ) (files : String → Option FileNode) (labels : List UploadsLabel),
    uploadsMachine.Along CompletionSpares (Worker.started uid files) labels
  := by
  intro h
  have hrun := h 1000 emptyVolume uploadedTwice
  rw [Machine.along_congr completionSpares_iff] at hrun
  revert hrun
  decide +kernel
