import NasOs.Uploads.Bytes
import NasOs.Uploads.Inherited
import NasOs.Uploads.Sending

/-!
# PATCH requests that run at the same time

PATCH requests of one upload are the tasks of a pool.  A call to the worker that failed may be done
later, after its request has ended.  When no PATCH is accepted while another is being served, before the
PATCH accepted last has written a byte, or while a write that failed is still to be done, the bytes of the
upload are at every moment the pieces that the accepted requests wrote, in the order of their offsets.
-/

/-! ### Calls that are done late -/

/-- The operation is a call to the worker. -/
def PatchOp.isCall : PatchOp → Bool
  | .uploadOffset _ => true
  | .writeChunk _ _ _ => true
  | .uploadComplete _ => true
  | _ => false

/-- The operation writes a chunk. -/
def PatchOp.isWrite : PatchOp → Bool
  | .writeChunk _ _ _ => true
  | _ => false

/-- The worker of a user, the row of an upload, and the calls that failed at their callers and that the
worker is still to do. -/
structure LateWorld (uploadId : String) extends UploadWorld uploadId where
  pending : List PatchOp

/-- How an operation turns out, and whether the worker is still to do a call that failed undone. -/
structure LateChoice extends PatchChoice where
  lingers : Bool

/-- The worker does a call that failed before, or never will. -/
inductive LateEvent where
  | lands (op : PatchOp) (refuses : FileOp → Option Refusal)
  | lost (op : PatchOp)

namespace LateWorld

variable {uploadId : String}

/-- The answers to the operations of a PATCH of the upload. -/
def perform (world : LateWorld uploadId) (op : PatchOp) (choice : LateChoice) :
    Option (op.Answer × LateWorld uploadId) :=
  (world.toUploadWorld.perform op choice.toPatchChoice).map fun (answer, world') =>
    (answer,
      ⟨world', if choice.lingers && !choice.reached && op.isCall then op :: world.pending
        else world.pending⟩)

/-- What has become of a call that failed before. -/
def environment (world : LateWorld uploadId) : LateEvent → Option (LateWorld uploadId)
  | .lands op refuses =>
      if op ∈ world.pending then
        (world.toUploadWorld.perform op ⟨refuses, true, none⟩).map fun (_, world') =>
          ⟨world', world.pending.erase op⟩
      else none
  | .lost op =>
      if op ∈ world.pending then some { world with pending := world.pending.erase op } else none

/-- An operation is answered as when nothing is done late; a call that was not done may have become one
that is still to be done. -/
theorem of_perform {world world' : LateWorld uploadId} {op : PatchOp} {choice : LateChoice}
    {r : op.Answer} (h : world.perform op choice = some (r, world')) :
  world.toUploadWorld.perform op choice.toPatchChoice = some (r, world'.toUploadWorld)
    ∧ (world'.pending = world.pending
      ∨ choice.reached = false ∧ op.isCall = true ∧ world'.pending = op :: world.pending)
  := by
  obtain ⟨⟨r', world''⟩, hperform, hpair⟩ := Option.map_eq_some_iff.mp h
  cases hpair
  use hperform
  by_cases hlater : (choice.lingers && !choice.reached && op.isCall) = true
  · right
    rw [Bool.and_eq_true, Bool.and_eq_true, Bool.not_eq_true'] at hlater
    refine ⟨hlater.1.2, hlater.2, ?_⟩
    rw [if_pos (by simp [hlater])]
  · left
    rw [if_neg hlater]

end LateWorld

/-- The effects of the PATCH requests of an upload, whose calls may be done late. -/
def lateEffects (uploadId : String) :
    Effects PatchOp PatchOp.Answer (LateWorld uploadId) LateChoice LateEvent :=
  ⟨LateWorld.perform, LateWorld.environment⟩

/-! ### What the upload is made of -/

/-- The bytes that a request wrote, and the offset it started at. -/
structure Segment where
  task : ℕ
  start : ℕ
  bytes : List UInt8

/-- The bytes of segments one after the other. -/
def Segment.concat (segs : List Segment) : List UInt8 :=
  segs.flatMap Segment.bytes

/-- Each segment starts where the ones before it end, after the starts of them all. -/
inductive Segment.Consecutive : List Segment → Prop where
  | nil : Consecutive []
  | snoc (segs : List Segment) (seg : Segment) : Consecutive segs →
      seg.start = (concat segs).length → (∀ seg' ∈ segs, seg'.start < seg.start) →
      Consecutive (segs ++ [seg])

namespace Segment

/-- The last of consecutive segments. -/
theorem consecutive_snoc {segs : List Segment} {seg : Segment} :
  Consecutive (segs ++ [seg])
    ↔ Consecutive segs ∧ seg.start = (concat segs).length ∧ ∀ seg' ∈ segs, seg'.start < seg.start
  := by
  constructor
  · intro h
    generalize hl : segs ++ [seg] = l at h
    cases h with
    | nil => simp at hl
    | snoc segs' seg' h hstart hlt =>
        obtain ⟨rfl, hseg⟩ := List.append_inj' hl rfl
        cases hseg
        exact ⟨h, hstart, hlt⟩
  · rintro ⟨h, hstart, hlt⟩
    apply Consecutive.snoc segs seg h hstart hlt

/-- Consecutive segments that start at the same offset are the same. -/
theorem Consecutive.eq_of_start {segs : List Segment} (h : Consecutive segs) {seg seg' : Segment}
    (hseg : seg ∈ segs) (hseg' : seg' ∈ segs) (hstart : seg.start = seg'.start) :
  seg = seg'
  := by
  induction h with
  | nil => cases hseg
  | snoc segs last _ _ hlt ih =>
      rw [List.mem_append, List.mem_singleton] at hseg hseg'
      rcases hseg with hseg | rfl
      · rcases hseg' with hseg' | rfl
        · apply ih hseg hseg'
        · have := hlt seg hseg
          omega
      · rcases hseg' with hseg' | rfl
        · have := hlt seg' hseg'
          omega
        · rfl

@[simp]
theorem concat_append (segs segs' : List Segment) :
  concat (segs ++ segs') = concat segs ++ concat segs'
  := List.flatMap_append

@[simp]
theorem concat_singleton (seg : Segment) :
  concat [seg] = seg.bytes
  := List.flatMap_singleton Segment.bytes seg

end Segment

/-- The offset an answer lets a request start at, if the request is accepted with it. -/
def PatchRequest.accepts (request : PatchRequest) : Event PatchOp PatchOp.Answer → Option ℕ
  | ⟨.uploadOffset _, .ok size⟩ => if request.offset = some (size : ℤ) then some size else none
  | _ => none

section

variable {uploadId : String}

/-- The pool of unstarted PATCH requests of an upload, whose calls may be done late. -/
def PatchRequest.latePool (requests : List PatchRequest) (world : UploadWorld uploadId) :
    Pool PatchOp PatchOp.Answer (LateWorld uploadId) (Except Exc Response) :=
  Pool.start ⟨world, []⟩ (requests.map fun request => (UploadsApi.patchUpload uploadId request).run)

/-- The offsets at which a request of a pool was accepted. -/
def acceptedAt (requests : List PatchRequest)
    (p : Pool PatchOp PatchOp.Answer (LateWorld uploadId) (Except Exc Response)) (i : ℕ) : List ℕ :=
  match requests[i]? with
  | some request => (p.historyOf i).filterMap request.accepts
  | none => []

/-- The bytes of the upload are consecutive segments: one of each accepted request, of the offset it was
accepted at, and made of the first bytes of its body. -/
structure AssembledOf (handle : UploadHandle) (requests : List PatchRequest)
    (p : Pool PatchOp PatchOp.Answer (LateWorld uploadId) (Except Exc Response))
    (segs : List Segment) : Prop where
  consecutive : Segment.Consecutive segs
  isPrefix : ∀ seg ∈ segs, ∃ request, requests[seg.task]? = some request
    ∧ seg.bytes <+: request.body
  accepted : ∀ i start, start ∈ acceptedAt requests p i ↔ ∃ seg ∈ segs, seg.task = i ∧ seg.start = start
  hasBytes : HasBytes p.world.worker uploadId handle (Segment.concat segs)

/-- A PATCH whose offset is the size of the part file is told that size only when no other accepted PATCH
is still being served, every PATCH that was accepted has written, and no write that failed is still to be
done. -/
def ChecksApart (handle : UploadHandle) (requests : List PatchRequest)
    (p : Pool PatchOp PatchOp.Answer (LateWorld uploadId) (Except Exc Response)) :
    Pool.Label LateChoice LateEvent → Prop
  | .task i _ => p.pendingOf i = some (.uploadOffset uploadId) →
      requests[i]?.bind PatchRequest.offset = some (p.world.worker.partSize handle : ℤ) →
      (∀ op ∈ p.world.pending, op.isWrite = false) ∧
      ∀ j < requests.length, ∀ start ∈ acceptedAt requests p j,
        (j ≠ i → p.pendingOf j = none) ∧ start < p.world.worker.partSize handle
  | .environment _ => True

/-- What a stage of a request that is being served says. -/
def Stands (uploadId : String) (segs : List Segment) (i : ℕ) : PatchStage → Prop
  | .found upload => upload.id = uploadId
  | .running upload start sent offset =>
      upload.id = uploadId ∧ offset = (Segment.concat segs).length
        ∧ ∃ before, segs = before ++ [⟨i, start, sent⟩]
  | _ => True

/-- A request at this stage sends bytes. -/
def PatchStage.Sending : PatchStage → Prop
  | .running _ _ _ _ => True
  | _ => False

/-- The calls that are still to be done: at most one of them writes, and then no request is sending, and
what it writes goes on with the last segment. -/
structure Lingering (requests : List PatchRequest) (stages : ℕ → PatchStage)
    (p : Pool PatchOp PatchOp.Answer (LateWorld uploadId) (Except Exc Response)) (segs : List Segment) :
    Prop where
  call : ∀ op ∈ p.world.pending, op = .uploadOffset uploadId ∨ op = .uploadComplete uploadId
    ∨ ∃ offset data, op = .writeChunk uploadId offset data
  once : p.world.pending.countP PatchOp.isWrite ≤ 1
  write : ∀ (offset : ℤ) data, .writeChunk uploadId offset data ∈ p.world.pending →
    offset = (Segment.concat segs).length
      ∧ (∃ before seg request, segs = before ++ [seg] ∧ requests[seg.task]? = some request
        ∧ seg.bytes ++ data <+: request.body)
      ∧ ∀ i, p.pendingOf i ≠ none → ¬ (stages i).Sending

/-- The invariant of the requests: the bytes are made of segments, a request that is being served and
was accepted is the last of them, and what is still to be written belongs to the last of them. -/
def PatchInv (handle : UploadHandle) (requests : List PatchRequest) (stages : ℕ → PatchStage)
    (p : Pool PatchOp PatchOp.Answer (LateWorld uploadId) (Except Exc Response)) : Prop :=
  ∃ segs, AssembledOf handle requests p segs
    ∧ (∀ i, p.pendingOf i ≠ none → Stands uploadId segs i (stages i))
    ∧ Lingering requests stages p segs

section

variable {handle : UploadHandle} {requests : List PatchRequest} {stages : ℕ → PatchStage}
  {p : Pool PatchOp PatchOp.Answer (LateWorld uploadId) (Except Exc Response)} {i : ℕ} {op : PatchOp}
  {resume : op.Answer → Coroutine PatchOp PatchOp.Answer (Except Exc Response)} {r : op.Answer}
  {world' : LateWorld uploadId} {segs segs' : List Segment} {stage' : PatchStage}

/-- An answer that accepts nothing leaves the accepted requests. -/
theorem acceptedAt_resumed_of_none {request : PatchRequest} (hrequest : requests[i]? = some request)
    (hnone : request.accepts ⟨op, r⟩ = none) (j : ℕ) :
  acceptedAt requests (p.resumed i op resume r world') j = acceptedAt requests p j
  := by
  by_cases hij : i = j
  · subst hij
    simp only [acceptedAt, hrequest, Pool.historyOf_resumed_self, List.filterMap_append,
      List.filterMap_cons_none hnone, List.filterMap_nil, List.append_nil]
  · simp only [acceptedAt, Pool.historyOf_resumed_of_ne hij]

/-- An answer that accepts a request adds to the offsets at which it was accepted. -/
theorem mem_acceptedAt_resumed {request : PatchRequest} (hrequest : requests[i]? = some request)
    {start : ℕ} (hstart : request.accepts ⟨op, r⟩ = some start) {j k : ℕ} :
  k ∈ acceptedAt requests (p.resumed i op resume r world') j
    ↔ k ∈ acceptedAt requests p j ∨ i = j ∧ start = k
  := by
  by_cases hij : i = j
  · subst hij
    simp only [acceptedAt, hrequest, Pool.historyOf_resumed_self, List.filterMap_append,
      List.filterMap_cons_some hstart, List.filterMap_nil, List.mem_append, List.mem_singleton,
      true_and]
    rw [@eq_comm _ k]
  · simp only [acceptedAt, Pool.historyOf_resumed_of_ne hij, hij, false_and, or_false]

/-- The invariant after an answer, from what it needs. -/
theorem PatchInv.intro (hassembled : AssembledOf handle requests (p.resumed i op resume r world') segs')
    (hself : Stands uploadId segs' i stage')
    (hothers : ∀ j ≠ i, p.pendingOf j ≠ none → Stands uploadId segs' j (stages j))
    (hlingering : Lingering requests (Function.update stages i stage')
      (p.resumed i op resume r world') segs') :
  PatchInv handle requests (Function.update stages i stage') (p.resumed i op resume r world')
  := by
  refine ⟨segs', hassembled, ?_, hlingering⟩
  intro j hpending
  by_cases hij : j = i
  · subst hij
    rw [Function.update_self]
    apply hself
  · rw [Function.update_of_ne hij]
    apply hothers j hij
    rw [Pool.pendingOf_resumed_of_ne (Ne.symm hij)] at hpending
    apply hpending

/-- When no write is to be done, what is to be done fits any segments. -/
theorem Lingering.of_no_write
    (hcall : ∀ op ∈ p.world.pending, op = .uploadOffset uploadId ∨ op = .uploadComplete uploadId
      ∨ ∃ offset data, op = .writeChunk uploadId offset data)
    (hnone : ∀ op ∈ p.world.pending, op.isWrite = false) :
  Lingering requests stages p segs
  := by
  constructor
  · apply hcall
  · rw [List.countP_eq_zero.mpr fun op hop => Bool.eq_false_iff.mp (hnone op hop)]
    apply Nat.zero_le
  · intro offset data hmem
    cases hnone _ hmem

/-- While a request is sending, no write is to be done. -/
theorem Lingering.not_isWrite (h : Lingering requests stages p segs) (hserved : p.pendingOf i ≠ none)
    (hsending : (stages i).Sending) :
  ∀ op ∈ p.world.pending, op.isWrite = false
  := by
  intro op hop
  rcases h.call op hop with rfl | rfl | ⟨offset, data, rfl⟩
  · rfl
  · rfl
  · apply absurd hsending ((h.write offset data hop).2.2 i hserved)

/-- After an answer no request is sending, if the one that is answered is not and the others were not. -/
theorem not_sending_resumed (hself : ¬ stage'.Sending)
    (hothers : ∀ j ≠ i, p.pendingOf j ≠ none → ¬ (stages j).Sending) (j : ℕ)
    (hpending : (p.resumed i op resume r world').pendingOf j ≠ none) :
  ¬ (Function.update stages i stage' j).Sending
  := by
  by_cases hij : j = i
  · subst hij
    rw [Function.update_self]
    apply hself
  · rw [Function.update_of_ne hij]
    rw [Pool.pendingOf_resumed_of_ne (Ne.symm hij)] at hpending
    apply hothers j hij hpending

/-- What is to be done was to be done before, or is a call that does not write. -/
theorem mem_pending_of_call {pending pending' : List PatchOp}
    (h : pending' = pending
      ∨ (op = .uploadOffset uploadId ∨ op = .uploadComplete uploadId) ∧ pending' = op :: pending)
    {op' : PatchOp} (hop' : op' ∈ pending') :
  op' ∈ pending ∨ op' = .uploadOffset uploadId ∨ op' = .uploadComplete uploadId
  := by
  rcases h with hsame | ⟨hop, hmore⟩
  · left
    rw [← hsame]
    apply hop'
  · rw [hmore, List.mem_cons] at hop'
    rcases hop' with rfl | hop'
    · right
      apply hop
    · left
      apply hop'

/-- What is to be done after a call that does not write, when no write was to be done. -/
theorem Lingering.of_call (h : Lingering requests stages p segs)
    (hnone : ∀ op ∈ p.world.pending, op.isWrite = false)
    (hpending : world'.pending = p.world.pending
      ∨ (op = .uploadOffset uploadId ∨ op = .uploadComplete uploadId)
        ∧ world'.pending = op :: p.world.pending) (stages' : ℕ → PatchStage) :
  Lingering requests stages' (p.resumed i op resume r world') segs'
  := by
  apply Lingering.of_no_write
  · intro op' hop'
    rcases mem_pending_of_call hpending hop' with hop' | rfl | rfl
    · apply h.call op' hop'
    · left
      rfl
    · right
      left
      rfl
  · intro op' hop'
    rcases mem_pending_of_call hpending hop' with hop' | rfl | rfl
    · apply hnone op' hop'
    · rfl
    · rfl

/-- A request whose chunk is still to be written sends nothing more. -/
theorem Lingering.of_write {request : PatchRequest} {before : List Segment} {start : ℕ}
    {sent data : List UInt8} (h : Lingering requests stages p segs)
    (hnone : ∀ op ∈ p.world.pending, op.isWrite = false) (hrequest : requests[i]? = some request)
    (hsegs : segs = before ++ [⟨i, start, sent⟩]) (hdata : sent ++ data <+: request.body)
    (hothers : ∀ j ≠ i, p.pendingOf j ≠ none → ¬ (stages j).Sending) (hself : ¬ stage'.Sending)
    (hmore : world'.pending
      = .writeChunk uploadId (Segment.concat segs).length data :: p.world.pending) :
  Lingering requests (Function.update stages i stage') (p.resumed i op resume r world') segs
  := by
  constructor
  · change ∀ op ∈ world'.pending, _
    rw [hmore]
    intro op hop
    rcases List.mem_cons.mp hop with rfl | hop
    · right
      right
      exact ⟨_, data, rfl⟩
    · apply h.call op hop
  · change world'.pending.countP _ ≤ 1
    rw [hmore, List.countP_cons,
      List.countP_eq_zero.mpr fun op hop => Bool.eq_false_iff.mp (hnone op hop)]
    split
    all_goals simp
  · change ∀ offset data, _ ∈ world'.pending → _
    rw [hmore]
    intro offset data' hop
    rcases List.mem_cons.mp hop with heq | hop
    · cases heq
      refine ⟨rfl, ⟨before, ⟨i, start, sent⟩, request, hsegs, hrequest, hdata⟩, ?_⟩
      intro j hpendingj
      apply not_sending_resumed hself hothers j hpendingj
    · cases hnone _ hop

/-- A request that does not start to send leaves what is to be done, or adds a call that does not
write. -/
theorem Lingering.resumed (h : Lingering requests stages p segs) (hserved : p.pendingOf i ≠ none)
    (hsending : stage'.Sending → (stages i).Sending)
    (hpending : world'.pending = p.world.pending
      ∨ (op = .uploadOffset uploadId ∨ op = .uploadComplete uploadId)
        ∧ world'.pending = op :: p.world.pending) :
  Lingering requests (Function.update stages i stage') (p.resumed i op resume r world') segs
  := by
  constructor
  · intro op' hop'
    rcases mem_pending_of_call hpending hop' with hbefore | hoffset | hcomplete
    · apply h.call op' hbefore
    · left
      apply hoffset
    · right
      left
      apply hcomplete
  · change world'.pending.countP _ ≤ 1
    rcases hpending with hsame | ⟨hop, hmore⟩
    · rw [hsame]
      apply h.once
    · rw [hmore, List.countP_cons_of_neg]
      · apply h.once
      · rcases hop with rfl | rfl
        all_goals simp [PatchOp.isWrite]
  · intro offset data hop'
    rcases mem_pending_of_call hpending hop' with hbefore | ⟨⟨⟩⟩ | ⟨⟨⟩⟩
    obtain ⟨hoffset, hrest, hnone⟩ := h.write offset data hbefore
    refine ⟨hoffset, hrest, ?_⟩
    apply not_sending_resumed
    · intro hstage
      apply hnone i hserved (hsending hstage)
    · intro j _ hpendingj
      apply hnone j hpendingj

/-- The invariant after an answer that accepts nothing and changes nothing at the worker. -/
theorem PatchInv.quiet {request : PatchRequest} (hrequest : requests[i]? = some request)
    (hassembled : AssembledOf handle requests p segs)
    (hstands : ∀ j, p.pendingOf j ≠ none → Stands uploadId segs j (stages j))
    (hworker : world'.worker = p.world.worker) (hnone : request.accepts ⟨op, r⟩ = none)
    (hself : Stands uploadId segs i stage')
    (hlingering : Lingering requests (Function.update stages i stage')
      (p.resumed i op resume r world') segs) :
  PatchInv handle requests (Function.update stages i stage') (p.resumed i op resume r world')
  := by
  have hassembled' : AssembledOf handle requests (p.resumed i op resume r world') segs := by
    obtain ⟨hconsecutive, hprefix, haccepted, hbytes⟩ := hassembled
    constructor
    · apply hconsecutive
    · apply hprefix
    · intro j start
      rw [acceptedAt_resumed_of_none hrequest hnone]
      apply haccepted
    · change HasBytes world'.worker _ _ _
      rw [hworker]
      apply hbytes
  apply PatchInv.intro hassembled' hself
  · intro j hj hpending
    apply hstands j hpending
  · apply hlingering

/-- What the stage of a request that sends nothing says does not depend on the segments. -/
theorem Stands.of_not_sending {stage : PatchStage} (h : Stands uploadId segs i stage)
    (hnot : ¬ stage.Sending) :
  Stands uploadId segs' i stage
  := by
  cases stage with
  | running upload start sent offset => exact absurd trivial hnot
  | _ => exact h

/-- When an accepted request is being served, no other is. -/
theorem Stands.of_ne {upload : Upload} {start : ℕ} {sent : List UInt8} {offset : ℤ} {j : ℕ}
    {stage : PatchStage} (hi : Stands uploadId segs i (.running upload start sent offset))
    (hij : j ≠ i) (hj : Stands uploadId segs j stage) :
  ¬ stage.Sending ∧ Stands uploadId segs' j stage
  := by
  cases stage with
  | running upload' start' sent' offset' =>
      obtain ⟨-, -, before, hbefore⟩ := hi
      obtain ⟨-, -, before', hbefore'⟩ := hj
      rw [hbefore] at hbefore'
      obtain ⟨-, hlast⟩ := List.append_inj' hbefore' rfl
      cases hlast
      apply absurd rfl hij
  | _ => exact ⟨id, hj⟩

/-- A request that asks for its row. -/
theorem PatchInv.getUpload {request : PatchRequest} (hrequest : requests[i]? = some request)
    (hinv : PatchInv handle requests stages p) (hserved : p.pendingOf i ≠ none) {choice : LateChoice}
    {r : PatchOp.Answer (.getUpload uploadId)}
    {resume : PatchOp.Answer (.getUpload uploadId) → Coroutine PatchOp PatchOp.Answer (Except Exc Response)}
    (hperform : p.world.perform (.getUpload uploadId) choice = some (r, world')) :
  PatchInv handle requests
    (Function.update stages i ((request.protocol uploadId).next .waiting (.getUpload uploadId) r))
    (p.resumed i (.getUpload uploadId) resume r world')
  := by
  obtain ⟨segs, hassembled, hstands, hlingering⟩ := hinv
  obtain ⟨hanswer, hpending⟩ := LateWorld.of_perform hperform
  have hworld : world'.toUploadWorld = p.world.toUploadWorld := by
    rcases of_outcome hanswer with ⟨h, -⟩ | ⟨h, -⟩
    all_goals apply h
  apply PatchInv.quiet hrequest hassembled hstands (congrArg UploadWorld.worker hworld) rfl
  · rcases r with e | _ | upload
    · trivial
    · trivial
    · apply p.world.row_id
      rcases of_outcome hanswer with ⟨-, e, h⟩ | ⟨-, h | ⟨e, h⟩⟩
      · cases h
      · rw [if_pos rfl] at h
        rw [← Except.ok.inj h]
        rfl
      · cases h
  · apply hlingering.resumed hserved
    · intro hsending
      rcases r with e | _ | upload
      all_goals cases hsending
    · left
      apply hpending.resolve_right
      rintro ⟨-, hcall, -⟩
      cases hcall

/-- What a request is told of the offset. -/
theorem HasBytes.of_uploadOffset {world world' : UploadWorld uploadId} {content : List UInt8}
    (hbytes : HasBytes world.worker uploadId handle content) {choice : PatchChoice}
    {r : PatchOp.Answer (.uploadOffset uploadId)}
    (hperform : world.perform (.uploadOffset uploadId) choice = some (r, world')) :
  world'.worker = world.worker
    ∧ ∀ size, r = .ok size →
        size = content.length ∧ world.worker.uploads uploadId = some handle
  := by
  have hcall := @AgentClient.execute_call _ _ _ _ (fun _ => none) UploadsHandlers.offset uploadId _
    (Worker.answer choice.refuses) rfl world.worker
  obtain ⟨hsame, hsize⟩ := @HasBytes.offset _ _ _ _ choice.refuses hbytes
  rw [UploadWorld.perform, UploadWorld.atWorker, hcall, hsame] at hperform
  rcases of_outcome hperform with ⟨hworld, e, hr⟩ | ⟨hworld, hr⟩
  · use congrArg UploadWorld.worker hworld
    rintro size rfl
    cases hr
  · use congrArg UploadWorld.worker hworld
    rintro size rfl
    rcases hr with hr | ⟨e, hr⟩
    · apply hsize size
      revert hr
      cases ((UploadsHandlers.offset uploadId).run.execute (Worker.answer choice.refuses)
        world.worker).1 with
      | error e =>
          rintro ⟨⟩
      | ok n =>
          rintro ⟨⟩
          rfl
    · cases hr

/-- What the completion of the upload leaves. -/
theorem HasBytes.of_uploadComplete {world world' : UploadWorld uploadId} {content : List UInt8}
    (hbytes : HasBytes world.worker uploadId handle content) {choice : PatchChoice}
    {r : PatchOp.Answer (.uploadComplete uploadId)}
    (hperform : world.perform (.uploadComplete uploadId) choice = some (r, world')) :
  HasBytes world'.worker uploadId handle content
  := by
  have hcall := @AgentClient.execute_call _ _ _ _ (fun _ => none) UploadsHandlers.complete uploadId _
    (Worker.answer choice.refuses) rfl world.worker
  rw [UploadWorld.perform, UploadWorld.atWorker, hcall] at hperform
  rcases of_outcome hperform with ⟨hworld, -⟩ | ⟨hworld, -⟩
  · rw [hworld]
    apply hbytes
  · rw [hworld]
    apply hbytes.complete

/-- A request that is accepted adds an empty segment. -/
theorem AssembledOf.accept {request : PatchRequest} (hrequest : requests[i]? = some request)
    (hassembled : AssembledOf handle requests p segs) {start : ℕ}
    (hstart : request.accepts ⟨op, r⟩ = some start)
    (hlength : start = (Segment.concat segs).length)
    (hlt : ∀ j < requests.length, ∀ start' ∈ acceptedAt requests p j, start' < start)
    (hworker : world'.worker = p.world.worker) :
  AssembledOf handle requests (p.resumed i op resume r world') (segs ++ [⟨i, start, []⟩])
  := by
  obtain ⟨hconsecutive, hprefix, haccepted, hbytes⟩ := hassembled
  constructor
  · apply Segment.Consecutive.snoc segs _ hconsecutive hlength
    intro seg hseg
    obtain ⟨request', hrequest', -⟩ := hprefix seg hseg
    obtain ⟨htask, -⟩ := List.getElem?_eq_some_iff.mp hrequest'
    apply hlt seg.task htask
    rw [haccepted]
    exact ⟨seg, hseg, rfl, rfl⟩
  · intro seg hseg
    rcases List.mem_append.mp hseg with hseg | hseg
    · apply hprefix seg hseg
    · cases List.mem_singleton.mp hseg
      use request, hrequest
      apply List.nil_prefix
  · intro j start'
    rw [mem_acceptedAt_resumed hrequest hstart, haccepted]
    simp only [List.mem_append, List.mem_singleton, or_and_right, exists_or, exists_eq_left]
  · change HasBytes world'.worker _ _ _
    rw [hworker, Segment.concat_append, Segment.concat_singleton, List.append_nil]
    apply hbytes

/-- The last segment may have other bytes of the body. -/
theorem AssembledOf.extend {before : List Segment} {seg : Segment}
    (hassembled : AssembledOf handle requests p (before ++ [seg])) {request : PatchRequest}
    (hrequest : requests[seg.task]? = some request) {bytes : List UInt8}
    (hbytes : bytes <+: request.body) :
  Segment.Consecutive (before ++ [{ seg with bytes := bytes }])
    ∧ (∀ seg' ∈ before ++ [{ seg with bytes := bytes }], ∃ request, requests[seg'.task]? = some request
      ∧ seg'.bytes <+: request.body)
    ∧ ∀ i start, start ∈ acceptedAt requests p i
      ↔ ∃ seg' ∈ before ++ [{ seg with bytes := bytes }], seg'.task = i ∧ seg'.start = start
  := by
  obtain ⟨hconsecutive, hprefixes, haccepted, -⟩ := hassembled
  refine ⟨?_, ?_, ?_⟩
  · rw [Segment.consecutive_snoc] at hconsecutive ⊢
    apply hconsecutive
  · intro seg' hseg'
    rcases List.mem_append.mp hseg' with hseg' | hseg'
    · apply hprefixes seg' (List.mem_append_left _ hseg')
    · cases List.mem_singleton.mp hseg'
      exact ⟨request, hrequest, hbytes⟩
  · intro i start
    rw [haccepted]
    simp only [List.mem_append, List.mem_singleton, or_and_right, exists_or, exists_eq_left]

/-- A request that asks for the offset. -/
theorem PatchInv.uploadOffset {request : PatchRequest} (hrequest : requests[i]? = some request)
    (hinv : PatchInv handle requests stages p) {choice : LateChoice} {upload : Upload}
    (hid : upload.id = uploadId) {r : PatchOp.Answer (.uploadOffset uploadId)}
    {resume : PatchOp.Answer (.uploadOffset uploadId) → Coroutine PatchOp PatchOp.Answer (Except Exc Response)}
    (hlength : p.tasks.length = requests.length)
    (hserved : p.pendingOf i = some (.uploadOffset uploadId))
    (hapart : ChecksApart handle requests p (.task i choice))
    (hperform : p.world.perform (.uploadOffset uploadId) choice = some (r, world')) :
  PatchInv handle requests
    (Function.update stages i
      ((request.protocol uploadId).next (.found upload) (.uploadOffset uploadId) r))
    (p.resumed i (.uploadOffset uploadId) resume r world')
  := by
  obtain ⟨segs, hassembled, hstands, hlingering⟩ := hinv
  obtain ⟨hanswer, hpending⟩ := LateWorld.of_perform hperform
  obtain ⟨hworker, hsize⟩ := hassembled.hasBytes.of_uploadOffset hanswer
  have hpending' : world'.pending = p.world.pending
      ∨ (PatchOp.uploadOffset uploadId = .uploadOffset uploadId
          ∨ PatchOp.uploadOffset uploadId = .uploadComplete uploadId)
        ∧ world'.pending = .uploadOffset uploadId :: p.world.pending :=
    hpending.imp_right fun h => ⟨Or.inl rfl, h.2.2⟩
  have hserved' : p.pendingOf i ≠ none := by
    rw [hserved]
    apply Option.some_ne_none
  have hquiet := @PatchInv.quiet uploadId handle requests stages p i (.uploadOffset uploadId) resume
    r world' segs (.found upload)
  cases r with
  | error e =>
      apply hquiet hrequest hassembled hstands hworker rfl hid
      apply hlingering.resumed hserved' (by rintro ⟨⟩) hpending'
  | ok size =>
      obtain ⟨hlen, hregistered⟩ := hsize size rfl
      by_cases hoffset : request.offset = some (size : ℤ)
      · have hstage : (request.protocol uploadId).next (.found upload) (.uploadOffset uploadId)
            (.ok size) = .running upload size [] size := if_pos hoffset
        have hpart := hassembled.hasBytes.partSize hregistered
        rw [← hlen] at hpart
        rw [ChecksApart, hpart, hrequest] at hapart
        obtain ⟨hnone, halone⟩ := hapart hserved hoffset
        have hassembled' := @AssembledOf.accept uploadId handle requests p i (.uploadOffset uploadId)
          resume (.ok size) world' segs request hrequest hassembled size (if_pos hoffset) hlen
          (fun j hj start hstart => (halone j hj start hstart).2) hworker
        rw [hstage]
        apply PatchInv.intro hassembled'
        · refine ⟨hid, ?_, segs, rfl⟩
          rw [Segment.concat_append, Segment.concat_singleton, List.append_nil, hlen]
        · intro j hj hpendingj
          have hstands' := hstands j hpendingj
          apply hstands'.of_not_sending
          intro hsending
          cases hstagej : stages j with
          | running upload' start' sent' offset' =>
              rw [hstagej] at hstands'
              obtain ⟨-, -, before, hbefore⟩ := hstands'
              have haccepted : start' ∈ acceptedAt requests p j := by
                rw [hassembled.accepted, hbefore]
                exact ⟨_, List.mem_append_right _ List.mem_cons_self, rfl, rfl⟩
              have hlt : j < requests.length := by
                by_contra hge
                apply hpendingj
                rw [Pool.pendingOf, List.getElem?_eq_none (by omega)]
                rfl
              apply absurd ((halone j hlt start' haccepted).1 hj) hpendingj
          | _ =>
              rw [hstagej] at hsending
              cases hsending
        · apply hlingering.of_call hnone hpending'
      · have hstage : (request.protocol uploadId).next (.found upload) (.uploadOffset uploadId)
            (.ok size) = .found upload := if_neg hoffset
        rw [hstage]
        apply hquiet hrequest hassembled hstands hworker (if_neg hoffset) hid
        apply hlingering.resumed hserved' (by rintro ⟨⟩) hpending'

/-- A step of the worker that keeps the bytes, by a request that goes on or is done with them. -/
theorem PatchInv.keep {request : PatchRequest} (hrequest : requests[i]? = some request)
    (hassembled : AssembledOf handle requests p segs)
    (hstands : ∀ j, p.pendingOf j ≠ none → Stands uploadId segs j (stages j))
    {upload : Upload} {start : ℕ} {sent : List UInt8} {offset : ℤ}
    (hstage : stages i = .running upload start sent offset) (hserved : p.pendingOf i ≠ none)
    (hnone : request.accepts ⟨op, r⟩ = none)
    (hsegs' : ∃ before bytes, segs = before ++ [⟨i, start, sent⟩]
      ∧ segs' = before ++ [⟨i, start, bytes⟩] ∧ bytes <+: request.body)
    (hbytes : HasBytes world'.worker uploadId handle (Segment.concat segs'))
    (hself : Stands uploadId segs' i stage')
    (hlingering : Lingering requests (Function.update stages i stage')
      (p.resumed i op resume r world') segs') :
  PatchInv handle requests (Function.update stages i stage') (p.resumed i op resume r world')
  := by
  obtain ⟨before, bytes, rfl, rfl, hprefix⟩ := hsegs'
  have hstandsi := hstands i hserved
  rw [hstage] at hstandsi
  have hassembled' := @AssembledOf.extend uploadId handle requests p before ⟨i, start, sent⟩ hassembled
    request hrequest bytes hprefix
  obtain ⟨hconsecutive, hprefixes, haccepted⟩ := hassembled'
  apply PatchInv.intro ⟨hconsecutive, hprefixes, ?_, hbytes⟩ hself
  · intro j hj hpendingj
    apply (hstandsi.of_ne hj (hstands j hpendingj)).2
  · apply hlingering
  · intro j start'
    rw [acceptedAt_resumed_of_none hrequest hnone]
    apply haccepted

/-- A request that has a chunk written. -/
theorem PatchInv.writeChunk {request : PatchRequest} (hrequest : requests[i]? = some request)
    (hinv : PatchInv handle requests stages p) {choice : LateChoice} {upload : Upload} {start : ℕ}
    {sent data : List UInt8} {offset : ℤ} (hstage : stages i = .running upload start sent offset)
    (hdata : sent ++ data <+: request.body) (hserved : p.pendingOf i ≠ none)
    {r : PatchOp.Answer (.writeChunk upload.id offset data)}
    {resume : PatchOp.Answer (.writeChunk upload.id offset data) →
      Coroutine PatchOp PatchOp.Answer (Except Exc Response)}
    (hperform : p.world.perform (.writeChunk upload.id offset data) choice = some (r, world')) :
  PatchInv handle requests
    (Function.update stages i
      ((request.protocol uploadId).next (stages i) (.writeChunk upload.id offset data) r))
    (p.resumed i (.writeChunk upload.id offset data) resume r world')
  := by
  obtain ⟨segs, hassembled, hstands, hlingering⟩ := hinv
  obtain ⟨hanswer, hpending⟩ := LateWorld.of_perform hperform
  have hnone := hlingering.not_isWrite hserved (by rw [hstage]; trivial)
  have hstandsi := hstands i hserved
  rw [hstage] at hstandsi ⊢
  obtain ⟨hid, hoffset, before, hsegs⟩ := hstandsi
  subst hid
  subst hoffset
  have hothers : ∀ j ≠ i, p.pendingOf j ≠ none → ¬ (stages j).Sending := by
    intro j hj hpendingj
    have hstandsi := hstands i hserved
    rw [hstage] at hstandsi
    apply (@Stands.of_ne _ _ segs segs _ _ _ _ _ _ hstandsi hj (hstands j hpendingj)).1
  rcases PatchChoice.outcome_eq_some hanswer with ⟨hreached, hworld, hr⟩ | ⟨-, hworld, e, hr⟩
  · obtain ⟨written, hwritten, hbytes, -, hok⟩ :=
      @HasBytes.uploadChunkAt _ _ _ _ choice.refuses hassembled.hasBytes (Segment.concat segs).length data
    rw [writeAt_length] at hbytes
    have hsame : world'.pending = p.world.pending := by
      apply hpending.resolve_right
      rintro ⟨hreached', -⟩
      cases hreached.symm.trans hreached'
    have hbody : sent ++ written <+: request.body :=
      ((List.prefix_append_right_inj sent).mpr hwritten).trans hdata
    have hconcat : Segment.concat (before ++ [⟨i, start, sent ++ written⟩])
        = Segment.concat segs ++ written := by
      rw [hsegs]
      simp
    have hbytes' : HasBytes world'.worker upload.id handle
        (Segment.concat (before ++ [⟨i, start, sent ++ written⟩])) := by
      rw [hconcat, congrArg UploadWorld.worker hworld]
      apply hbytes
    apply PatchInv.keep hrequest hassembled hstands hstage hserved rfl
      ⟨before, sent ++ written, hsegs, rfl, hbody⟩ hbytes'
    · cases r with
      | error e => trivial
      | ok newOffset =>
          rcases hr with ⟨-, hr⟩ | ⟨e, -, hr⟩
          · obtain ⟨rfl, rfl⟩ := hok newOffset hr.symm
            refine ⟨rfl, ?_, before, rfl⟩
            rw [hconcat, List.length_append]
          · cases hr
    · apply hlingering.of_call hnone (.inl hsame)
  · cases hr
    apply PatchInv.quiet hrequest hassembled hstands (congrArg UploadWorld.worker hworld) rfl
    · trivial
    · rcases hpending with hsame | ⟨-, -, hmore⟩
      · apply hlingering.resumed hserved (by rintro ⟨⟩) (Or.inl hsame)
      · apply hlingering.of_write hnone hrequest hsegs hdata hothers id hmore

/-- A request that completes the upload. -/
theorem PatchInv.uploadComplete {request : PatchRequest} (hrequest : requests[i]? = some request)
    (hinv : PatchInv handle requests stages p) {choice : LateChoice} {upload : Upload} {start : ℕ}
    {sent : List UInt8} {offset : ℤ} (hstage : stages i = .running upload start sent offset)
    (hserved : p.pendingOf i ≠ none) {r : PatchOp.Answer (.uploadComplete upload.id)}
    {resume : PatchOp.Answer (.uploadComplete upload.id) →
      Coroutine PatchOp PatchOp.Answer (Except Exc Response)}
    (hperform : p.world.perform (.uploadComplete upload.id) choice = some (r, world')) :
  PatchInv handle requests
    (Function.update stages i
      ((request.protocol uploadId).next (stages i) (.uploadComplete upload.id) r))
    (p.resumed i (.uploadComplete upload.id) resume r world')
  := by
  obtain ⟨segs, hassembled, hstands, hlingering⟩ := hinv
  obtain ⟨hanswer, hpending⟩ := LateWorld.of_perform hperform
  have hstandsi := hstands i hserved
  rw [hstage] at hstandsi ⊢
  obtain ⟨hid, -, before, hsegs⟩ := hstandsi
  subst hid
  have hbytes : HasBytes world'.worker upload.id handle (Segment.concat segs) :=
    hassembled.hasBytes.of_uploadComplete hanswer
  have hsent : sent <+: request.body := by
    obtain ⟨request', hrequest', hprefix⟩ := hassembled.isPrefix ⟨i, start, sent⟩ (by simp [hsegs])
    cases hrequest.symm.trans hrequest'
    apply hprefix
  apply PatchInv.keep hrequest hassembled hstands hstage hserved rfl ⟨before, sent, hsegs, hsegs, hsent⟩
    hbytes
  · trivial
  · apply hlingering.resumed hserved (by rintro ⟨⟩)
    apply hpending.imp_right
    intro h
    exact ⟨Or.inr rfl, h.2.2⟩

/-- The step lemma of `PatchInv` for the requests. -/
theorem PatchInv.step {request : PatchRequest} (hrequest : requests[i]? = some request)
    (hinv : PatchInv handle requests stages p) {choice : LateChoice}
    (hlength : p.tasks.length = requests.length) (hpending : p.pendingOf i = some op)
    (hallowed : (request.protocol uploadId).allowed (stages i) op)
    (hapart : ChecksApart handle requests p (.task i choice))
    (hperform : p.world.perform op choice = some (r, world')) :
  PatchInv handle requests
    (Function.update stages i ((request.protocol uploadId).next (stages i) op r))
    (p.resumed i op resume r world')
  := by
  have hserved : p.pendingOf i ≠ none := by
    rw [hpending]
    simp
  have hinv' := hinv
  obtain ⟨segs, hassembled, hstands, hlingering⟩ := hinv'
  obtain ⟨hanswer, hpending'⟩ := LateWorld.of_perform hperform
  have hstandsi := hstands i hserved
  -- what is no call to the worker leaves what is to be done
  have hsame : op.isCall = false → world'.pending = p.world.pending := by
    intro hcall
    apply hpending'.resolve_right
    rintro ⟨-, hcall', -⟩
    cases hcall.symm.trans hcall'
  cases hstage : stages i with
  | waiting =>
      rw [hstage] at hallowed
      cases hallowed
      apply hinv.getUpload hrequest hserved hperform
  | found upload =>
      rw [hstage] at hallowed hstandsi
      cases hallowed
      apply hinv.uploadOffset hrequest hstandsi hlength hpending hapart hperform
  | running upload start sent offset =>
      rw [hstage] at hallowed hstandsi
      have hsending : (stages i).Sending := by
        rw [hstage]
        trivial
      rcases hallowed with rfl | ⟨newOffset, rfl⟩ | rfl | ⟨data, rfl, hdata⟩
      · have hworld : world'.toUploadWorld = p.world.toUploadWorld := by
          rcases of_outcome hanswer with ⟨h, -⟩ | ⟨h, -⟩
          all_goals apply h
        apply PatchInv.quiet hrequest hassembled hstands (congrArg UploadWorld.worker hworld) rfl
        · cases r with
          | error e => trivial
          | ok _ => apply hstandsi
        · apply hlingering.resumed hserved (fun _ => hsending) (Or.inl (hsame rfl))
      · have hworld : world'.toUploadWorld = p.world.toUploadWorld := by
          rcases of_outcome hanswer with ⟨h, -⟩ | ⟨h, -⟩
          all_goals apply h
        apply PatchInv.quiet hrequest hassembled hstands (congrArg UploadWorld.worker hworld) rfl
        · cases r with
          | error e => trivial
          | ok _ => apply hstandsi
        · apply hlingering.resumed hserved (fun _ => hsending) (Or.inl (hsame rfl))
      · rw [← hstage]
        apply hinv.uploadComplete hrequest hstage hserved hperform
      · rw [← hstage]
        apply hinv.writeChunk hrequest hstage hdata hserved hperform
  | closed start =>
      rw [hstage] at hallowed
      obtain ⟨id, rfl⟩ := hallowed
      have hworker : world'.worker = p.world.worker := by
        rcases of_outcome hanswer with ⟨h, -⟩ | ⟨h, -⟩
        all_goals
          rw [h]
      apply PatchInv.quiet hrequest hassembled hstands hworker rfl
      · trivial
      · apply hlingering.resumed hserved (by rintro ⟨⟩) (Or.inl (hsame rfl))

/-- What is still to be done when a call is no more. -/
theorem Lingering.erase (h : Lingering requests stages p segs) (op : PatchOp)
    {world' : LateWorld uploadId} (hpending : world'.pending = p.world.pending.erase op) :
  Lingering requests stages { p with world := world' } segs
  := by
  have hmem : ∀ op' ∈ world'.pending, op' ∈ p.world.pending := by
    intro op' hop'
    rw [hpending] at hop'
    apply List.mem_of_mem_erase hop'
  constructor
  · intro op' hop'
    apply h.call op' (hmem op' hop')
  · change world'.pending.countP _ ≤ 1
    rw [hpending]
    apply (List.erase_sublist.countP_le).trans h.once
  · intro offset data hop'
    apply h.write offset data (hmem _ hop')

/-- The step lemma of `PatchInv` for the calls that are done late. -/
theorem PatchInv.environment (hinv : PatchInv handle requests stages p) {e : LateEvent}
    (hworld : p.world.environment e = some world') :
  PatchInv handle requests stages { p with world := world' }
  := by
  obtain ⟨segs, hassembled, hstands, hlingering⟩ := hinv
  have hsame : world'.worker = p.world.worker →
      AssembledOf handle requests { p with world := world' } segs := by
    intro hworker
    obtain ⟨hconsecutive, hprefix, haccepted, hbytes⟩ := hassembled
    refine ⟨hconsecutive, hprefix, haccepted, ?_⟩
    change HasBytes world'.worker _ _ _
    rw [hworker]
    apply hbytes
  cases e with
  | lost op =>
      obtain ⟨-, hworld⟩ := Option.ite_none_right_eq_some.mp hworld
      cases hworld
      exact ⟨segs, hsame rfl, hstands, hlingering.erase op rfl⟩
  | lands op refuses =>
      obtain ⟨hop, hworld⟩ := Option.ite_none_right_eq_some.mp hworld
      obtain ⟨⟨r, now⟩, hanswer, rfl⟩ := Option.map_eq_some_iff.mp hworld
      dsimp only at hsame ⊢
      rcases hlingering.call op hop with rfl | rfl | ⟨offset, data, rfl⟩
      · obtain ⟨hworker, -⟩ := hassembled.hasBytes.of_uploadOffset hanswer
        exact ⟨segs, hsame hworker, hstands, hlingering.erase _ rfl⟩
      · have hbytes := hassembled.hasBytes.of_uploadComplete hanswer
        obtain ⟨hconsecutive, hprefix, haccepted, -⟩ := hassembled
        exact ⟨segs, ⟨hconsecutive, hprefix, haccepted, hbytes⟩, hstands, hlingering.erase _ rfl⟩
      · obtain ⟨rfl, ⟨before, seg, request, rfl, hrequest, hdata⟩, hnone⟩ :=
          hlingering.write offset data hop
        have hworker : now.worker = ((Fileworker.uploadChunk uploadId
            (Segment.concat (before ++ [seg])).length data).run.execute (Worker.answer refuses)
              p.world.worker).2 := by
          cases hanswer
          rfl
        obtain ⟨written, hwritten, hbytes, -, -⟩ := @HasBytes.uploadChunkAt _ _ _ _ refuses
          hassembled.hasBytes (Segment.concat (before ++ [seg])).length data
        rw [writeAt_length, ← hworker] at hbytes
        have hbody : seg.bytes ++ written <+: request.body :=
          ((List.prefix_append_right_inj seg.bytes).mpr hwritten).trans hdata
        obtain ⟨hconsecutive, hprefixes, haccepted⟩ := hassembled.extend hrequest hbody
        have hconcat : Segment.concat (before ++ [{ seg with bytes := seg.bytes ++ written }])
            = Segment.concat (before ++ [seg]) ++ written := by
          simp
        rw [← hconcat] at hbytes
        use before ++ [{ seg with bytes := seg.bytes ++ written }]
        refine ⟨⟨hconsecutive, hprefixes, haccepted, hbytes⟩, ?_, ?_⟩
        · intro j hpendingj
          apply (hstands j hpendingj).of_not_sending (hnone j hpendingj)
        · have herase := @Lingering.erase _ _ _ _ _ hlingering
            (.writeChunk uploadId (Segment.concat (before ++ [seg])).length data)
            ⟨now, p.world.pending.erase (.writeChunk uploadId
              (Segment.concat (before ++ [seg])).length data)⟩ rfl
          apply Lingering.of_no_write herase.call
          intro op' hop'
          -- no other write is to be done
          have hcount : (p.world.pending.erase (.writeChunk uploadId
              (Segment.concat (before ++ [seg])).length data)).countP PatchOp.isWrite = 0 := by
            have honce := hlingering.once
            rw [(List.perm_cons_erase hop).countP_eq, List.countP_cons_of_pos rfl] at honce
            omega
          apply Bool.eq_false_iff.mpr (List.countP_eq_zero.mp hcount op' hop')

end

/-! ### What an upload is at every moment -/

/-- The steps of PATCH requests in which every call reaches the worker and nothing fails. -/
def lateOrder (order : List ℕ) : List (Pool.Label LateChoice LateEvent) :=
  order.map fun i => .task i ⟨⟨fun _ => none, true, none⟩, false⟩

instance (handle : UploadHandle) (requests : List PatchRequest)
    (p : Pool PatchOp PatchOp.Answer (LateWorld uploadId) (Except Exc Response))
    (l : Pool.Label LateChoice LateEvent) :
    Decidable (ChecksApart handle requests p l) :=
  match l with
  | .task i _ => inferInstanceAs (Decidable (p.pendingOf i = some (.uploadOffset uploadId) →
      requests[i]?.bind PatchRequest.offset = some (p.world.worker.partSize handle : ℤ) →
      (∀ op ∈ p.world.pending, op.isWrite = false) ∧
      ∀ j < requests.length, ∀ start ∈ acceptedAt requests p j,
        (j ≠ i → p.pendingOf j = none) ∧ start < p.world.worker.partSize handle))
  | .environment _ => isTrue trivial

/-- When no PATCH is accepted while another that was accepted is served, before it has written, or while a
write of it that failed is still to be done, then at most one is accepted at each offset, and the bytes of
the upload, which are those of its part file and then of the published file, are at every moment made of a
first part of the body of each accepted request, in the order of the offsets. -/
theorem patches_assembled {w : Worker} {refuses : FileOp → Option Refusal} {destPath : String}
    {requests : List PatchRequest} {world : UploadWorld uploadId}
    {l : List (Pool.Label LateChoice LateEvent)}
    {p : Pool PatchOp PatchOp.Answer (LateWorld uploadId) (Except Exc Response)}
    (hfresh : w.files (partPathFor destPath uploadId) = none)
    (hbegin : (UploadsHandlers.begin destPath uploadId).run.execute (Worker.answer refuses) w
      = (.ok (), world.worker))
    (hapart : (Pool.machine (lateEffects uploadId)).Along
      (ChecksApart ⟨destPath, partPathFor destPath uploadId⟩ requests)
      (PatchRequest.latePool requests world) l)
    (hrun : (Pool.machine (lateEffects uploadId)).run (PatchRequest.latePool requests world) l = some p) :
  (∀ i j start, start ∈ acceptedAt requests p i → start ∈ acceptedAt requests p j → i = j)
    ∧ ∃ segs, AssembledOf ⟨destPath, partPathFor destPath uploadId⟩ requests p segs
  := by
  let P := fun i => (requests.getD i ⟨0, none, none, []⟩).protocol uploadId
  have hrequest : ∀ i < requests.length, requests[i]? = some (requests.getD i ⟨0, none, none, []⟩) := by
    intro i hi
    simp [hi]
  have hobeying : (PatchRequest.latePool requests world).Obeying P (fun _ _ _ => True)
      fun _ => .waiting := by
    intro i c hc
    obtain ⟨request, hi, rfl⟩ := Option.map_eq_some_iff.mp (List.getElem?_map ▸ hc)
    have hP : P i = request.protocol uploadId := by
      simp only [P, List.getD_eq_getElem?_getD, hi, Option.getD_some]
    rw [hP]
    apply PatchRequest.obeys_patchUpload
  have hstart : PatchInv ⟨destPath, partPathFor destPath uploadId⟩ requests (fun _ => .waiting)
      (PatchRequest.latePool requests world) := by
    use []
    constructor
    · constructor
      · apply Segment.Consecutive.nil
      · simp
      · intro i start
        rw [acceptedAt, PatchRequest.latePool, Pool.historyOf_start]
        split
        all_goals simp
      · apply HasBytes.begin hfresh hbegin
    · constructor
      · intro i _
        trivial
      · apply Lingering.of_no_write
        · rintro op ⟨⟩
        · rintro op ⟨⟩
  obtain ⟨-, stages, -, segs, hassembled, -⟩ := Pool.run_obeys
    (I := PatchInv ⟨destPath, partPathFor destPath uploadId⟩ requests) hobeying hstart
    (by
      intro p stages i choice op resume r world' hlength _ hinv hD hi hallowed hperform
      rw [List.length_map] at hlength
      obtain ⟨hlt, -⟩ := List.getElem?_eq_some_iff.mp hi
      apply hinv.step (hrequest i (hlength ▸ hlt)) hlength (Pool.pendingOf_eq hi) hallowed hD hperform)
    (fun p stages e world' hinv _ hworld => hinv.environment hworld) hapart hrun
  constructor
  · intro i j start hi hj
    obtain ⟨seg, hseg, rfl, hstarti⟩ := (hassembled.accepted i start).mp hi
    obtain ⟨seg', hseg', rfl, hstartj⟩ := (hassembled.accepted j start).mp hj
    rw [hassembled.consecutive.eq_of_start hseg hseg' (hstarti.trans hstartj.symm)]
  · use segs

end

/-- A PATCH of an upload of two bytes by the user who began it. -/
def bytePatch (offset : String) (body : List UInt8) : PatchRequest :=
  { uid := 1001
    contentType := some "application/offset+octet-stream"
    uploadOffset := some offset
    pieces := [body] }

/-- The worker of a user who began an upload, and its row. -/
def begunWorld (uid : ℕ) (w : Worker) (destPath : String) (uploadId : String) (size : ℤ) :
    UploadWorld uploadId :=
  { worker :=
      ((UploadsHandlers.begin destPath uploadId).run.execute (Worker.answer fun _ => none) w).2
    row := some ⟨uploadId, uid, size⟩
    row_id := by simp }

theorem begunWorld_media (size : ℤ) :
  (UploadsHandlers.begin "/volume1/media/a" mediaId.text).run.execute (Worker.answer fun _ => none)
      mediaWorker
    = (.ok (), (begunWorld 1001 mediaWorker "/volume1/media/a" mediaId.text size).worker)
  := by
  apply Prod.ext
  · rfl
  · rfl

/-- Two requests one after the other are put together. -/
theorem patches_assembled_media :
  ∃ p, (Pool.machine (lateEffects mediaId.text)).run
      (PatchRequest.latePool [bytePatch "0" [104], bytePatch "1" [105]]
        (begunWorld 1001 mediaWorker "/volume1/media/a" mediaId.text 2))
      (lateOrder [0, 0, 0, 0, 0, 0, 1, 1, 1, 1, 1, 1, 1, 1]) = some p
    ∧ ∃ segs, AssembledOf ⟨"/volume1/media/a", partPathFor "/volume1/media/a" mediaId.text⟩
        [bytePatch "0" [104], bytePatch "1" [105]] p segs
  := by
  have hdone : ((Pool.machine (lateEffects mediaId.text)).run
      (PatchRequest.latePool [bytePatch "0" [104], bytePatch "1" [105]]
        (begunWorld 1001 mediaWorker "/volume1/media/a" mediaId.text 2))
      (lateOrder [0, 0, 0, 0, 0, 0, 1, 1, 1, 1, 1, 1, 1, 1])).map
        (fun p => p.tasks.map Coroutine.result)
      = some [some (.ok ⟨204, tusHeaders [("Upload-Offset", "1")]⟩),
          some (.ok ⟨204, tusHeaders [("Upload-Offset", "2")]⟩)] := by
    rfl
  obtain ⟨p, hrun, -⟩ := Option.map_eq_some_iff.mp hdone
  use p, hrun
  apply (patches_assembled rfl (begunWorld_media 2) (by decide +kernel) hrun).2

/-- Two requests that are told the size before either has written are both accepted at it. -/
theorem patches_accepted_twice :
  ¬ ∀ (uploadId : String) (w : Worker) (refuses : FileOp → Option Refusal) (destPath : String)
      (requests : List PatchRequest) (world : UploadWorld uploadId)
      (l : List (Pool.Label LateChoice LateEvent))
      (p : Pool PatchOp PatchOp.Answer (LateWorld uploadId) (Except Exc Response)),
      w.files (partPathFor destPath uploadId) = none →
      (UploadsHandlers.begin destPath uploadId).run.execute (Worker.answer refuses) w
        = (.ok (), world.worker) →
      (Pool.machine (lateEffects uploadId)).run (PatchRequest.latePool requests world) l = some p →
      (∀ i j start, start ∈ acceptedAt requests p i → start ∈ acceptedAt requests p j → i = j)
        ∧ ∃ segs, AssembledOf ⟨destPath, partPathFor destPath uploadId⟩ requests p segs
  := by
  intro hall
  have htwice : ((Pool.machine (lateEffects mediaId.text)).run
      (PatchRequest.latePool [bytePatch "0" [104, 105], bytePatch "0" [106]]
        (begunWorld 1001 mediaWorker "/volume1/media/a" mediaId.text 2))
      (lateOrder [0, 1, 0, 1])).map
        (fun p => [0, 1].map (acceptedAt [bytePatch "0" [104, 105], bytePatch "0" [106]] p))
      = some [[0], [0]] := by
    rfl
  obtain ⟨p, hrun, hp⟩ := Option.map_eq_some_iff.mp htwice
  obtain ⟨hfirst, hsecond⟩ := List.cons.inj hp
  obtain ⟨honce, -⟩ := hall _ _ _ "/volume1/media/a" _ _ _ p rfl (begunWorld_media 2) hrun
  have hsame := honce 0 1 0 (hfirst ▸ List.mem_cons_self)
    ((List.cons.inj hsecond).1 ▸ List.mem_cons_self)
  cases hsame
