import NasOs.Uploads.Worker

/-!
# The permissions of an uploaded file

A file uploaded to a directory whose permissions were set by `replace_all` starts with the
entries of the directory's default list, and keeps them through the writes of its chunks and the
rename.  The mode it is created with has no permissions for the group, and so leaves it a mask that
takes everything from the named entries: only the user who uploads it can use it.
-/

/-- What `uuid.uuid4().hex` gives. -/
structure UuidHex where
  text : String
  hex : ∀ c ∈ text.toList, c.isDigit ∨ c ∈ ['a', 'b', 'c', 'd', 'e', 'f']

/-- What a file grants to a principal: to its owner the entry of the owner, and to every other the
named entry, as far as the mask lets it. -/
def FileNode.granted (node : FileNode) (principal : Principal) : Perm :=
  if principal = .user node.owner then node.acl.access.userObj
  else (node.acl.access.effective principal).getD Perm.none

/-- The permissions that a level promises. -/
def AclLevel.promised : AclLevel → Perm
  | .rw => ⟨true, true, false⟩
  | .ro => ⟨true, false, false⟩

/-- Write chunks at offsets, each of which may fail. -/
def uploadChunks (uploadId : String) : List (ℤ × List UInt8) → FileM Unit
  | [] => pure ()
  | chunk :: chunks => do
      let _ ← ExceptT.lift (Fileworker.uploadChunk uploadId chunk.1 chunk.2).run
      uploadChunks uploadId chunks

/-- An upload: it is begun, chunks are written, and it is completed. -/
def uploadFile (destPath uploadId : String) (chunks : List (ℤ × List UInt8)) : FileM Unit := do
  UploadsHandlers.begin destPath uploadId
  uploadChunks uploadId chunks
  UploadsHandlers.complete uploadId

/-- The name of a part file has no separator. -/
theorem slash_notMem_partName (id : UuidHex) :
  '/' ∉ (".nasos-upload-" ++ id.text ++ ".part").toList
  := by
  have hid : '/' ∉ id.text.toList := by
    intro h
    have hslash := id.hex _ h
    revert hslash
    decide
  simp [String.toList_append, hid]

/-- A part file is in the directory of its destination. -/
theorem dirname_partPathFor (destPath : String) (id : UuidHex) :
  Path.dirname (partPathFor destPath id.text) = Path.dirname destPath
  := by
  apply Path.dirname_join_dirname
  apply slash_notMem_partName

/-- Part files of different uploads are at different paths. -/
theorem partPathFor_inj {destPath destPath' : String} {id id' : UuidHex}
    (h : partPathFor destPath id.text = partPathFor destPath' id'.text) :
  id.text = id'.text
  := by
  have hname := congrArg Path.basename h
  rw [partPathFor, partPathFor, Path.basename_join _ (slash_notMem_partName id),
    Path.basename_join _ (slash_notMem_partName id'), ← String.toList_inj] at hname
  simp only [String.toList_append, List.append_assoc, List.append_cancel_left_eq,
    List.append_cancel_right_eq] at hname
  apply String.toList_inj.mp hname

/-- The part file of an upload is there, with an owner and lists. -/
structure PartFile (w : Worker) (uploadId : String) (handle : UploadHandle) (owner : ℕ)
    (acl : FileAcl) : Prop where
  registered : w.uploads uploadId = some handle
  exists_node : ∃ content, w.files handle.partPath = some ⟨owner, acl, content⟩

section

variable {refuses : FileOp → Option Refusal} {w w' : Worker} {destPath : String} {id : UuidHex}

/-- An upload that begins leaves a part file with the lists that its directory hands on. -/
theorem partFile_of_begin {directory : FileNode}
    (hdirectory : w.files (Path.dirname destPath) = some directory)
    (hfresh : w.files (partPathFor destPath id.text) = none)
    (h : (UploadsHandlers.begin destPath id.text).run.execute (Worker.answer refuses) w
      = (.ok (), w')) :
  PartFile w' id.text ⟨destPath, partPathFor destPath id.text⟩ w.uid
    (FileAcl.create directory.acl 0o600)
  := by
  rw [← dirname_partPathFor destPath id] at hdirectory
  simp only [UploadsHandlers.begin, Coroutine.execute_exceptT_bind_eq_ok, Async.execute_ask,
    Async.execute_raiseIf_eq_ok, execute_raiseOs_eq_ok, Worker.answer_exists,
    Worker.answer_putHandle, Prod.mk.injEq] at h
  obtain ⟨found, _, ⟨_, rfl⟩, _, _, ⟨_, rfl⟩, created, _, ⟨hcreated, rfl⟩, _, _, ⟨hok, rfl⟩, _, rfl⟩ := h
  have hcreate : w.answer refuses (.create (partPathFor destPath id.text) 0o600)
      = (.ok (), (w.answer refuses (.create (partPathFor destPath id.text) 0o600)).2) := by
    rw [← hok, ← Except.ok.inj hcreated]
  have hw := Worker.of_answer_create hdirectory hfresh hcreate
  constructor
  · simp
  · use []
    rw [hw]
    simp [Worker.setFile]

/-- Writing to the part file keeps its owner and lists. -/
theorem PartFile.write {handle : UploadHandle} {owner : ℕ} {acl : FileAcl}
    (h : PartFile w id.text handle owner acl) (offset : ℤ) (data : List UInt8) :
  PartFile (w.answer refuses (.write handle.partPath offset data)).2 id.text handle owner acl
  := by
  obtain ⟨hregistered, content, hnode⟩ := h
  rcases Worker.answer_write handle.partPath offset data with hw | ⟨node, content', hnode', hw⟩
  · rw [hw]
    exact ⟨hregistered, content, hnode⟩
  · rw [hw]
    cases hnode.symm.trans hnode'
    constructor
    · apply hregistered
    · use content'
      simp [Worker.setFile]

/-- Writing a chunk keeps the part file. -/
theorem PartFile.uploadChunk {handle : UploadHandle} {owner : ℕ} {acl : FileAcl}
    (h : PartFile w id.text handle owner acl) (offset : ℤ) (data : List UInt8) :
  PartFile ((Fileworker.uploadChunk id.text offset data).run.execute (Worker.answer refuses) w).2
    id.text handle owner acl
  := by
  have hrun : ((Fileworker.uploadChunk id.text offset data).run.execute (Worker.answer refuses) w).2
      = (w.answer refuses (.write handle.partPath offset data)).2 := by
    rw [Fileworker.uploadChunk, ExceptT.run_bind, Coroutine.execute_bind, Async.execute_ask,
      Worker.answer_getHandle]
    simp only [h.registered]
    change (Coroutine.execute _ (.await (FileOp.write handle.partPath offset data) _) w).2 = _
    rw [Coroutine.execute_await]
    generalize w.answer refuses (.write handle.partPath offset data) = answer
    rcases answer with ⟨_ | _, w'⟩
    all_goals rfl
  rw [hrun]
  apply h.write

/-- Writing chunks keeps the part file. -/
theorem PartFile.chunks {handle : UploadHandle} {owner : ℕ} {acl : FileAcl}
    {chunks : List (ℤ × List UInt8)} (h : PartFile w id.text handle owner acl) {u : Unit}
    (hrun : (uploadChunks id.text chunks).run.execute (Worker.answer refuses) w
      = (.ok u, w')) :
  PartFile w' id.text handle owner acl
  := by
  induction chunks generalizing w with
  | nil =>
      cases hrun
      apply h
  | cons chunk chunks ih =>
      obtain ⟨_, w₁, hchunk, hrest⟩ := Coroutine.execute_exceptT_bind_eq_ok.mp hrun
      apply ih _ hrest
      rw [Async.execute_lift, Prod.mk.injEq] at hchunk
      rw [← hchunk.2]
      apply h.uploadChunk

/-- An upload that completes puts its part file at the destination. -/
theorem PartFile.complete {handle : UploadHandle} {owner : ℕ} {acl : FileAcl}
    (hpart : PartFile w id.text handle owner acl)
    (h : (UploadsHandlers.complete id.text).run.execute (Worker.answer refuses) w = (.ok (), w')) :
  ∃ content, w'.files handle.destPath = some ⟨owner, acl, content⟩
  := by
  obtain ⟨hregistered, content, hnode⟩ := hpart
  obtain ⟨handle', w₁, hhandle, hrest⟩ := Coroutine.execute_exceptT_bind_eq_ok.mp h
  obtain ⟨rfl, rfl⟩ : handle' = handle ∧ w₁ = w := by
    obtain ⟨found, w₂, hfound, hraise⟩ := Coroutine.execute_exceptT_bind_eq_ok.mp hhandle
    rw [Async.execute_ask, Worker.answer_getHandle, hregistered] at hfound
    cases hfound
    cases hraise
    exact ⟨rfl, rfl⟩
  simp only [Coroutine.execute_exceptT_bind_eq_ok, Async.execute_ask, execute_raiseOs_eq_ok,
    Worker.answer_popHandle, Prod.mk.injEq] at hrest
  obtain ⟨renamed, _, ⟨hrenamed, rfl⟩, _, _, ⟨hok, rfl⟩, _, _, ⟨_, rfl⟩, hpure⟩ := hrest
  cases hpure
  have hrename : w₁.answer refuses (.rename handle'.partPath handle'.destPath)
      = (.ok (), (w₁.answer refuses (.rename handle'.partPath handle'.destPath)).2) := by
    rw [← hok, ← Except.ok.inj hrenamed]
  use content
  apply Worker.of_answer_rename hnode hrename

/-- A file that was uploaded has the lists that its directory hands on to a file of mode `0600`, and
belongs to the user of the worker. -/
theorem of_uploadFile {directory : FileNode} {chunks : List (ℤ × List UInt8)}
    (hdirectory : w.files (Path.dirname destPath) = some directory)
    (hfresh : w.files (partPathFor destPath id.text) = none)
    (h : (uploadFile destPath id.text chunks).run.execute (Worker.answer refuses) w
      = (.ok (), w')) :
  ∃ content, w'.files destPath = some ⟨w.uid, FileAcl.create directory.acl 0o600, content⟩
  := by
  obtain ⟨_, w₁, hbegin, hrest⟩ := Coroutine.execute_exceptT_bind_eq_ok.mp h
  obtain ⟨_, w₂, hchunks, hcomplete⟩ := Coroutine.execute_exceptT_bind_eq_ok.mp hrest
  have hpart := partFile_of_begin hdirectory hfresh hbegin
  apply (hpart.chunks hchunks).complete hcomplete

end

/-! ### What the uploaded file grants -/

/-- What a file created with the mode `0600` in a directory whose permissions were replaced grants:
reading and writing to its owner, and nothing to any other principal. -/
theorem granted_create (entries : List AclEntry) (owner : ℕ) (content : List UInt8)
    (principal : Principal) :
  (FileNode.mk owner (FileAcl.create (replacedFile true entries) 0o600) content).granted principal
    = if principal = .user owner then ⟨true, true, false⟩ else Perm.none
  := by
  have hmask : (FileAcl.create (replacedFile true entries) 0o600).access.maskPerm = Perm.none :=
    rfl
  rw [FileNode.granted]
  split
  · rfl
  · rw [Acl.effective, hmask]
    cases (FileAcl.create (replacedFile true entries) 0o600).access.named.lookup principal with
    | none => rfl
    | some perm =>
        rw [Option.map_some, Perm.inter_none]
        rfl

/-- A file uploaded to a directory whose permissions were replaced grants a listed principal what
its level promises exactly when the principal is the user who uploads. -/
theorem uploaded_promised_iff {refuses : FileOp → Option Refusal} {w w' : Worker}
    {destPath directoryPath : String} {id : UuidHex} {chunks : List (ℤ × List UInt8)}
    {entries : List AclEntry} {recursive : Bool} {before : FileAcl} {directory : FileNode}
    (hdir : before.isDir = true)
    (hreplaced : (SetfaclAcl.replaceAll directoryPath entries recursive).run.execute
      (FileAcl.answer directoryPath) before = (.ok (), directory.acl))
    (hdirectory : w.files (Path.dirname destPath) = some directory)
    (hfresh : w.files (partPathFor destPath id.text) = none)
    (hupload : (uploadFile destPath id.text chunks).run.execute (Worker.answer refuses) w
      = (.ok (), w')) :
  ∃ node, w'.files destPath = some node
    ∧ ∀ e ∈ entries, e.level.promised ⊆ node.granted e.principal ↔ e.principal = .user w.uid
  := by
  have hacl := SetfaclAcl.of_execute_replaceAll hreplaced
  rw [hdir] at hacl
  obtain ⟨content, hnode⟩ := of_uploadFile hdirectory hfresh hupload
  refine ⟨_, hnode, ?_⟩
  intro e _
  rw [hacl, granted_create]
  cases e.level
  all_goals
    split
    · rename_i h
      simp [h]
      decide
    · rename_i h
      simp [h]
      decide

/-- Two users who may write. -/
def mediaEntries : List AclEntry :=
  [⟨.user, 1001, .rw⟩, ⟨.user, 1002, .rw⟩]

/-- The lists of a directory that was just made. -/
def newDirectory : FileAcl :=
  ⟨true, Acl.minimal Perm.all Perm.none Perm.none, none, FileAcl.default_isDir_none true⟩

/-- The directory of a share with their permissions. -/
def mediaDirectory : FileNode :=
  ⟨0, replacedFile true mediaEntries, []⟩

/-- The worker of the first of them. -/
def mediaWorker : Worker :=
  { uid := 1001
    files := fun path => if path = "/volume1/media" then some mediaDirectory else none
    uploads := fun _ => none }

/-- The identifier of an upload. -/
def mediaId : UuidHex :=
  ⟨"0123456789abcdef0123456789abcdef", List.forall_iff_forall_mem.mp (by decide)⟩

/-- The worker after an upload of two bytes. -/
def mediaUploaded : Worker :=
  ((uploadFile "/volume1/media/a" mediaId.text [(0, [104, 105])]).run.execute
    (Worker.answer fun _ => none) mediaWorker).2

theorem mediaUploaded_eq :
  (uploadFile "/volume1/media/a" mediaId.text [(0, [104, 105])]).run.execute
    (Worker.answer fun _ => none) mediaWorker = (.ok (), mediaUploaded)
  := by
  apply Prod.ext
  · rfl
  · rfl

theorem mediaDirectory_replaced :
  (SetfaclAcl.replaceAll "/volume1/media" mediaEntries false).run.execute
    (FileAcl.answer "/volume1/media") newDirectory = (.ok (), mediaDirectory.acl)
  := SetfaclAcl.execute_replaceAll "/volume1/media" newDirectory (by decide) (Or.inl rfl)

/-- The user who uploads may read and write the file. -/
theorem uploaded_promised_iff_media :
  ∃ node, mediaUploaded.files "/volume1/media/a" = some node
    ∧ AclLevel.rw.promised ⊆ node.granted (.user 1001)
  := by
  obtain ⟨node, hnode, hiff⟩ := uploaded_promised_iff rfl mediaDirectory_replaced rfl rfl
    mediaUploaded_eq
  use node, hnode
  apply (hiff ⟨.user, 1001, .rw⟩ (by simp [mediaEntries])).mpr rfl

/-- The other user, who may write the directory too, may not even read the file. -/
theorem uploaded_not_promised :
  ¬ ∀ (refuses : FileOp → Option Refusal) (w w' : Worker) (destPath directoryPath : String)
      (id : UuidHex) (chunks : List (ℤ × List UInt8)) (entries : List AclEntry) (recursive : Bool)
      (before : FileAcl) (directory : FileNode), before.isDir = true →
      (SetfaclAcl.replaceAll directoryPath entries recursive).run.execute
        (FileAcl.answer directoryPath) before = (.ok (), directory.acl) →
      w.files (Path.dirname destPath) = some directory →
      w.files (partPathFor destPath id.text) = none →
      (uploadFile destPath id.text chunks).run.execute (Worker.answer refuses) w = (.ok (), w') →
      ∀ e ∈ entries, ∃ node, w'.files destPath = some node
        ∧ e.level.promised ⊆ node.granted e.principal
  := by
  intro hall
  obtain ⟨node, hnode, hpromised⟩ := hall _ _ _ "/volume1/media/a" _ mediaId _ _ _ _ mediaDirectory
    rfl mediaDirectory_replaced rfl rfl mediaUploaded_eq ⟨.user, 1002, .rw⟩ (by simp [mediaEntries])
  obtain ⟨content, hnode'⟩ :=
    @of_uploadFile _ mediaWorker _ "/volume1/media/a" mediaId mediaDirectory _ rfl rfl mediaUploaded_eq
  cases hnode.symm.trans hnode'
  rw [mediaDirectory, granted_create] at hpromised
  revert hpromised
  decide
