import NasOs.Uploads.Requests

/-!
# The free space for an upload

`begin_upload` checks the declared length against the free space of a volume: the first one in the table
whose mountpoint comes before the directory that the client names.  The file is created where the directory
and the name of the client lead to, which is on the volume whose mountpoint is the longest among those on
the way.

Hence whatever is accepted fits there, however much space is free, if and only if the first mountpoint in the
table that is before the directory, character for character, is that of the volume, or the file is on none
that is registered.
-/

namespace Coroutine

universe u v

variable {Op : Type u} {Res : Op → Type u} {ε α : Type u}

/-- Where nothing is raised, nothing is caught. -/
theorem Follows.tryCatch {c : ExceptT ε (Coroutine Op Res) α}
    {f : ε → ExceptT ε (Coroutine Op Res) α} {h : List (Event Op Res)} {a : α}
    (hc : c.run.Follows h (.done (.ok a))) :
  (MonadExcept.tryCatch c f).run.Follows h (.done (.ok a))
  := by
  apply follows_bind.mpr
  right
  exact ⟨h, .ok a, [], (List.append_nil h).symm, hc, follows_done.mpr ⟨rfl, rfl⟩⟩

end Coroutine

namespace UploadsService

/-- The place of an absolute path. -/
def absolutePlace (path : String) : Option (List (List Char)) :=
  if path.toList.head? = some '/' then some (Path.resolve path) else none

/-- A volume is that of a path: its mountpoint is on the way to the path, and none that is longer is. -/
def IsVolumeOf (mountpoints : List String) (path mountpoint : String) : Prop :=
  mountpoint ∈ mountpoints ∧ ∃ place ∈ absolutePlace path, ∃ root ∈ absolutePlace mountpoint,
    root <+: place ∧ ∀ other ∈ mountpoints, ∀ otherRoot ∈ absolutePlace other, otherRoot <+: place →
      otherRoot.length ≤ root.length

/-- The directory is the mountpoint, or it continues the mountpoint below a separator: as they are written,
whatever they lead to. -/
def Continues (mountpoint destDir : String) : Prop :=
  destDir = mountpoint ∨ Path.stripEnd mountpoint.toList ++ ['/'] <+: destDir.toList

/-- A mountpoint is the first in the table that a directory continues. -/
def FirstContinued (mountpoints : List String) (destDir mountpoint : String) : Prop :=
  ∃ before after, mountpoints = before ++ mountpoint :: after ∧ Continues mountpoint destDir
    ∧ ∀ other ∈ before, ¬ Continues other destDir

/-- The free space is that of places, however the mountpoints are written. -/
def IsOfPlaces (free : String → ℕ) : Prop :=
  ∀ mountpoint other, absolutePlace mountpoint ≠ none → absolutePlace mountpoint = absolutePlace other →
    free mountpoint = free other

/-- What was answered is told by the volumes that are registered and their free space. -/
structure AnsweredBy (mountpoints : List String) (free : String → ℕ)
    (history : List (Event TusOp TusOp.Answer)) : Prop where
  volumes : ∀ answer, ⟨.volumes, .ok answer⟩ ∈ history → answer = mountpoints
  freeSpace : ∀ mountpoint answer, ⟨.freeSpace mountpoint, .ok answer⟩ ∈ history →
    answer = free mountpoint

/-- Each upload that is accepted fits on the volume of its destination. -/
def FitsVolume (mountpoints : List String) (free : String → ℕ) (destDir filename : String) (size : ℤ) :
    Prop :=
  ∀ uploadId uid history upload,
    (beginUpload uploadId uid destDir filename size).run.Follows history (.done (.ok upload)) →
    AnsweredBy mountpoints free history →
    ∀ mountpoint, IsVolumeOf mountpoints (Path.join destDir filename) mountpoint →
      size ≤ free mountpoint

/-- The volume that is looked at is the first one whose mountpoint the directory continues. -/
theorem volumeFor_eq_some_iff {mountpoints : List String} {destDir mountpoint : String} :
  volumeFor mountpoints destDir = some mountpoint ↔ FirstContinued mountpoints destDir mountpoint
  := by
  rw [volumeFor, List.find?_eq_some_iff_append, FirstContinued]
  simp only [decide_eq_true_eq, Bool.not_eq_true', decide_eq_false_iff_not, Continues]
  constructor
  · rintro ⟨hcontinues, before, after, hmountpoints, hbefore⟩
    exact ⟨before, after, hmountpoints, hcontinues, hbefore⟩
  · rintro ⟨before, after, hmountpoints, hcontinues, hbefore⟩
    exact ⟨hcontinues, before, after, hmountpoints, hbefore⟩

/-- The check goes well only if there is enough space on the volume that is looked at. -/
theorem of_follows_checkFreeSpace {destDir : String} {size : ℤ} {history : List (Event TusOp TusOp.Answer)}
    (h : (checkFreeSpace destDir size).run.Follows history (.done (.ok ()))) :
  ∃ mountpoints, ⟨.volumes, .ok mountpoints⟩ ∈ history
    ∧ ∀ mountpoint, volumeFor mountpoints destDir = some mountpoint →
      ∃ free : ℕ, ⟨.freeSpace mountpoint, .ok free⟩ ∈ history ∧ size ≤ free
  := by
  rw [checkFreeSpace, Coroutine.follows_exceptT_bind_ok] at h
  obtain ⟨_, mountpoints, rest, rfl, hselect, hrest⟩ := h
  cases Coroutine.follows_perform.mp hselect
  use mountpoints, List.mem_cons_self
  intro mountpoint hvolume
  simp only [hvolume] at hrest
  obtain ⟨_, free, rest, rfl, hfree, hraise⟩ := Coroutine.follows_exceptT_bind_ok.mp hrest
  cases Coroutine.follows_perform.mp hfree
  refine ⟨free, List.mem_cons_of_mem _ List.mem_cons_self, ?_⟩
  by_contra hsize
  rw [Async.raiseIf, if_pos (Int.not_le.mp hsize)] at hraise
  obtain ⟨-, ⟨⟩⟩ := Coroutine.follows_done.mp hraise

/-- The check goes well if there is enough space on the volume that is looked at. -/
theorem follows_checkFreeSpace {mountpoints : List String} {destDir : String} {size : ℤ}
    {free : String → ℕ} (h : ∀ mountpoint ∈ volumeFor mountpoints destDir, size ≤ free mountpoint) :
  ∃ history, (checkFreeSpace destDir size).run.Follows history (.done (.ok ()))
    ∧ AnsweredBy mountpoints free history
  := by
  cases hvolume : volumeFor mountpoints destDir with
  | none =>
      refine ⟨[⟨.volumes, .ok mountpoints⟩], ?_, ?_⟩
      · rw [checkFreeSpace, Coroutine.follows_exceptT_bind_ok]
        refine ⟨_, mountpoints, [], rfl, Coroutine.follows_perform.mpr rfl, ?_⟩
        rw [hvolume]
        apply Coroutine.Follows.nil
      · constructor
        · simp
        · simp
  | some mountpoint =>
      refine ⟨[⟨.volumes, .ok mountpoints⟩, ⟨.freeSpace mountpoint, .ok (free mountpoint)⟩], ?_, ?_⟩
      · rw [checkFreeSpace, Coroutine.follows_exceptT_bind_ok]
        refine ⟨[_], mountpoints, [_], rfl, Coroutine.follows_perform.mpr rfl, ?_⟩
        rw [hvolume]
        apply Coroutine.follows_exceptT_bind_ok.mpr
        refine ⟨_, free mountpoint, [], rfl, Coroutine.follows_perform.mpr rfl, ?_⟩
        rw [Async.raiseIf, if_neg (Int.not_lt.mpr (h mountpoint hvolume))]
        apply Coroutine.Follows.nil
      · constructor
        · simp
        · simp +contextual

/-- An upload is accepted if there is enough space on the volume that is looked at. -/
theorem follows_beginUpload {mountpoints : List String} {destDir : String} {size : ℤ} {free : String → ℕ}
    (h : ∀ mountpoint ∈ volumeFor mountpoints destDir, size ≤ free mountpoint) (uploadId : String)
    (uid : ℕ) (filename : String) :
  ∃ history upload,
    (beginUpload uploadId uid destDir filename size).run.Follows history (.done (.ok upload))
      ∧ AnsweredBy mountpoints free history
  := by
  obtain ⟨checked, hchecked, hanswered⟩ := follows_checkFreeSpace h
  let upload : Upload := ⟨uploadId, uid, size⟩
  refine ⟨checked ++ [⟨.uploadBegin uploadId (Path.join destDir filename) size, .ok ()⟩,
    ⟨.addUpload upload, .ok ()⟩], upload, ?_, ?_⟩
  · rw [beginUpload, Coroutine.follows_exceptT_bind_ok]
    refine ⟨checked, (), _, rfl, hchecked, ?_⟩
    apply Coroutine.follows_exceptT_bind_ok.mpr
    refine ⟨[_], (), [_], rfl, ?_, ?_⟩
    · apply Coroutine.Follows.tryCatch
      exact Coroutine.follows_perform.mpr rfl
    · apply Coroutine.follows_exceptT_bind_ok.mpr
      exact ⟨[_], (), [], rfl, Coroutine.follows_perform.mpr rfl, Coroutine.Follows.nil _⟩
  · constructor
    · intro answer hanswer
      apply hanswered.volumes answer
      simpa using hanswer
    · intro mountpoint answer hanswer
      apply hanswered.freeSpace mountpoint answer
      simpa using hanswer

/-- Whatever is accepted fits on the volume of its destination, however much space is free, if and only if
the first mountpoint that the directory continues leads to where that of the volume does. -/
theorem fitsVolume_iff (mountpoints : List String) (destDir filename : String) :
  (∀ free, IsOfPlaces free → ∀ size, FitsVolume mountpoints free destDir filename size)
    ↔ ∀ mountpoint, IsVolumeOf mountpoints (Path.join destDir filename) mountpoint →
        ∃ first, FirstContinued mountpoints destDir first ∧ absolutePlace first = absolutePlace mountpoint
  := by
  constructor
  · intro hfits mountpoint hvolume
    by_contra hother
    -- there is space everywhere but on the volume
    let free : String → ℕ := fun looked => if absolutePlace looked = absolutePlace mountpoint then 0 else 1
    have hplaces : IsOfPlaces free := by
      intro looked looked' _ hsame
      simp only [free]
      rw [hsame]
    have haccepted : ∀ looked ∈ volumeFor mountpoints destDir, (1 : ℤ) ≤ (free looked : ℤ) := by
      intro looked hlooked
      have hplace : ¬ absolutePlace looked = absolutePlace mountpoint := by
        intro hplace
        apply hother
        use looked
        use volumeFor_eq_some_iff.mp hlooked
      simp only [free]
      rw [if_neg hplace]
      rfl
    obtain ⟨history, upload, hfollows, hanswered⟩ := follows_beginUpload haccepted "" 0 filename
    have hsize := hfits free hplaces 1 "" 0 history upload hfollows hanswered mountpoint hvolume
    simp [free] at hsize
  · intro hsame free hplaces size uploadId uid history upload hfollows hanswered mountpoint hvolume
    rw [beginUpload, Coroutine.follows_exceptT_bind_ok] at hfollows
    obtain ⟨checked, _, rest, rfl, hchecked, -⟩ := hfollows
    obtain ⟨answer, hanswer, hlooked⟩ := of_follows_checkFreeSpace hchecked
    cases hanswered.volumes answer (List.mem_append_left _ hanswer)
    obtain ⟨first, hfirst, hplace⟩ := hsame mountpoint hvolume
    obtain ⟨space, hspace, hsize⟩ := hlooked first (volumeFor_eq_some_iff.mpr hfirst)
    have habsolute : absolutePlace mountpoint ≠ none := by
      obtain ⟨-, place, hplace', root, hroot, -⟩ := hvolume
      rw [hroot]
      simp
    rw [hplaces mountpoint first habsolute hplace.symm,
      ← hanswered.freeSpace first space (List.mem_append_left _ hspace)]
    exact hsize

/-- There are ten bytes free on `/mnt/pool`, and one everywhere else. -/
def freeOnPool (mountpoint : String) : ℕ :=
  if absolutePlace mountpoint = absolutePlace "/mnt/pool" then 10 else 1

/-- An upload to a volume that is mounted in another is checked against the free space of the other, if that
was registered before. -/
theorem not_fitsVolume_nested :
  IsOfPlaces freeOnPool
    ∧ ¬ FitsVolume ["/mnt/pool", "/mnt/pool/photos"] freeOnPool "/mnt/pool/photos" "a.jpg" 5
  := by
  constructor
  · intro looked looked' _ hsame
    rw [freeOnPool, freeOnPool, hsame]
  · intro hfits
    have hlooked : volumeFor ["/mnt/pool", "/mnt/pool/photos"] "/mnt/pool/photos" = some "/mnt/pool" := by
      decide
    have hfree : ∀ looked ∈ volumeFor ["/mnt/pool", "/mnt/pool/photos"] "/mnt/pool/photos",
        (5 : ℤ) ≤ (freeOnPool looked : ℤ) := by
      intro looked hlooked'
      cases hlooked.symm.trans hlooked'
      decide
    obtain ⟨history, upload, hfollows, hanswered⟩ := follows_beginUpload hfree "" 0 "a.jpg"
    have hsize := hfits "" 0 history upload hfollows hanswered "/mnt/pool/photos"
      ⟨by decide, _, rfl, _, rfl, by decide, by decide⟩
    revert hsize
    decide

end UploadsService
