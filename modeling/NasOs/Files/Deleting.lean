import Mathlib.Data.Rat.Defs
import NasOs.Agent.Jobs
import NasOs.Library.FileTree

/-!
# Deleting files

A `files.delete` job removes the items it was given one after the other, each by its path in what the ones
before have left, and fails at the first that this path does not remove any more.  So it removes exactly
the items and what is below them if and only if each can be removed by its path on its own, and none is
needed to get to a later one: no item is repeated, lies in one before it, or is reached through a link
that was removed (`deleteJob_iff`).
-/

/-! ### The job -/

namespace FileTree

/-- `os.rmdir`.  The path must end with the name of an empty directory, which may have slashes after it. -/
def rmdir (t : FileTree) (path : List String) : Option FileTree :=
  if EndsPlain (trim path) then
    (t.locate (trim path)).bind fun loc =>
      if t.lookup loc = some .dir ∧ t.names loc = [] then some (t.remove loc) else none
  else none

/-- `shutil.rmtree`: the tree that is left, and whether no `OSError` was raised.  What is in the directory
is removed first, however deep it is, and then the directory by its path. -/
def rmtree (t : FileTree) (path : List String) : FileTree × Bool :=
  match t.locate path with
  | none => (t, false)
  | some loc =>
      if t.lookup loc = some .dir then
        match (t.removeBelow loc).rmdir path with
        | none => (t.removeBelow loc, false)
        | some t' => (t', true)
      else (t, false)

/-- `os.remove`. -/
def osRemove (t : FileTree) (path : List String) : FileTree × Bool :=
  match t.locate path with
  | none => (t, false)
  | some loc =>
      match t.lookup loc with
      | none => (t, false)
      | some .dir => (t, false)
      | some _ => (t.remove loc, true)

/-- Remove an item. -/
def deleteItem (t : FileTree) (path : List String) : FileTree × Bool :=
  if t.isDir path && !t.isLink path then t.rmtree path else t.osRemove path

end FileTree

/-- What a job of the file manager leaves of the files, and what its record says. -/
structure FilesJob where
  tree : FileTree
  status : JobStatus
  progress : ℚ

/-- The loop of the body of `files.delete` from path `i` of `total` on; `cancelled` says at which paths a
request to cancel the job has come. -/
def deleteItems (cancelled : ℕ → Bool) (total i : ℕ) (t : FileTree) (progress : ℚ) :
    List (List String) → FilesJob
  | [] => ⟨t, .done, 1⟩
  | path :: paths =>
      if cancelled i then ⟨t, .cancelled, progress⟩
      else
        match t.deleteItem path with
        | (t', false) => ⟨t', .failed, progress⟩
        | (t', true) => deleteItems cancelled total (i + 1) t' ((i + 1) / total) paths

/-- `files.delete`. -/
def deleteJob (cancelled : ℕ → Bool) (t : FileTree) (paths : List (List String)) : FilesJob :=
  deleteItems cancelled paths.length 0 t 0 paths

/-! ### One item -/

/-- What is at a location can be removed by a path on its own: the path ends with the name of the entry,
with slashes after it only if it is a directory, and does not go through what is below the location. -/
structure Removable (t : FileTree) (path : List String) (loc : FileTree.Location) : Prop where
  locate : t.locate path = some loc
  entry : FileTree.EndsPlain (FileTree.trim path)
  locate_trim : t.locate (FileTree.trim path) = some loc
  not_through : ∀ q, t.LooksUp false FileTree.maxLinks [] (FileTree.trim path) q → loc <+: q → q = loc

namespace FileTree

/-- The location of what can be removed is not the root, and there is an entry. -/
theorem lookup_of_removable {t : FileTree} {path : List String} {loc : Location}
    (h : Removable t path loc) :
  loc ≠ [] ∧ ∃ entry, t.lookup loc = some entry
  := by
  obtain ⟨hlooks, hthere⟩ := looksUp_of_resolve h.entry h.locate_trim
  exact ⟨ne_nil_of_looksUp hlooks, hthere⟩

/-- A directory is removed by its path if and only if it can be. -/
theorem rmtree_spec {t : FileTree} {path : List String} {loc : Location}
    (hloc : t.locate path = some loc) (hdir : t.lookup loc = some .dir) :
  ((t.rmtree path).2 = true ↔ Removable t path loc)
    ∧ (Removable t path loc →
      ∀ q, (t.rmtree path).1.lookup q = if loc <+: q then none else t.lookup q)
  := by
  have hbelow := t.lookup_removeBelow loc
  have hsame : Removable t path loc → (t.removeBelow loc).locate (trim path) = some loc := by
    intro h
    rw [← h.locate_trim]
    apply resolve_congr
    intro q hq
    rw [hbelow, if_neg]
    rintro ⟨habove, hne⟩
    apply hne (h.not_through q hq habove)
  have hrmdir : Removable t path loc →
      (t.removeBelow loc).rmdir path = some ((t.removeBelow loc).remove loc) := by
    intro h
    rw [rmdir, if_pos h.entry, hsame h, Option.bind_some, if_pos]
    exact ⟨by rw [hbelow, if_neg (by simp), hdir], t.names_removeBelow loc⟩
  have hrmtree : t.rmtree path = match (t.removeBelow loc).rmdir path with
      | none => (t.removeBelow loc, false)
      | some t' => (t', true) := by
    rw [rmtree, hloc]
    dsimp only
    rw [if_pos hdir]
  constructor
  · constructor
    · intro hdone
      rw [hrmtree, rmdir] at hdone
      by_cases hentry : EndsPlain (trim path)
      · rw [if_pos hentry] at hdone
        have hway : ∀ q, t.LooksUp false maxLinks [] (trim path) q → loc <+: q → q = loc := by
          intro q hq habove
          by_contra hne
          have hmissing : (t.removeBelow loc).locate (trim path) = none := by
            apply hq.resolve_eq_none
            · intro q'
              rw [hbelow]
              split
              · right
                rfl
              · left
                rfl
            · rw [hbelow, if_pos ⟨habove, hne⟩]
          rw [hmissing] at hdone
          cases hdone
        have hcongr : (t.removeBelow loc).locate (trim path) = t.locate (trim path) := by
          apply resolve_congr
          intro q hq
          rw [hbelow, if_neg]
          rintro ⟨habove, hne⟩
          apply hne (hway q hq habove)
        rw [hcongr] at hdone
        cases htrim : t.locate (trim path) with
        | none =>
            rw [htrim] at hdone
            cases hdone
        | some loc' =>
            rw [htrim, Option.bind_some] at hdone
            by_cases hthere : (t.removeBelow loc).lookup loc' = some .dir
            · have hdir' : t.lookup loc' = some .dir := by
                rw [hbelow] at hthere
                split at hthere
                · cases hthere
                · apply hthere
              have heq : loc = loc' := by
                rw [← Option.some_inj, ← hloc, ← locate_of_trim htrim hdir']
              exact ⟨hloc, hentry, by rw [htrim, heq], hway⟩
            · rw [if_neg (fun h => hthere h.1)] at hdone
              cases hdone
      · rw [if_neg hentry] at hdone
        cases hdone
    · intro h
      rw [hrmtree, hrmdir h]
  · intro h q
    rw [hrmtree, hrmdir h]
    dsimp only
    rw [lookup_remove (lookup_of_removable h).1, hbelow]
    split
    · rfl
    · rename_i hnot
      rw [if_neg (fun h => hnot h.1)]

/-- What is no directory is removed by its path. -/
theorem removable_of_not_dir {t : FileTree} {path : List String} {loc : Location}
    (hloc : t.locate path = some loc) (hdir : t.lookup loc ≠ some .dir) :
  Removable t path loc
  := by
  have hends := endsPlain_of_resolve t.lookup_nil hloc hdir
  have htrim := trim_eq_self hends
  refine ⟨hloc, by rwa [htrim], by rwa [htrim], ?_⟩
  rintro q hq ⟨rest, rfl⟩
  by_contra hne
  have hrest : rest ≠ [] := by
    rintro rfl
    rw [List.append_nil] at hne
    contradiction
  have habove := lookup_dropLast_of_looksUp t.lookup_nil hq
  rw [List.dropLast_append_of_ne_nil hrest] at habove
  by_cases hlast : rest.dropLast = []
  · rw [hlast, List.append_nil] at habove
    contradiction
  · apply hdir (lookup_of_append hlast habove)

/-- An item is removed if and only if it can be by its path on its own; then what is below it is gone, and
nothing else. -/
theorem deleteItem_spec (t : FileTree) (path : List String) :
  ((t.deleteItem path).2 = true ↔ ∃ loc, Removable t path loc)
    ∧ ∀ loc, Removable t path loc →
      ∀ q, (t.deleteItem path).1.lookup q = if loc <+: q then none else t.lookup q
  := by
  have hchoice : (t.isDir path && !t.isLink path) = true ↔
      ∃ loc, t.locate path = some loc ∧ t.lookup loc = some .dir := by
    rw [isDir_and_not_isLink, lstat, Option.bind_eq_some_iff]
  rw [deleteItem]
  by_cases hdir : ∃ loc, t.locate path = some loc ∧ t.lookup loc = some .dir
  · rw [if_pos (hchoice.mpr hdir)]
    obtain ⟨loc, hloc, hdir⟩ := hdir
    obtain ⟨hdone, hleft⟩ := rmtree_spec hloc hdir
    have hunique : ∀ loc', Removable t path loc' → loc' = loc := by
      intro loc' h
      rw [← Option.some_inj, ← h.locate, hloc]
    constructor
    · rw [hdone]
      constructor
      · intro h
        use loc
      · rintro ⟨loc', h⟩
        cases hunique loc' h
        apply h
    · intro loc' h
      cases hunique loc' h
      apply hleft h
  · rw [if_neg (hchoice.not.mpr hdir), osRemove]
    cases hloc : t.locate path with
    | none =>
        have hnone : ∀ loc, ¬ Removable t path loc := by
          intro loc h
          rw [h.locate] at hloc
          cases hloc
        simp [hnone]
    | some loc =>
        have hnot : t.lookup loc ≠ some .dir := fun h => hdir ⟨loc, hloc, h⟩
        have hremovable := removable_of_not_dir hloc hnot
        obtain ⟨hne, entry, hentry⟩ := lookup_of_removable hremovable
        have hremove : (match t.lookup loc with
            | none => (t, false)
            | some .dir => (t, false)
            | some _ => (t.remove loc, true)) = (t.remove loc, true) := by
          rw [hentry]
          cases entry with
          | file content => rfl
          | link absolute target => rfl
          | dir => contradiction
        dsimp only
        rw [hremove]
        constructor
        · simp only [true_iff]
          use loc
        · intro loc' h
          have hsame : loc' = loc := by
            rw [← Option.some_inj, ← h.locate, hloc]
          rw [hsame]
          apply lookup_remove hne

end FileTree

/-! ### What the job leaves -/

/-- The entry of one path is not needed to get to that of another. -/
def PathsApart (t : FileTree) (a b : List String) : Prop :=
  ∀ loc ∈ t.locate a, ∀ q, t.LooksUp false FileTree.maxLinks [] b q → ¬ loc <+: q

/-- What is left of a tree without the entries of some paths and what is below them. -/
def Without (t : FileTree) (paths : List (List String)) (t' : FileTree) : Prop :=
  ∀ q, (∃ path ∈ paths, ∃ loc ∈ t.locate path, loc <+: q) ∧ t'.lookup q = none
    ∨ (∀ path ∈ paths, ∀ loc ∈ t.locate path, ¬ loc <+: q) ∧ t'.lookup q = t.lookup q

namespace Without

variable {t t' : FileTree} {paths : List (List String)}

/-- On the way of a path that is apart from those whose entries were removed, all is as it was. -/
theorem lookup_of_apart (h : Without t paths t') {path : List String}
    (hapart : ∀ a ∈ paths, PathsApart t a path) {q : FileTree.Location}
    (hq : t.LooksUp false FileTree.maxLinks [] path q) :
  t'.lookup q = t.lookup q
  := by
  rcases h q with ⟨⟨a, ha, loc, hloc, hbelow⟩, -⟩ | ⟨-, hsame⟩
  · apply absurd hbelow (hapart a ha loc hloc q hq)
  · apply hsame

/-- A path that is not apart from those whose entries were removed leads nowhere. -/
theorem locate_of_not_apart (h : Without t paths t') {path : List String}
    (hapart : ¬ ∀ a ∈ paths, PathsApart t a path) :
  t'.locate path = none
  := by
  simp only [PathsApart, not_forall, not_not] at hapart
  obtain ⟨a, ha, loc, hloc, q, hq, hbelow⟩ := hapart
  apply hq.resolve_eq_none
  · intro q'
    rcases h q' with ⟨-, hnone⟩ | ⟨-, hsame⟩
    · right
      apply hnone
    · left
      apply hsame
  · rcases h q with ⟨-, hnone⟩ | ⟨hnot, -⟩
    · apply hnone
    · apply absurd hbelow (hnot a ha loc hloc)

/-- What can be removed of what is left. -/
theorem removable_iff (h : Without t paths t') {path : List String} {loc : FileTree.Location} :
  Removable t' path loc ↔ (∀ a ∈ paths, PathsApart t a path) ∧ Removable t path loc
  := by
  by_cases hapart : ∀ a ∈ paths, PathsApart t a path
  · have hpath : t'.locate path = t.locate path :=
      FileTree.resolve_congr fun q hq => h.lookup_of_apart hapart hq
    have hway : ∀ q, t.LooksUp false FileTree.maxLinks [] (FileTree.trim path) q →
        t'.lookup q = t.lookup q := by
      intro q hq
      apply h.lookup_of_apart hapart
      obtain ⟨k, hk⟩ := FileTree.trim_append_replicate path
      rw [← hk]
      apply hq.append
    have htrim : t'.locate (FileTree.trim path) = t.locate (FileTree.trim path) :=
      FileTree.resolve_congr hway
    have hway' : ∀ q, t'.LooksUp false FileTree.maxLinks [] (FileTree.trim path) q ↔
        t.LooksUp false FileTree.maxLinks [] (FileTree.trim path) q := by
      intro q
      constructor
      · intro hq
        apply hq.congr hway
      · intro hq
        apply hq.congr_of hway
    constructor
    · intro hremovable
      refine ⟨hapart, ?_, hremovable.entry, ?_, ?_⟩
      · rw [← hpath, hremovable.locate]
      · rw [← htrim, hremovable.locate_trim]
      · intro q hq
        apply hremovable.not_through q ((hway' q).mpr hq)
    · rintro ⟨-, hremovable⟩
      refine ⟨?_, hremovable.entry, ?_, ?_⟩
      · rw [hpath, hremovable.locate]
      · rw [htrim, hremovable.locate_trim]
      · intro q hq
        apply hremovable.not_through q ((hway' q).mp hq)
  · constructor
    · intro hremovable
      cases hremovable.locate.symm.trans (h.locate_of_not_apart hapart)
    · rintro ⟨hall, -⟩
      contradiction

/-- Removing one more item. -/
theorem append (h : Without t paths t') {path : List String} {loc : FileTree.Location}
    (hloc : t.locate path = some loc) {t'' : FileTree}
    (hleft : ∀ q, t''.lookup q = if loc <+: q then none else t'.lookup q) :
  Without t (paths ++ [path]) t''
  := by
  intro q
  rw [hleft]
  by_cases hbelow : loc <+: q
  · left
    constructor
    · exact ⟨path, by simp, loc, hloc, hbelow⟩
    · rw [if_pos hbelow]
  · rw [if_neg hbelow]
    rcases h q with ⟨⟨a, ha, habove⟩, hnone⟩ | ⟨hnot, hsame⟩
    · left
      exact ⟨⟨a, List.mem_append_left _ ha, habove⟩, hnone⟩
    · right
      constructor
      · intro a ha loc' hloc'
        rcases List.mem_append.mp ha with ha | ha
        · apply hnot a ha loc' hloc'
        · rw [List.mem_singleton.mp ha, hloc] at hloc'
          cases hloc'
          apply hbelow
      · apply hsame

end Without

/-- The job goes on to the end if and only if every item can be removed by its path, and is apart from those
before it; then it leaves what is left without them. -/
theorem deleteItems_spec {t : FileTree} {before paths : List (List String)} {t' : FileTree}
    (hbefore : Without t before t') (total i : ℕ) (progress : ℚ) :
  ((deleteItems (fun _ => false) total i t' progress paths).status = .done
      ↔ (∀ path ∈ paths, ∃ loc, Removable t path loc) ∧ paths.Pairwise (PathsApart t)
        ∧ ∀ a ∈ before, ∀ b ∈ paths, PathsApart t a b)
    ∧ ((deleteItems (fun _ => false) total i t' progress paths).status = .done →
      (deleteItems (fun _ => false) total i t' progress paths).progress = 1
        ∧ Without t (before ++ paths) (deleteItems (fun _ => false) total i t' progress paths).tree)
  := by
  induction paths generalizing before t' i progress with
  | nil => simpa [deleteItems] using hbefore
  | cons path paths ih =>
      obtain ⟨hdone, hleft⟩ := t'.deleteItem_spec path
      rw [deleteItems, if_neg Bool.false_ne_true]
      by_cases hitem : ∃ loc, Removable t' path loc
      · have hdone := hdone.mpr hitem
        obtain ⟨loc, hitem⟩ := hitem
        have hleft := hleft loc hitem
        obtain ⟨hapart, hitem⟩ := hbefore.removable_iff.mp hitem
        generalize t'.deleteItem path = result at hdone hleft ⊢
        obtain ⟨t'', done⟩ := result
        cases hdone
        obtain ⟨hrest, hwithout⟩ := ih (hbefore.append hitem.locate hleft) (i + 1) ((i + 1) / total)
        constructor
        · dsimp only
          rw [hrest, List.pairwise_cons, List.forall_mem_cons]
          simp only [List.forall_mem_append, List.forall_mem_cons, List.not_mem_nil,
            false_implies, implies_true, and_true]
          constructor
          · rintro ⟨hall, hpairs, hold, hnew⟩
            exact ⟨⟨⟨loc, hitem⟩, hall⟩, ⟨hnew, hpairs⟩, fun a ha => ⟨hapart a ha, hold a ha⟩⟩
          · rintro ⟨⟨-, hall⟩, ⟨hnew, hpairs⟩, hold⟩
            exact ⟨hall, hpairs, fun a ha => (hold a ha).2, hnew⟩
        · rw [List.append_assoc, List.singleton_append] at hwithout
          apply hwithout
      · have hfailed := hdone.not.mpr hitem
        generalize t'.deleteItem path = result at hfailed ⊢
        obtain ⟨t'', done⟩ := result
        cases done with
        | true => contradiction
        | false =>
            constructor
            · constructor
              · intro h
                cases h
              · rintro ⟨hall, -, hold⟩
                exfalso
                apply hitem
                obtain ⟨loc, hremovable⟩ := hall path List.mem_cons_self
                use loc
                rw [hbefore.removable_iff]
                exact ⟨fun a ha => hold a ha path List.mem_cons_self, hremovable⟩
            · intro h
              cases h

/-- The job is done, its progress is complete, and exactly the entries of the paths and what is below them
are gone. -/
structure Deleted (t : FileTree) (paths : List (List String)) (job : FilesJob) : Prop where
  done : job.status = .done
  progress : job.progress = 1
  without : Without t paths job.tree

/-- For every tree and all paths, the job removes exactly their entries and what is below them if and only
if each can be removed by its path on its own, and none is needed to get to a later one. -/
theorem deleteJob_iff (t : FileTree) (paths : List (List String)) :
  Deleted t paths (deleteJob (fun _ => false) t paths)
    ↔ (∀ path ∈ paths, ∃ loc, Removable t path loc) ∧ paths.Pairwise (PathsApart t)
  := by
  have hnothing : Without t [] t := by
    intro q
    right
    simp
  obtain ⟨hdone, hleft⟩ : _ ∧ (_ → _ ∧ Without t ([] ++ paths) _) :=
    deleteItems_spec hnothing paths.length 0 0
  constructor
  · intro h
    obtain ⟨hall, hpairs, -⟩ := hdone.mp h.done
    exact ⟨hall, hpairs⟩
  · rintro ⟨hall, hpairs⟩
    have hstatus := hdone.mpr ⟨hall, hpairs, by simp⟩
    obtain ⟨hprogress, hwithout⟩ := hleft hstatus
    exact ⟨hstatus, hprogress, hwithout⟩

/-- A folder with a file in it. -/
def folderWithFile : FileTree :=
  ((FileTree.bare.create [] "d" .dir).bind fun t => t.create ["d"] "x" (.file [])).getD FileTree.bare

/-- When a folder and a file in it are selected, the file is gone with the folder, and the job fails. -/
theorem not_deleted_inside :
  ¬ ∀ (t : FileTree) (paths : List (List String)),
    (∀ path ∈ paths, ∃ loc, t.locate path = some loc) →
      Deleted t paths (deleteJob (fun _ => false) t paths)
  := by
  intro h
  have hthere : ∀ path ∈ [["", "d"], ["", "d", "x"]], (folderWithFile.locate path).isSome = true := by
    decide +kernel
  have hdeleted := h folderWithFile [["", "d"], ["", "d", "x"]] fun path hpath =>
    Option.isSome_iff_exists.mp (hthere path hpath)
  have hfailed : (deleteJob (fun _ => false) folderWithFile [["", "d"], ["", "d", "x"]]).status
      = .failed := by
    decide +kernel
  rw [hdeleted.done] at hfailed
  cases hfailed
