import Mathlib.Data.Rat.Defs
import NasOs.Agent.Jobs
import NasOs.Library.FileTree

/-!
# The files of an archive

The archive of a selection has an entry for every file in or below a selected source, under the name of
the source and what leads from there to the file.  Directories that the worker may not list are passed
over, and a file that cannot be added ends the job.

An entry is kept under its name without the parts that lead nowhere else, and without those that lead
upwards it is where the entry is unpacked, over what was unpacked there before.  The sources may come from
different directories, so two of them may have files in the same place: no file is lost if and only if that
is not so, every file can be come by and added, and none is the archive itself (`filesUnder_iff`).
-/

/-! ### Walking through a directory -/

/-- What the worker may see of the files.  Those of other accounts may be closed to it. -/
structure FileAccess where
  /-- The directory can be listed. -/
  lists : FileTree.Location → Bool
  /-- What the link leads to can be looked up. -/
  follows : FileTree.Location → Bool
  /-- `os.stat` is allowed of the path. -/
  stats : List String → Bool
  /-- `os.lstat` is allowed of the path. -/
  lstats : List String → Bool

/-- Nothing is closed to the worker. -/
def FileAccess.full : FileAccess where
  lists _ := true
  follows _ := true
  stats _ := true
  lstats _ := true

namespace FileTree

/-- `os.DirEntry.is_dir`, which follows links. -/
def isDirAt (access : FileAccess) (t : FileTree) (loc : Location) : Bool :=
  match t.lookup loc with
  | some .dir => true
  | some (.link absolute target) =>
      access.follows loc &&
        (followLink (fun links =>
          t.resolve true links (if absolute then [] else loc.dropLast) target) maxLinks).bind t.lookup
            = some .dir
  | _ => false

/-- The files that `os.walk` comes by from a directory in `n` levels, by what leads from it to them. -/
def walk (access : FileAccess) (t : FileTree) : ℕ → Location → List (List String)
  | 0, _ => []
  | n + 1, loc =>
      if access.lists loc then
        ((t.names loc).filter fun name => !t.isDirAt access (loc ++ [name])).map (fun name => [name])
          ++ ((t.names loc).filter fun name => t.lookup (loc ++ [name]) = some .dir).flatMap fun name =>
            (t.walk access n (loc ++ [name])).map (name :: ·)
      else []

/-- Every directory on the way that some names lead from a location can be listed, up to the last name. -/
def Reached (access : FileAccess) (loc rel : Location) : Prop :=
  ∀ front, front <+: rel → front ≠ rel → access.lists (loc ++ front) = true

/-- The way goes on from its first directory. -/
theorem reached_cons {access : FileAccess} {loc rest : Location} {name : String} :
  Reached access loc (name :: rest) ↔ access.lists loc = true ∧ Reached access (loc ++ [name]) rest
  := by
  constructor
  · intro h
    constructor
    · have hhere := h [] (List.nil_prefix) (by simp)
      rw [List.append_nil] at hhere
      apply hhere
    · intro front hfront hne
      rw [List.append_assoc]
      apply h (name :: front)
      · apply List.cons_prefix_cons.mpr ⟨rfl, hfront⟩
      · intro heq
        apply hne (List.cons.inj heq).2
  · rintro ⟨hhere, hrest⟩ front hfront hne
    cases front with
    | nil =>
        rw [List.append_nil]
        apply hhere
    | cons name' front =>
        obtain ⟨rfl, hfront'⟩ := List.cons_prefix_cons.mp hfront
        rw [← List.singleton_append, ← List.append_assoc]
        apply hrest front hfront'
        rintro rfl
        apply hne rfl

/-- A walk comes by every entry that it reaches and does not take for a directory, and no other. -/
theorem mem_walk {access : FileAccess} {t : FileTree} {n : ℕ} {loc : Location} {rel : List String} :
  rel ∈ t.walk access n loc ↔
    rel ≠ [] ∧ rel.length ≤ n ∧ (∃ entry, t.lookup (loc ++ rel) = some entry)
      ∧ t.isDirAt access (loc ++ rel) = false ∧ Reached access loc rel
  := by
  induction n generalizing loc rel with
  | zero =>
      rw [walk]
      constructor
      · intro h
        cases h
      · rintro ⟨hne, hlength, -⟩
        apply absurd (List.length_eq_zero_iff.mp (Nat.le_zero.mp hlength)) hne
  | succ n ih =>
      rw [walk]
      by_cases hlists : access.lists loc = true
      · rw [if_pos hlists, List.mem_append, List.mem_map, List.mem_flatMap]
        simp only [List.mem_filter, List.mem_map, mem_names, Bool.not_eq_true', decide_eq_true_eq]
        constructor
        · rintro (⟨name, ⟨hthere, hfile⟩, rfl⟩ | ⟨name, ⟨-, hdir⟩, rest, hrest, rfl⟩)
          · refine ⟨by simp, by simp, hthere, hfile, reached_cons.mpr ⟨hlists, ?_⟩⟩
            intro front hfront hne
            exact absurd (List.prefix_nil.mp hfront) hne
          · obtain ⟨-, hlength, hthere, hfile, hreached⟩ := ih.mp hrest
            rw [List.append_assoc, List.singleton_append] at hthere hfile
            exact ⟨by simp, by simpa using hlength, hthere, hfile, reached_cons.mpr ⟨hlists, hreached⟩⟩
        · rintro ⟨hne, hlength, hthere, hfile, hreached⟩
          obtain ⟨name, rest, rfl⟩ := List.exists_cons_of_ne_nil hne
          by_cases hrest : rest = []
          · left
            subst hrest
            exact ⟨name, ⟨hthere, hfile⟩, rfl⟩
          · right
            obtain ⟨entry, hentry⟩ := hthere
            rw [← List.singleton_append, ← List.append_assoc] at hentry hfile
            have hdir := lookup_of_append hrest hentry
            refine ⟨name, ⟨⟨_, hdir⟩, hdir⟩, rest, ?_, rfl⟩
            rw [ih]
            exact ⟨hrest, by simpa using hlength, ⟨entry, hentry⟩, hfile, (reached_cons.mp hreached).2⟩
      · rw [if_neg hlists]
        constructor
        · intro h
          cases h
        · rintro ⟨hne, -, -, -, hreached⟩
          obtain ⟨name, rest, rfl⟩ := List.exists_cons_of_ne_nil hne
          exact absurd (reached_cons.mp hreached).1 hlists

end FileTree

/-! ### The list -/

/-- `os.path.join` of the name of a source and what leads from there to a file. -/
def archiveName (source rel : List String) : List String :=
  if FileTree.basename source = "" then rel else FileTree.basename source :: rel

/-- The path and the archive name of every file of a source. -/
def filesUnderSource (access : FileAccess) (t : FileTree) (source : List String) :
    List (List String × List String) :=
  if access.stats source && t.isDir source then
    (t.realPath source).toList.flatMap fun top =>
      (t.walk access t.depth top).map fun rel => (FileTree.joinPath source rel, archiveName source rel)
  else [(source, archiveName source [])]

/-- `_files_under`. -/
def filesUnder (access : FileAccess) (t : FileTree) (sources : List (List String)) :
    List (List String × List String) :=
  sources.flatMap (filesUnderSource access t)

/-! ### The archive -/

/-- What the system allows of an archive. -/
structure ZipContext extends FileAccess where
  /-- The archive can be opened for writing. -/
  creates : FileTree.Location → Bool
  /-- The file can be read, and added with its name and its times. -/
  adds : List String → Bool

/-- Everything is allowed. -/
def ZipContext.free : ZipContext where
  toFileAccess := .full
  creates _ := true
  adds _ := true

/-- `os.path.normpath` of a relative path. -/
def normpath (path : List String) : List String :=
  let names := path.foldl (fun names name =>
    if name = "" ∨ name = "." then names
    else if name = ".." ∧ names ≠ [] ∧ names.getLast? ≠ some ".." then names.dropLast
    else names ++ [name]) []
  if names = [] then ["."] else names

/-- The entries of an archive, each with its name and the path of the file that it was made of, which is
none if it was made of the archive itself, and what the record of the job says. -/
structure ZipJob where
  entries : List (List String × Option (List String))
  status : JobStatus
  progress : ℚ

/-- The loop of the body of `files.zip` from file `i` of `total` on.  `zf.write` raises when the file cannot
be added; what leads nowhere cannot. -/
def zipFiles (ctx : ZipContext) (cancelled : ℕ → Bool) (t : FileTree) (dest : FileTree.Location)
    (total i : ℕ) (entries : List (List String × Option (List String))) (progress : ℚ) :
    List (List String × List String) → ZipJob
  | [] => ⟨entries, .done, 1⟩
  | (full, arcname) :: files =>
      if cancelled i then ⟨entries, .cancelled, progress⟩
      else if ctx.stats full && t.pathExists full && ctx.adds full then
        zipFiles ctx cancelled t dest total (i + 1)
          (entries ++ [(normpath arcname, if t.realPath full = some dest then none else some full)])
          ((i + 1) / max total 1) files
      else ⟨entries, .failed, progress⟩

/-- `files.zip`. -/
def zipPaths (ctx : ZipContext) (cancelled : ℕ → Bool) (t : FileTree) (sources : List (List String))
    (destPath : List String) : ZipJob :=
  let files := filesUnder ctx.toFileAccess t sources
  match t.opened FileTree.maxLinks [] destPath with
  | none => ⟨[], .failed, 0⟩
  | some dest =>
      if ctx.creates dest then zipFiles ctx cancelled t dest files.length 0 [] 0 files
      else ⟨[], .failed, 0⟩

/-- Where an entry is unpacked: nothing is unpacked above the directory for it. -/
def unpackedAt (name : List String) : List String :=
  name.filter fun part => FileTree.Plain part

/-- The path of the file that is unpacked in a place: the last entry takes the place of those before it. -/
def unpack (entries : List (List String × Option (List String))) (place : List String) :
    Option (List String) :=
  (entries.reverse.find? fun entry => unpackedAt entry.1 = place).bind Prod.snd

/-! ### The files of a source -/

/-- A source that is no directory is a file, and one that is has files below it to which some names lead;
links to directories are none. -/
def FileUnder (access : FileAccess) (t : FileTree) (source rel : List String) : Prop :=
  if access.stats source && t.isDir source then
    ∃ top, t.realPath source = some top ∧ rel ≠ []
      ∧ (∃ entry, t.lookup (top ++ rel) = some entry) ∧ t.isDirAt access (top ++ rel) = false
  else rel = []

/-- The path of a file of a source. -/
def pathUnder (access : FileAccess) (t : FileTree) (source rel : List String) : List String :=
  if access.stats source && t.isDir source then FileTree.joinPath source rel else source

/-- The directories on the way from a source to a file can be listed. -/
def ReachedFrom (access : FileAccess) (t : FileTree) (source rel : List String) : Prop :=
  (access.stats source && t.isDir source) = true →
    ∀ top ∈ t.realPath source, FileTree.Reached access top rel

/-- The files of a source that are reached are listed, and no others. -/
theorem mem_filesUnderSource {access : FileAccess} {t : FileTree} {source : List String}
    {file : List String × List String} :
  file ∈ filesUnderSource access t source ↔
    ∃ rel, FileUnder access t source rel ∧ ReachedFrom access t source rel
      ∧ file = (pathUnder access t source rel, archiveName source rel)
  := by
  unfold filesUnderSource FileUnder pathUnder ReachedFrom
  split
  · rename_i hdir
    simp only [List.mem_flatMap, Option.mem_toList, List.mem_map, FileTree.mem_walk]
    constructor
    · rintro ⟨top, htop, rel, ⟨hne, -, hentry, hfile, hreached⟩, rfl⟩
      refine ⟨rel, ⟨top, htop, hne, hentry, hfile⟩, ?_, rfl⟩
      intro _ top' htop'
      cases htop.symm.trans htop'
      apply hreached
    · rintro ⟨rel, ⟨top, htop, hne, hentry, hfile⟩, hreached, rfl⟩
      refine ⟨top, htop, rel, ⟨hne, ?_, hentry, hfile, hreached hdir top htop⟩, rfl⟩
      obtain ⟨entry, hentry⟩ := hentry
      have hdepth := FileTree.length_le_depth hentry
      rw [List.length_append] at hdepth
      omega
  · rename_i hfile
    rw [List.mem_singleton]
    constructor
    · rintro rfl
      exact ⟨[], rfl, fun hdir => absurd hdir hfile, rfl⟩
    · rintro ⟨rel, rfl, -, rfl⟩
      rfl

/-- Some source lists a file with this path and archive name. -/
def Listed (access : FileAccess) (t : FileTree) (sources : List (List String))
    (file : List String × List String) : Prop :=
  ∃ source ∈ sources, ∃ rel, FileUnder access t source rel ∧ ReachedFrom access t source rel
    ∧ file = (pathUnder access t source rel, archiveName source rel)

/-- The files of the sources that are reached are listed, and no others. -/
theorem mem_filesUnder {access : FileAccess} {t : FileTree} {sources : List (List String)}
    {file : List String × List String} :
  file ∈ filesUnder access t sources ↔ Listed access t sources file
  := by
  rw [filesUnder, List.mem_flatMap]
  simp only [mem_filesUnderSource, Listed]

/-! ### What is lost -/

/-- Two paths are those of the same file, and lead to the same. -/
def SameFile (t : FileTree) (path path' : List String) : Prop :=
  t.locate path = t.locate path' ∧ t.realPath path = t.realPath path'

/-- Where a file of a source is unpacked. -/
def placeOf (source rel : List String) : List String :=
  unpackedAt (normpath (archiveName source rel))

/-- Every file of the sources is listed, different files have different archive names, and the job is done
and each file is there when what it wrote is unpacked. -/
structure Archived (ctx : ZipContext) (t : FileTree) (sources : List (List String))
    (destPath : List String) : Prop where
  listed : ∀ source ∈ sources, ∀ rel, FileUnder ctx.toFileAccess t source rel →
    (pathUnder ctx.toFileAccess t source rel, archiveName source rel)
      ∈ filesUnder ctx.toFileAccess t sources
  distinct : ∀ path path' name, (path, name) ∈ filesUnder ctx.toFileAccess t sources →
    (path', name) ∈ filesUnder ctx.toFileAccess t sources → SameFile t path path'
  done : (zipPaths ctx (fun _ => false) t sources destPath).status = .done
  unpacked : ∀ source ∈ sources, ∀ rel, FileUnder ctx.toFileAccess t source rel →
    ∃ path, unpack (zipPaths ctx (fun _ => false) t sources destPath).entries (placeOf source rel)
        = some path
      ∧ SameFile t path (pathUnder ctx.toFileAccess t source rel)

/-- Every file of the sources is reached from a source and can be added to the archive at a location, none is
the archive, and no two are unpacked in the same place. -/
structure ZipContext.Archives (ctx : ZipContext) (t : FileTree) (sources : List (List String))
    (dest : FileTree.Location) : Prop where
  reached : ∀ source ∈ sources, ∀ rel, FileUnder ctx.toFileAccess t source rel →
    Listed ctx.toFileAccess t sources
      (pathUnder ctx.toFileAccess t source rel, archiveName source rel)
  added : ∀ source ∈ sources, ∀ rel, FileUnder ctx.toFileAccess t source rel →
    (ctx.stats (pathUnder ctx.toFileAccess t source rel)
      && t.pathExists (pathUnder ctx.toFileAccess t source rel)
      && ctx.adds (pathUnder ctx.toFileAccess t source rel)) = true
  outside : ∀ source ∈ sources, ∀ rel, FileUnder ctx.toFileAccess t source rel →
    t.realPath (pathUnder ctx.toFileAccess t source rel) ≠ some dest
  apart : ∀ a ∈ sources, ∀ b ∈ sources, ∀ rel rel', FileUnder ctx.toFileAccess t a rel →
    FileUnder ctx.toFileAccess t b rel' → placeOf a rel = placeOf b rel' →
      SameFile t (pathUnder ctx.toFileAccess t a rel) (pathUnder ctx.toFileAccess t b rel')

section

variable {ctx : ZipContext} {t : FileTree} {sources : List (List String)} {dest : FileTree.Location}
  {total i : ℕ} {entries : List (List String × Option (List String))} {progress : ℚ}
  {files : List (List String × List String)}

/-- The entry of a file. -/
def zipEntry (t : FileTree) (dest : FileTree.Location) (file : List String × List String) :
    List String × Option (List String) :=
  (normpath file.2, if t.realPath file.1 = some dest then none else some file.1)

/-- The job is done if and only if every file can be added. -/
theorem zipFiles_done_iff :
  (zipFiles ctx (fun _ => false) t dest total i entries progress files).status = .done
    ↔ ∀ file ∈ files, (ctx.stats file.1 && t.pathExists file.1 && ctx.adds file.1) = true
  := by
  induction files generalizing i entries progress with
  | nil => simp [zipFiles]
  | cons file files ih =>
      obtain ⟨full, arcname⟩ := file
      rw [zipFiles, if_neg Bool.false_ne_true, List.forall_mem_cons]
      by_cases hadds : (ctx.stats full && t.pathExists full && ctx.adds full) = true
      · rw [if_pos hadds, ih]
        exact ⟨fun h => ⟨hadds, h⟩, fun h => h.2⟩
      · rw [if_neg hadds]
        constructor
        · intro h
          cases h
        · rintro ⟨h, -⟩
          exact absurd h hadds

/-- When every file can be added, the archive has the entries of them all. -/
theorem entries_zipFiles
    (h : ∀ file ∈ files, (ctx.stats file.1 && t.pathExists file.1 && ctx.adds file.1) = true) :
  (zipFiles ctx (fun _ => false) t dest total i entries progress files).entries
    = entries ++ files.map (zipEntry t dest)
  := by
  induction files generalizing i entries progress with
  | nil => rw [zipFiles, List.map_nil, List.append_nil]
  | cons file files ih =>
      obtain ⟨full, arcname⟩ := file
      rw [List.forall_mem_cons] at h
      rw [zipFiles, if_neg Bool.false_ne_true, if_pos h.1, ih h.2, List.map_cons, List.append_assoc]
      rfl

/-- What is unpacked is one of the files, and is not the archive. -/
theorem mem_of_unpack {place path : List String}
    (h : unpack (files.map (zipEntry t dest)) place = some path) :
  ∃ name, (path, name) ∈ files ∧ unpackedAt (normpath name) = place ∧ t.realPath path ≠ some dest
  := by
  obtain ⟨entry, hfind, hpath⟩ := Option.bind_eq_some_iff.mp h
  obtain ⟨file, hfile, rfl⟩ :=
    List.mem_map.mp (List.mem_reverse.mp (List.mem_of_find?_eq_some hfind))
  have hplace := List.find?_some hfind
  rw [decide_eq_true_eq] at hplace
  rw [zipEntry] at hpath
  dsimp only at hpath
  split at hpath
  · cases hpath
  · rename_i houtside
    cases hpath
    exact ⟨file.2, hfile, hplace, houtside⟩

/-- Where a file is unpacked, one is, if none is the archive. -/
theorem exists_unpack {file : List String × List String} (hfile : file ∈ files)
    (houtside : ∀ file ∈ files, t.realPath file.1 ≠ some dest) :
  ∃ path, unpack (files.map (zipEntry t dest)) (unpackedAt (normpath file.2)) = some path
  := by
  obtain ⟨entry, hfind⟩ : ∃ entry, (files.map (zipEntry t dest)).reverse.find?
      (fun entry => unpackedAt entry.1 = unpackedAt (normpath file.2)) = some entry := by
    rw [← Option.isSome_iff_exists, List.find?_isSome]
    exact ⟨_, List.mem_reverse.mpr (List.mem_map_of_mem hfile), decide_eq_true rfl⟩
  obtain ⟨file', hfile', rfl⟩ :=
    List.mem_map.mp (List.mem_reverse.mp (List.mem_of_find?_eq_some hfind))
  use file'.1
  rw [unpack, hfind, Option.bind_some, zipEntry, if_neg (houtside file' hfile')]

end

section

variable {ctx : ZipContext} {t : FileTree} {sources : List (List String)} {destPath : List String}
  {dest : FileTree.Location}

/-- The job adds the listed files to an archive that can be opened. -/
theorem zipPaths_eq (hopened : t.opened FileTree.maxLinks [] destPath = some dest)
    (hcreates : ctx.creates dest = true) :
  zipPaths ctx (fun _ => false) t sources destPath
    = zipFiles ctx (fun _ => false) t dest (filesUnder ctx.toFileAccess t sources).length 0 [] 0
      (filesUnder ctx.toFileAccess t sources)
  := by
  rw [zipPaths, hopened]
  dsimp only
  rw [if_pos hcreates]

/-- The archive of a job that is done could be opened. -/
theorem opened_of_done (h : (zipPaths ctx (fun _ => false) t sources destPath).status = .done) :
  ∃ dest, t.opened FileTree.maxLinks [] destPath = some dest ∧ ctx.creates dest = true
  := by
  rw [zipPaths] at h
  split at h
  · cases h
  · rename_i dest hopened
    split at h
    · rename_i hcreates
      exact ⟨dest, hopened, hcreates⟩
    · cases h

/-- If no file is lost, every file is reached and can be added, and no two are unpacked in the same place. -/
theorem Archived.archives (h : Archived ctx t sources destPath)
    (hopened : t.opened FileTree.maxLinks [] destPath = some dest) (hcreates : ctx.creates dest = true) :
  ctx.Archives t sources dest
  := by
  have hdone := h.done
  rw [zipPaths_eq hopened hcreates, zipFiles_done_iff] at hdone
  have hunpacked := h.unpacked
  rw [zipPaths_eq hopened hcreates, entries_zipFiles hdone, List.nil_append] at hunpacked
  constructor
  · intro source hsource rel hfile
    apply mem_filesUnder.mp (h.listed source hsource rel hfile)
  · intro source hsource rel hfile
    apply hdone _ (h.listed source hsource rel hfile)
  · intro source hsource rel hfile
    obtain ⟨path, hpath, -, hreal⟩ := hunpacked source hsource rel hfile
    obtain ⟨name, -, -, houtside⟩ := mem_of_unpack hpath
    rw [← hreal]
    apply houtside
  · intro a ha b hb rel rel' hfile hfile' hplace
    obtain ⟨path, hpath, hsame⟩ := hunpacked a ha rel hfile
    obtain ⟨path', hpath', hsame'⟩ := hunpacked b hb rel' hfile'
    rw [hplace, hpath'] at hpath
    cases hpath
    exact ⟨hsame.1.symm.trans hsame'.1, hsame.2.symm.trans hsame'.2⟩

/-- If every file is reached and can be added, and no two are unpacked in the same place, no file is lost. -/
theorem ZipContext.Archives.archived (h : ctx.Archives t sources dest)
    (hopened : t.opened FileTree.maxLinks [] destPath = some dest) (hcreates : ctx.creates dest = true) :
  Archived ctx t sources destPath
  := by
  have hlisted : ∀ source ∈ sources, ∀ rel, FileUnder ctx.toFileAccess t source rel →
      (pathUnder ctx.toFileAccess t source rel, archiveName source rel)
        ∈ filesUnder ctx.toFileAccess t sources := by
    intro source hsource rel hfile
    apply mem_filesUnder.mpr (h.reached source hsource rel hfile)
  have hadds : ∀ file ∈ filesUnder ctx.toFileAccess t sources,
      (ctx.stats file.1 && t.pathExists file.1 && ctx.adds file.1) = true := by
    intro file hfile
    obtain ⟨source, hsource, rel, hunder, -, rfl⟩ := mem_filesUnder.mp hfile
    apply h.added source hsource rel hunder
  have houtside : ∀ file ∈ filesUnder ctx.toFileAccess t sources, t.realPath file.1 ≠ some dest := by
    intro file hfile
    obtain ⟨source, hsource, rel, hunder, -, rfl⟩ := mem_filesUnder.mp hfile
    apply h.outside source hsource rel hunder
  refine ⟨hlisted, ?_, ?_, ?_⟩
  · intro path path' name hfile hfile'
    obtain ⟨a, ha, rel, hunder, -, heq⟩ := mem_filesUnder.mp hfile
    obtain ⟨b, hb, rel', hunder', -, heq'⟩ := mem_filesUnder.mp hfile'
    obtain ⟨rfl, rfl⟩ := Prod.mk.inj heq
    obtain ⟨rfl, hname⟩ := Prod.mk.inj heq'
    apply h.apart a ha b hb rel rel' hunder hunder'
    rw [placeOf, placeOf, hname]
  · rw [zipPaths_eq hopened hcreates, zipFiles_done_iff]
    apply hadds
  · rw [zipPaths_eq hopened hcreates, entries_zipFiles hadds, List.nil_append]
    intro source hsource rel hunder
    obtain ⟨path, hpath⟩ := exists_unpack (hlisted source hsource rel hunder) houtside
    obtain ⟨name, hfile, hplace, -⟩ := mem_of_unpack hpath
    obtain ⟨b, hb, rel', hunder', -, heq⟩ := mem_filesUnder.mp hfile
    obtain ⟨rfl, rfl⟩ := Prod.mk.inj heq
    exact ⟨_, hpath, h.apart b hb source hsource rel' rel hunder' hunder hplace⟩

end

/-- The files of a folder that is selected as `.` are unpacked where one of their names is. -/
example : placeOf ["", "a", "."] ["x"] = placeOf ["", "b", "x"] [] := by decide +kernel

/-- Two folders, each with a file of the same name. -/
def twoFolders : FileTree :=
  ((((FileTree.bare.create [] "a" .dir).bind fun t => t.create [] "b" .dir).bind fun t =>
    t.create ["a"] "x" (.file [])).bind fun t => t.create ["b"] "x" (.file [])).getD FileTree.bare
