import NasOs.Files.Copying
import NasOs.Library.Relocation

/-!
# Renaming, copying and moving files

`files.rename`, and each item of a `files.copy` or `files.move` job, first looks whether there is something
at the destination and then changes the files, with other changes possible in between.  A move is a renaming
when the system allows it; otherwise, as between two file systems, the source is copied and then removed.
The changes themselves do not overlap: nothing else happens while one of them is made.

When nothing has the name at the destination at the time of the change, which also rules out a link that
leads nowhere, and nothing is moved to a directory inside of itself, then nothing is lost: whatever the
order of the checks and changes, everything is where it was or where it was moved to (`keeps_of_run`).
`shutil` recognizes a directory inside of the source by its path only, so that a link is enough to have it
copy a directory into itself and then remove both.
-/

namespace FileTree

/-! ### Renaming and moving -/

/-- `os.rename`. -/
def osRename (t : FileTree) (src dst : List String) : Option FileTree :=
  if EndsPlain (trim src) ∧ EndsPlain (trim dst) then
    (t.locate (trim src)).bind fun s =>
      (t.realPath (trim dst).dropLast).bind fun dir =>
        let d := dir ++ [basename dst]
        match t.lookup s with
        | none => none
        | some entry =>
            if entry ≠ .dir ∧ (trim src ≠ src ∨ trim dst ≠ dst) then none
            else if s = d then some t
            else
              match t.lookup d with
              | none => t.relocate s d
              | some old =>
                  -- a directory replaces an empty one only, and anything else no directory
                  if (entry = .dir ∧ old = .dir ∧ t.names d = []) ∨ (entry ≠ .dir ∧ old ≠ .dir) then
                    (t.remove d).relocate s d
                  else none
  else none

/-- The names of an absolute path without those that lead nowhere else, as `os.path.abspath` has them. -/
def abspath (path : List String) : List String :=
  path.foldl (fun names name =>
    if name = "" ∨ name = "." then names
    else if name = ".." then names.dropLast
    else names ++ [name]) []

/-- `shutil._destinsrc`. -/
def destInSrc (src dst : List String) : Bool :=
  abspath src <+: abspath dst

/-- What `shutil.move` does when the source cannot be renamed. -/
def moveByCopy (ctx : CopyContext) (limit : ℕ) (t : FileTree) (src dst realDst : List String) :
    FileTree × Bool :=
  match t.lstat src with
  | some (.link absolute target) =>
      match t.newEntry realDst (.link absolute target) with
      | .error _ => (t, false)
      | .ok (t', _) => t'.osRemove src
  | _ =>
      if t.isDir src then
        if destInSrc src dst then (t, false)
        else
          match t.copytree ctx limit src realDst with
          | (t', false) => (t', false)
          | (t', true) => t'.rmtree src
      else
        match t.copy2 ctx src realDst with
        | (t', false) => (t', false)
        | (t', true) => t'.osRemove src

/-- `shutil.move`, where `refused` says that the system does not allow the renaming. -/
def move (ctx : CopyContext) (refused : Bool) (limit : ℕ) (t : FileTree) (src dst : List String) :
    FileTree × Bool :=
  let rename (realDst : List String) : Option FileTree := if refused then none else t.osRename src realDst
  let moveTo (realDst : List String) : FileTree × Bool :=
    match rename realDst with
    | some t' => (t', true)
    | none => t.moveByCopy ctx limit src dst realDst
  if t.isDir dst then
    if t.realPath src = t.realPath dst ∧ t.isLink src = false then
      match rename dst with
      | some t' => (t', true)
      | none => (t, false)
    else
      let realDst := joinPath dst [basename src]
      if t.pathExists realDst then (t, false) else moveTo realDst
  else moveTo dst

/-- `os.path.dirname`. -/
def dirname (path : List String) : List String :=
  let head := path.dropLast ++ [""]
  if head.all (· = "") then head else trim head

end FileTree

/-! ### The worker -/

/-- What `files.rename`, or an item of a job, is to do. -/
inductive FilesChange where
  | rename (path : List String) (newName : String)
  | copy (source destDir : List String)
  | move (source destDir : List String)
  deriving DecidableEq

namespace FilesChange

/-- The path of what is renamed, copied or moved. -/
def source : FilesChange → List String
  | rename path _ => path
  | copy source _ => source
  | move source _ => source

/-- The directory that it goes to. -/
def destDir : FilesChange → List String
  | rename path _ => FileTree.dirname path
  | copy _ destDir => destDir
  | move _ destDir => destDir

/-- The name that it has there. -/
def name : FilesChange → String
  | rename _ newName => newName
  | copy source _ => FileTree.basename source
  | move source _ => FileTree.basename source

/-- The path at which there must be nothing. -/
def dest (change : FilesChange) : List String :=
  FileTree.joinPath change.destDir [change.name]

/-- The change is a move. -/
def isMove : FilesChange → Bool
  | move _ _ => true
  | _ => false

/-- `files.rename` refuses a name with a separator in it. -/
def valid : FilesChange → Bool
  | rename _ newName => '/' ∉ newName.toList
  | _ => true

/-- The change that is made after there was nothing at the destination. -/
def apply (ctx : CopyContext) (refused : Bool) (limit : ℕ) (t : FileTree) :
    FilesChange → FileTree × Bool
  | rename path newName =>
      let change := rename path newName
      match if refused then none else t.osRename path change.dest with
      | some t' => (t', true)
      | none => (t, false)
  | copy source destDir => t.copyItem ctx limit source (copy source destDir).dest
  | move source destDir => t.move ctx refused limit source (move source destDir).dest

end FilesChange

/-- The files, and the changes that have looked at their destinations and are still to be made. -/
structure FilesWorker where
  tree : FileTree
  pending : List FilesChange

/-- What happens to the files. -/
inductive FilesStep where
  /-- `files.mkdir`. -/
  | mkdir (path : List String)
  /-- A change looks at its destination, and goes on if there is nothing. -/
  | check (change : FilesChange)
  /-- The change at a place is made, with nothing else in between. -/
  | change (i : ℕ) (ctx : CopyContext) (refused : Bool) (limit : ℕ)

namespace FilesWorker

/-- The files over time. -/
def machine : Machine FilesWorker FilesStep where
  step s
    | .mkdir path =>
        match FileTree.mkdir (fun _ => true) s.tree path with
        | .error _ => some s
        | .ok (t, _) => some { s with tree := t }
    | .check change =>
        if !change.valid || s.tree.pathExists change.dest then some s
        else some { s with pending := s.pending ++ [change] }
    | .change i ctx refused limit =>
        s.pending[i]?.map fun change =>
          ⟨(change.apply ctx refused limit s.tree).1, s.pending.eraseIdx i⟩

end FilesWorker

/-! ### What the changes keep -/

namespace FileTree

section

variable {t t' : FileTree} {follow : Bool} {links : ℕ} {loc : Location} {path : List String}

/-- A path leads to the same location when entries are added. -/
theorem resolve_of_grows (h : Grows t t') {target : Location}
    (hpath : t.resolve follow links loc path = some target) :
  t'.resolve follow links loc path = some target
  := by
  induction links, loc, path using follow_induction with
  | nil links loc =>
      rw [resolve_nil] at hpath ⊢
      apply hpath
  | cons links loc name rest ihrest ihlink =>
      rw [resolve_cons] at hpath ⊢
      cases hname : dots loc name with
      | some loc' =>
          rw [hname] at hpath
          apply ihrest loc' hpath
      | none =>
          rw [hname] at hpath
          dsimp only at hpath ⊢
          cases hentry : t.lookup (loc ++ [name]) with
          | none =>
              rw [hentry] at hpath
              cases hpath
          | some entry =>
              rw [hentry] at hpath
              rw [h _ _ hentry]
              cases entry with
              | file content => apply hpath
              | dir => apply ihrest _ hpath
              | link absolute names =>
                  dsimp only at hpath ⊢
                  split
                  · rename_i hstop
                    rw [if_pos hstop] at hpath
                    apply hpath
                  · rename_i hgo
                    rw [if_neg hgo] at hpath
                    cases links with
                    | zero => cases hpath
                    | succ fewer => apply ihlink fewer rfl _ _ hpath

theorem opened_cons {name : String} {rest : List String} :
  t.opened links loc (name :: rest) =
    match dots loc name with
    | some loc' => t.opened links loc' rest
    | none =>
        match t.lookup (loc ++ [name]) with
        | none => if rest = [] then some (loc ++ [name]) else none
        | some .dir => t.opened links (loc ++ [name]) rest
        | some (.file _) => if rest = [] then some (loc ++ [name]) else none
        | some (.link absolute target) =>
            followLink (fun fewer => t.opened fewer (if absolute then [] else loc) (target ++ rest)) links
  := by
  cases links
  all_goals rfl

/-- A file is opened in the directory that its path leads to. -/
theorem resolve_of_opened {name : String} {target : Location} (hloc : t.lookup loc = some .dir)
    (h : t.opened links loc (path ++ [name]) = some target) :
  ∃ dir left, t.resolve true links loc path = some dir ∧ t.lookup dir = some .dir
    ∧ t.opened left dir [name] = some target
  := by
  induction links, loc, path using follow_induction with
  | nil links loc => exact ⟨loc, links, resolve_nil, hloc, h⟩
  | cons links loc first rest ihrest ihlink =>
      rw [List.cons_append, opened_cons] at h
      rw [resolve_cons]
      cases hname : dots loc first with
      | some loc' =>
          rw [hname] at h
          apply ihrest loc' (lookup_dots hname hloc) h
      | none =>
          rw [hname] at h
          dsimp only at h ⊢
          cases hentry : t.lookup (loc ++ [first]) with
          | none =>
              rw [hentry] at h
              dsimp only at h
              rw [if_neg (by simp)] at h
              cases h
          | some entry =>
              rw [hentry] at h
              cases entry with
              | file content =>
                  dsimp only at h
                  rw [if_neg (by simp)] at h
                  cases h
              | dir => apply ihrest _ hentry h
              | link absolute names =>
                  dsimp only at h ⊢
                  rw [if_neg (by simp)]
                  cases links with
                  | zero => cases h
                  | succ fewer =>
                      rw [← List.append_assoc] at h
                      apply ihlink fewer rfl _ _ _ h
                      split
                      · apply lookup_nil
                      · apply hloc

/-- A path that leads to a location opens what is there. -/
theorem opened_of_resolve {target : Location} (h : t.resolve true links loc path = some target) :
  t.opened links loc path = some target
  := by
  induction links, loc, path using follow_induction with
  | nil links loc =>
      rw [resolve_nil] at h
      cases links
      all_goals exact h
  | cons links loc name rest ihrest ihlink =>
      rw [resolve_cons] at h
      rw [opened_cons]
      cases hname : dots loc name with
      | some loc' =>
          rw [hname] at h
          apply ihrest loc' h
      | none =>
          rw [hname] at h
          dsimp only at h ⊢
          cases hentry : t.lookup (loc ++ [name]) with
          | none =>
              rw [hentry] at h
              cases h
          | some entry =>
              rw [hentry] at h
              cases entry with
              | file content => apply h
              | dir => apply ihrest _ h
              | link absolute names =>
                  dsimp only at h ⊢
                  rw [if_neg (by simp)] at h
                  cases links with
                  | zero => cases h
                  | succ fewer => apply ihlink fewer rfl _ _ h

/-- A directory that is copied takes nothing away. -/
theorem grows_copytree (ctx : CopyContext) (limit : ℕ) (t : FileTree) (src dst : List String) :
  Grows t (t.copytree ctx limit src dst).1
  := by
  unfold copytree
  split
  · rename_i n loc _
    split
    · have hmade := grows_makedirs ctx.makes dst.length t dst
      split
      · rename_i t' e heq
        rw [heq] at hmade
        apply hmade
      · rename_i t' top heq
        rw [heq] at hmade
        apply hmade.trans (grows_copyEntries (grows_copyDir ctx n) loc top _ t')
    · apply Grows.refl
  · apply Grows.refl

/-- Nothing has a name in the directory of a path. -/
def Vacant (t : FileTree) (destDir : List String) (name : String) : Prop :=
  ∀ dir ∈ t.realPath destDir, t.lookup (dir ++ [name]) = none

variable {ctx : CopyContext} {destDir : List String} {name : String}

/-- A path to a name in a directory, which is also where the path of the directory leads. -/
theorem realPath_of_joinPath (destDir : List String) (name : String) :
  ∃ head, joinPath destDir [name] = head ++ [name]
    ∧ ∀ dir, t.realPath head = some dir → t.lookup dir = some .dir → t.realPath destDir = some dir
  := by
  rw [joinPath]
  split
  · rename_i hslash
    obtain ⟨front, rfl⟩ := List.getLast?_eq_some_iff.mp hslash
    refine ⟨front, by rw [List.dropLast_concat], ?_⟩
    intro dir hfront hdir
    obtain ⟨left, hleft⟩ := resolve_append hfront hdir
    rw [realPath, hleft, resolve_cons]
    apply resolve_nil
  · exact ⟨destDir, rfl, fun dir h _ => h⟩

/-- An entry that is made in a directory is a new one of it. -/
theorem create_of_newEntry_joinPath {entry : Entry} {loc : Location}
    (h : t.newEntry (joinPath destDir [name]) entry = .ok (t', loc)) :
  ∃ dir, t.realPath destDir = some dir ∧ t.create dir name entry = some t'
  := by
  obtain ⟨head, hjoin, hhead⟩ := t.realPath_of_joinPath destDir name
  rw [hjoin] at h
  obtain ⟨dir, last, hpath, hreal, hcreate, -, -⟩ := create_of_newEntry h
  rw [List.dropLast_concat] at hpath hreal
  cases List.append_cancel_left hpath
  refine ⟨dir, hhead dir hreal ?_, hcreate⟩
  exact (create_isSome.mp (Option.isSome_iff_exists.mpr ⟨t', hcreate⟩)).1

/-- The location that is opened where nothing has the name. -/
theorem opened_of_vacant {target : Location} (hplain : Plain name) (hvacant : Vacant t destDir name)
    (h : t.opened maxLinks [] (joinPath destDir [name]) = some target) :
  ∃ dir, t.realPath destDir = some dir ∧ t.lookup dir = some .dir ∧ target = dir ++ [name]
    ∧ t.lookup target = none
  := by
  obtain ⟨head, hjoin, hhead⟩ := t.realPath_of_joinPath destDir name
  rw [hjoin] at h
  obtain ⟨dir, left, hresolve, hdir, hname⟩ := resolve_of_opened t.lookup_nil h
  have hdest := hhead dir hresolve hdir
  have hnew := hvacant dir hdest
  rw [opened_cons, dots_eq_none_iff.mpr hplain] at hname
  dsimp only at hname
  rw [hnew] at hname
  dsimp only at hname
  rw [if_pos (by rfl)] at hname
  cases hname
  exact ⟨dir, hdest, hdir, rfl, hnew⟩

/-- There is nothing at a path where nothing has the name. -/
theorem stat_of_vacant (hplain : Plain name) (hvacant : Vacant t destDir name) :
  t.stat (joinPath destDir [name]) = none
  := by
  rw [stat]
  cases hreal : t.realPath (joinPath destDir [name]) with
  | none => rfl
  | some target =>
      obtain ⟨dir, -, -, -, hnone⟩ := opened_of_vacant hplain hvacant (opened_of_resolve hreal)
      apply hnone

/-- It is no directory. -/
theorem isDir_of_vacant (hplain : Plain name) (hvacant : Vacant t destDir name) :
  t.isDir (joinPath destDir [name]) = false
  := by
  rw [isDir, stat_of_vacant hplain hvacant]
  rfl

/-- A file that is written where nothing is is a new one. -/
theorem create_of_writeAt {dir : Location} {content : List UInt8} (hnew : t.lookup (dir ++ [name]) = none)
    (h : t.writeAt (dir ++ [name]) content = some t') :
  t.create dir name (.file content) = some t'
  := by
  rw [writeAt] at h
  split at h
  · rename_i old hold
    rw [hnew] at hold
    cases hold
  · rename_i entry hold
    rw [hnew] at hold
    cases hold
  · rw [List.getLast?_concat, Option.bind_some, List.dropLast_concat] at h
    apply h

/-- What is copied to where nothing has the name is a new entry, with the same content. -/
theorem create_of_copy2 {src : List String} (hplain : Plain name) (hvacant : Vacant t destDir name)
    (h : t.copy2 ctx src (joinPath destDir [name]) = (t', true)) :
  ∃ dir entry, t.realPath destDir = some dir ∧ t.lstat src = some entry ∧ entry ≠ .dir
    ∧ t.create dir name entry = some t'
  := by
  rw [copy2, isDir_of_vacant hplain hvacant, if_neg Bool.false_ne_true] at h
  split at h
  · cases h
  · split at h
    · rename_i absolute target hsrc
      split at h
      · cases h
      · rename_i t₁ loc hmade
        obtain ⟨dir, hdir, hcreate⟩ := create_of_newEntry_joinPath hmade
        split at h
        · cases h
          exact ⟨dir, _, hdir, hsrc, by simp, hcreate⟩
        · cases h
        · cases h
    · rename_i content hsrc
      split at h
      · cases h
      · rename_i loc hopened
        obtain ⟨dir, hdir, -, rfl, hnew⟩ := opened_of_vacant hplain hvacant hopened
        split at h
        · split at h
          · cases h
          · rename_i t₁ hwrite
            cases h
            exact ⟨dir, _, hdir, hsrc, by simp, create_of_writeAt hnew hwrite⟩
        · cases h
        · cases h
    · cases h

/-- A source that is copied to where nothing has the name takes nothing away, also if it is not copied to
its end. -/
theorem grows_copy2 (src : List String) (hplain : Plain name) (hvacant : Vacant t destDir name) :
  Grows t (t.copy2 ctx src (joinPath destDir [name])).1
  := by
  rw [copy2, isDir_of_vacant hplain hvacant, if_neg Bool.false_ne_true]
  split
  · apply Grows.refl
  · split
    · split
      · apply Grows.refl
      · rename_i t₁ loc hmade
        have hgrows := grows_newEntry hmade
        split
        · apply hgrows
        · apply Grows.refl
        · apply hgrows
    · split
      · apply Grows.refl
      · rename_i loc hopened
        obtain ⟨dir, -, -, rfl, hnew⟩ := opened_of_vacant hplain hvacant hopened
        have hwritten : ∀ content t', t.writeAt (dir ++ [name]) content = some t' → Grows t t' :=
          fun _ _ hwrite => grows_create (create_of_writeAt hnew hwrite)
        split
        · split
          · apply Grows.refl
          · rename_i t₁ hwrite
            apply hwritten _ _ hwrite
        · apply Grows.refl
        · rename_i left _
          cases hwrite : t.writeAt (dir ++ [name]) left with
          | none => apply Grows.refl
          | some t₁ => apply hwritten _ _ hwrite
    · apply Grows.refl

/-- A source that is copied to where nothing has the name takes nothing away. -/
theorem grows_copyItem (limit : ℕ) (source : List String) (hplain : Plain name)
    (hvacant : Vacant t destDir name) :
  Grows t (t.copyItem ctx limit source (joinPath destDir [name])).1
  := by
  rw [copyItem]
  split
  · apply grows_copytree
  · apply grows_copy2 source hplain hvacant

/-! ### A directory that was copied -/

/-- What is at a location, and below it, is also at another. -/
def Contains (t t' : FileTree) (src dst : Location) : Prop :=
  ∀ rest entry, t.lookup (src ++ rest) = some entry → t'.lookup (dst ++ rest) = some entry

/-- A directory that was copied is there once more. -/
theorem contains_copyDir {n : ℕ} {src dir : Location} (hsrc : t.lookup src = some .dir)
    (h : copyDir ctx n t src dir name = (t', true)) :
  Contains t t' src (dir ++ [name])
  := by
  induction n generalizing t t' src dir name with
  | zero => cases h
  | succ n ih =>
      obtain ⟨-, t₁, hcreate, hcopies⟩ := copyDir_succ_eq_true h
      intro rest entry hentry
      cases rest with
      | nil =>
          rw [List.append_nil, hsrc] at hentry
          cases hentry
          have hgrows := @grows_copyEntries ctx _ (grows_copyDir ctx n) src (dir ++ [name])
            (t.names src) t₁
          rw [hcopies] at hgrows
          apply hgrows
          rw [List.append_nil, lookup_create hcreate, if_pos rfl]
      | cons e rest =>
          rw [← List.singleton_append, ← List.append_assoc] at hentry
          have hway := dir_or_eq_nil_of_lookup hentry
          have hthere : ∃ here, t.lookup (src ++ [e]) = some here := by
            rcases hway with hdir | ⟨-, hleaf, -⟩
            · exact ⟨_, hdir⟩
            · exact ⟨_, hleaf⟩
          obtain ⟨t₂, t₃, hbefore, hcopied, hafter⟩ :=
            copyEntry_of_copyEntries (grows_copyDir ctx n) (mem_names.mpr hthere) hcopies
          have hgrows : Grows t t₂ := (grows_create hcreate).trans hbefore
          have hassoc : dir ++ [name] ++ e :: rest = dir ++ [name] ++ [e] ++ rest := by simp
          rw [hassoc]
          apply hafter
          rcases hway with hdir | ⟨rfl, hleaf, hnot⟩
          · rw [copyEntry, hgrows _ _ hdir] at hcopied
            apply ih (hgrows _ _ hdir) hcopied rest entry (hgrows _ _ hentry)
          · rw [copyEntry, hgrows _ _ hleaf] at hcopied
            have hmade : t₂.create (dir ++ [name]) e entry = some t₃ := by
              cases entry with
              | dir => contradiction
              | file content => apply (copyLeaf_eq_true_iff.mp hcopied).2
              | link absolute target => apply (copyLeaf_eq_true_iff.mp hcopied).2
            rw [List.append_nil, lookup_create hmade, if_pos rfl]

/-! ### What is removed after it was copied -/

/-- Removing a directory leaves what is not in it. -/
theorem lookup_rmtree {path : List String} {loc q : Location} (hloc : t.locate path = some loc)
    (hq : ¬ loc <+: q) :
  (t.rmtree path).1.lookup q = t.lookup q
  := by
  by_cases hdir : t.lookup loc = some .dir
  · by_cases hdone : (t.rmtree path).2 = true
    · obtain ⟨hiff, hspec⟩ := rmtree_spec hloc hdir
      rw [hspec (hiff.mp hdone), if_neg hq]
    · rw [rmtree, hloc] at hdone ⊢
      dsimp only at hdone ⊢
      rw [if_pos hdir] at hdone ⊢
      split
      · rw [lookup_removeBelow, if_neg fun h => hq h.1]
      · rename_i t₁ hrmdir
        rw [hrmdir] at hdone
        exact absurd rfl hdone
  · rw [rmtree, hloc]
    dsimp only
    rw [if_neg hdir]

/-- Removing what is no directory leaves what is not at its location. -/
theorem lookup_osRemove {path : List String} {loc q : Location} (hloc : t.locate path = some loc)
    (hne : loc ≠ []) (hq : ¬ loc <+: q) :
  (t.osRemove path).1.lookup q = t.lookup q
  := by
  rw [osRemove, hloc]
  dsimp only
  split
  · rfl
  · rfl
  · rw [lookup_remove hne, if_neg hq]

/-! ### What is kept -/

/-- Where entries are only added, all that was there is kept where it was. -/
theorem keeps_of_grows (h : Grows t t') :
  Keeps t t' id
  := ⟨h, fun _ _ _ _ heq => heq⟩

/-- What is copied and then removed is kept where it was copied to, if that does not lie in it. -/
theorem keeps_of_copied (t₁ : FileTree) {src dst : Location} (hsrc : t.lookup src ≠ none)
    (hnew : t.lookup dst = none) (houtside : ¬ src <+: dst) (hgrows : Grows t t₁)
    (hcontains : Contains t t₁ src dst) (hframe : ∀ q, ¬ src <+: q → t'.lookup q = t₁.lookup q) :
  Keeps t t' (moved src dst)
  := by
  have hbelow : ∀ q, t.lookup q ≠ none → ¬ dst <+: q := by
    rintro q hq ⟨rest, rfl⟩
    apply hq (lookup_append_eq_none hnew rest)
  constructor
  · intro q entry hq
    by_cases habove : src <+: q
    · obtain ⟨rest, rfl⟩ := habove
      rw [moved_append, hframe]
      · apply hcontains rest entry hq
      · intro hunder
        rcases List.prefix_or_prefix_of_prefix hunder (List.prefix_append dst rest) with h | h
        · apply houtside h
        · apply hbelow src hsrc h
    · rw [moved_of_not habove, hframe q habove]
      apply hgrows q entry hq
  · intro p q hp hq
    apply moved_inj (hbelow p hp) (hbelow q hq)

/-- What is renamed where nothing has the name is moved there. -/
theorem relocate_of_osRename {src : List String} (hplain : Plain name) (hvacant : Vacant t destDir name)
    (h : t.osRename src (joinPath destDir [name]) = some t') :
  ∃ loc dir, t.locate src = some loc ∧ t.realPath destDir = some dir
    ∧ t.relocate loc (dir ++ [name]) = some t'
  := by
  obtain ⟨head, hjoin, hhead⟩ := t.realPath_of_joinPath destDir name
  have hends : EndsPlain (head ++ [name]) := by
    rw [endsPlain_append (List.cons_ne_nil _ _), endsPlain_singleton]
    apply hplain
  rw [osRename, hjoin, trim_eq_self hends, basename, trim_eq_self hends, List.getLast?_concat,
    Option.getD_some, List.dropLast_concat] at h
  split at h
  · obtain ⟨loc, hloc, h⟩ := Option.bind_eq_some_iff.mp h
    obtain ⟨dir, hdir, h⟩ := Option.bind_eq_some_iff.mp h
    split at h
    · cases h
    · rename_i entry hentry
      split at h
      · cases h
      · rename_i hslash
        dsimp only at h
        have hnone : t.lookup (dir ++ [name]) = none := by
          by_contra hthere
          obtain ⟨old, hold⟩ := Option.ne_none_iff_exists'.mp hthere
          apply hthere (hvacant dir (hhead dir hdir (lookup_parent hold)))
        rw [hnone] at h
        dsimp only at h
        split at h
        · rename_i hsame
          rw [hsame, hnone] at hentry
          cases hentry
        · have hmovable : Movable t loc (dir ++ [name]) := relocate_isSome.mp (by rw [h]; rfl)
          have hdir' := hmovable.dir
          rw [List.dropLast_concat] at hdir'
          refine ⟨loc, dir, ?_, hhead dir hdir hdir', h⟩
          by_cases hkind : entry = .dir
          · rw [hkind] at hentry
            apply locate_of_trim hloc hentry
          · have hsrc : trim src = src := by
              by_contra hne
              apply hslash ⟨hkind, .inl hne⟩
            rw [hsrc] at hloc
            apply hloc
  · cases h

/-- A place at which nothing is, in a directory outside of something, is outside of it too. -/
theorem not_prefix_of_new {dir : Location} (hsrc : t.lookup loc ≠ none)
    (hnew : t.lookup (dir ++ [name]) = none) (houtside : ¬ loc <+: dir) :
  ¬ loc <+: dir ++ [name]
  := by
  intro habove
  rcases List.prefix_concat_iff.mp habove with rfl | habove
  · apply hsrc hnew
  · apply houtside habove

/-- What is not a directory is kept when it is made anew and then removed. -/
theorem keeps_osRemove_of_create {src : List String} {dir : Location} {entry : Entry} {t₁ : FileTree}
    (hloc : t.locate src = some loc) (hlookup : t.lookup loc = some entry) (hkind : entry ≠ .dir)
    (hcreate : t.create dir name entry = some t₁) (hnew : t.lookup (dir ++ [name]) = none)
    (houtside : ¬ loc <+: dir) :
  Keeps t (t₁.osRemove src).1 (moved loc (dir ++ [name]))
  := by
  have hgrows := grows_create hcreate
  have hsrc : t.lookup loc ≠ none := by
    rw [hlookup]
    simp
  apply keeps_of_copied t₁ hsrc hnew (not_prefix_of_new hsrc hnew houtside) hgrows
  · intro rest entry' hentry'
    have hnil : rest = [] := by
      by_contra hrest
      rw [lookup_of_append hrest hentry'] at hlookup
      apply hkind (Option.some_inj.mp hlookup).symm
    rw [hnil, List.append_nil, hlookup] at hentry'
    rw [hnil, List.append_nil, lookup_create hcreate, if_pos rfl, hentry']
  · intro q hq
    apply lookup_osRemove (resolve_of_grows hgrows hloc) _ hq
    rintro rfl
    rw [lookup_nil] at hlookup
    apply hkind (Option.some_inj.mp hlookup).symm

/-- A directory is kept when it is copied and then removed; when it could not be copied, nothing is
removed. -/
theorem keeps_copytree {limit : ℕ} {src : List String} {dir : Location}
    (hplain : Plain (basename src)) (hdest : t.realPath destDir = some dir)
    (hdir : t.lookup dir = some .dir) (hnew : t.lookup (dir ++ [basename src]) = none)
    (hloc : t.locate src = some loc) (hlookup : t.lookup loc = some .dir) (houtside : ¬ loc <+: dir) :
  ∀ t₁ done, t.copytree ctx limit src (joinPath destDir [basename src]) = (t₁, done) →
    Grows t t₁ ∧ (done = true → Keeps t (t₁.rmtree src).1 (moved loc (dir ++ [basename src])))
  := by
  intro t₁ done hdone
  have hgrows := grows_copytree ctx limit t src (joinPath destDir [basename src])
  have hreal : t.realPath src = some loc := by
    rw [realPath, resolve_true]
    · apply hloc
    · intro target htarget absolute names hlink
      cases hloc.symm.trans htarget
      rw [hlookup] at hlink
      cases hlink
  have hsrc : t.lookup loc ≠ none := by
    rw [hlookup]
    simp
  rw [hdone] at hgrows
  rw [copytree_eq ctx hreal hlookup hdest hdir hplain limit] at hdone
  use hgrows
  rintro rfl
  apply keeps_of_copied t₁ hsrc hnew (not_prefix_of_new hsrc hnew houtside) hgrows
  · apply contains_copyDir hlookup hdone
  · intro q hq
    apply lookup_rmtree (resolve_of_grows hgrows hloc) hq

/-- What is moved by copying is kept: it is copied to where nothing has the name, and then removed. -/
theorem keeps_moveByCopy {limit : ℕ} {src dst : List String} {dir : Location}
    (hplain : Plain (basename src)) (hdest : t.realPath destDir = some dir)
    (hdir : t.lookup dir = some .dir) (hnew : t.lookup (dir ++ [basename src]) = none)
    (houtside : ∀ loc ∈ t.locate src, ¬ loc <+: dir) :
  ∃ place, Keeps t (t.moveByCopy ctx limit src dst (joinPath destDir [basename src])).1 place
    ∧ ∀ q, (∀ loc ∈ t.locate src, ¬ loc <+: q) → place q = q
  := by
  have hvacant : Vacant t destDir (basename src) := by
    intro dir' hdir'
    cases hdest.symm.trans hdir'
    apply hnew
  have hstays (t₁ : FileTree) (hgrows : Grows t t₁) :
      ∃ place, Keeps t t₁ place ∧ ∀ q, (∀ loc ∈ t.locate src, ¬ loc <+: q) → place q = q :=
    ⟨id, keeps_of_grows hgrows, fun _ _ => rfl⟩
  -- a source that was copied as one entry
  have hentry : ∀ t₁ entry, t.lstat src = some entry → entry ≠ .dir →
      t.create dir (basename src) entry = some t₁ →
      ∃ place, Keeps t (t₁.osRemove src).1 place
        ∧ ∀ q, (∀ loc ∈ t.locate src, ¬ loc <+: q) → place q = q := by
    intro t₁ entry hlstat hkind hcreate
    obtain ⟨loc, hloc, hlookup⟩ := Option.bind_eq_some_iff.mp hlstat
    use moved loc (dir ++ [basename src])
    use keeps_osRemove_of_create hloc hlookup hkind hcreate hnew (houtside loc hloc)
    intro q hq
    apply moved_of_not (hq loc hloc)
  rw [moveByCopy]
  split
  · rename_i absolute target hlink
    split
    · apply hstays t (Grows.refl t)
    · rename_i t₁ made hmade
      obtain ⟨dir', hdir', hcreate⟩ := create_of_newEntry_joinPath hmade
      cases hdest.symm.trans hdir'
      apply hentry t₁ _ hlink (by simp) hcreate
  · rename_i hnot
    split
    · rename_i hisDir
      split
      · apply hstays t (Grows.refl t)
      · have hlink : t.isLink src = false := by
          rw [isLink]
          split
          · rename_i absolute target hlink
            exact (hnot absolute target hlink).elim
          · rfl
        have hlstat : t.lstat src = some .dir := by
          apply (t.isDir_and_not_isLink src).mp
          rw [hisDir, hlink]
          rfl
        obtain ⟨loc, hloc, hlookup⟩ := Option.bind_eq_some_iff.mp hlstat
        have hcopied := @keeps_copytree t loc ctx destDir limit src dir hplain hdest hdir hnew hloc hlookup
          (houtside loc hloc)
        split
        · rename_i t₁ hdone
          apply hstays t₁ (hcopied t₁ false hdone).1
        · rename_i t₁ hdone
          use moved loc (dir ++ [basename src])
          use (hcopied t₁ true hdone).2 rfl
          intro q hq
          apply moved_of_not (hq loc hloc)
    · split
      · rename_i t₁ hdone
        have hgrows := @grows_copy2 t ctx destDir _ src hplain hvacant
        rw [hdone] at hgrows
        apply hstays t₁ hgrows
      · rename_i t₁ hdone
        obtain ⟨dir', entry, hdir', hlstat, hkind, hcreate⟩ := create_of_copy2 hplain hvacant hdone
        cases hdest.symm.trans hdir'
        apply hentry t₁ entry hlstat hkind hcreate

end

end FileTree

/-! ### Runs -/

/-- A change can be made without a loss: what it makes has a name that nothing has in the directory it goes
to, and what is moved is not moved to a directory inside of it. -/
structure FilesChange.Clear (t : FileTree) (change : FilesChange) : Prop where
  plain : FileTree.Plain change.name
  vacant : FileTree.Vacant t change.destDir change.name
  outside : change.isMove = true → ∃ dir ∈ t.realPath change.destDir, t.lookup dir = some .dir
    ∧ ∀ loc ∈ t.locate change.source, ¬ loc <+: dir

instance (t : FileTree) (destDir : List String) (name : String) :
    Decidable (FileTree.Vacant t destDir name) :=
  inferInstanceAs (Decidable (∀ dir ∈ t.realPath destDir, t.lookup (dir ++ [name]) = none))

instance (t : FileTree) (change : FilesChange) : Decidable (change.Clear t) :=
  decidable_of_iff
    (FileTree.Plain change.name ∧ FileTree.Vacant t change.destDir change.name
      ∧ (change.isMove = true → ∃ dir ∈ t.realPath change.destDir, t.lookup dir = some .dir
        ∧ ∀ loc ∈ t.locate change.source, ¬ loc <+: dir))
    ⟨fun ⟨plain, vacant, outside⟩ => ⟨plain, vacant, outside⟩, fun h => ⟨h.plain, h.vacant, h.outside⟩⟩

/-- What the check at the destination is good for: a change that is made right after it is made where
nothing has the name, unless that is a link that leads nowhere. -/
theorem FilesChange.vacant_of_check {t : FileTree} {change : FilesChange}
    (hdir : t.isDir change.destDir = true) (hcheck : t.pathExists change.dest = false)
    (hlink : ∀ dir ∈ t.realPath change.destDir, ∀ absolute target,
      t.lookup (dir ++ [change.name]) ≠ some (.link absolute target)) :
  FileTree.Plain change.name ∧ FileTree.Vacant t change.destDir change.name
  := by
  obtain ⟨dir, hdest, hlookup⟩ := Option.bind_eq_some_iff.mp (of_decide_eq_true hdir)
  have hplain := plain_of_not_pathExists hdest hlookup hcheck
  constructor
  · apply hplain
  · intro dir' hdir'
    cases hdest.symm.trans hdir'
    by_contra hthere
    obtain ⟨entry, hentry⟩ := Option.ne_none_iff_exists'.mp hthere
    obtain ⟨head, hjoin, hhead⟩ := FileTree.joinPath_eq hdest [change.name]
    obtain ⟨left, hleft⟩ := FileTree.resolve_append hhead hlookup
    have hreal : t.realPath change.dest = some (dir ++ [change.name]) := by
      rw [FilesChange.dest, hjoin, FileTree.realPath, hleft, FileTree.resolve_cons,
        FileTree.dots_eq_none_iff.mpr hplain]
      dsimp only
      rw [hentry]
      cases entry with
      | link absolute target => exact absurd hentry (hlink dir hdest absolute target)
      | file content => rfl
      | dir => apply FileTree.resolve_nil
    rw [FileTree.pathExists, FileTree.stat, hreal, Option.bind_some, hentry] at hcheck
    cases hcheck

/-- The location of what a change takes away. -/
def FilesChange.taken (t : FileTree) : FilesChange → Option FileTree.Location
  | .rename path _ => t.locate path
  | .copy _ _ => none
  | .move source _ => t.locate source

/-- A change that can be made without a loss keeps everything, and moves only what is at the location of its
source. -/
theorem FilesChange.Clear.keeps_apply {t : FileTree} {change : FilesChange} (ctx : CopyContext)
    (refused : Bool) (limit : ℕ) (h : change.Clear t) :
  ∃ place, FileTree.Keeps t (change.apply ctx refused limit t).1 place
    ∧ ∀ q, (∀ loc ∈ change.taken t, ¬ loc <+: q) → place q = q
  := by
  obtain ⟨hplain, hvacant, hmove⟩ := h
  have hstays : ∃ place, FileTree.Keeps t t place
      ∧ ∀ q, (∀ loc ∈ change.taken t, ¬ loc <+: q) → place q = q :=
    ⟨id, FileTree.Keeps.refl t, fun _ _ => rfl⟩
  cases change with
  | rename path newName =>
      rw [FilesChange.apply]
      split
      · rename_i t' hrename
        rw [Option.ite_none_left_eq_some] at hrename
        obtain ⟨loc, dir, hloc, -, hrelocate⟩ :=
          FileTree.relocate_of_osRename hplain hvacant hrename.2
        exact ⟨_, FileTree.keeps_relocate hrelocate, fun q hq => FileTree.moved_of_not (hq loc hloc)⟩
      · apply hstays
  | copy source destDir =>
      exact ⟨id, FileTree.keeps_of_grows (FileTree.grows_copyItem limit source hplain hvacant),
        fun _ _ => rfl⟩
  | move source destDir =>
      obtain ⟨dir, hdest, hdir, houtside⟩ := hmove rfl
      rw [FilesChange.apply, FileTree.move]
      dsimp only
      have hnotDir : t.isDir (FilesChange.move source destDir).dest = false :=
        FileTree.isDir_of_vacant hplain hvacant
      rw [hnotDir, if_neg Bool.false_ne_true]
      split
      · rename_i t' hrename
        rw [Option.ite_none_left_eq_some] at hrename
        obtain ⟨loc, dir', hloc, -, hrelocate⟩ :=
          FileTree.relocate_of_osRename hplain hvacant hrename.2
        exact ⟨_, FileTree.keeps_relocate hrelocate, fun q hq => FileTree.moved_of_not (hq loc hloc)⟩
      · apply FileTree.keeps_moveByCopy hplain hdest hdir (hvacant dir hdest) houtside

namespace FilesWorker

/-- A step can be taken without a loss. -/
def Clear (s : FilesWorker) : FilesStep → Prop
  | .change i _ _ _ => ∀ change ∈ s.pending[i]?, change.Clear s.tree
  | _ => True

instance (s : FilesWorker) : DecidablePred s.Clear
  | .mkdir _ => isTrue trivial
  | .check _ => isTrue trivial
  | .change i _ _ _ => inferInstanceAs (Decidable (∀ change ∈ s.pending[i]?, change.Clear s.tree))

/-- The location of what a step takes away. -/
def taken (s : FilesWorker) : FilesStep → Option FileTree.Location
  | .change i _ _ _ => s.pending[i]?.bind (FilesChange.taken s.tree)
  | _ => none

/-- A step without a loss keeps everything. -/
theorem keeps_of_step {s s' : FilesWorker} {a : FilesStep} (hclear : s.Clear a)
    (hstep : machine.step s a = some s') :
  ∃ place, FileTree.Keeps s.tree s'.tree place
    ∧ ∀ q, (∀ loc ∈ s.taken a, ¬ loc <+: q) → place q = q
  := by
  cases a with
  | mkdir path =>
      change (match FileTree.mkdir (fun _ => true) s.tree path with
        | .error _ => some s
        | .ok (t, _) => some { s with tree := t }) = some s' at hstep
      split at hstep
      · cases hstep
        exact ⟨id, FileTree.Keeps.refl _, fun _ _ => rfl⟩
      · rename_i t loc hmkdir
        cases hstep
        have hnew := (FileTree.newEntry_of_mkdir hmkdir).1
        exact ⟨id, FileTree.keeps_of_grows (FileTree.grows_newEntry hnew), fun _ _ => rfl⟩
  | check change =>
      have htree : s'.tree = s.tree := by
        change (if _ then some s else some { s with pending := s.pending ++ [change] }) = some s' at hstep
        split at hstep
        · cases hstep
          rfl
        · cases hstep
          rfl
      rw [htree]
      exact ⟨id, FileTree.Keeps.refl _, fun _ _ => rfl⟩
  | change i ctx refused limit =>
      obtain ⟨change, hpending, rfl⟩ := Option.map_eq_some_iff.mp hstep
      obtain ⟨place, hkeeps, hstays⟩ := (hclear change hpending).keeps_apply ctx refused limit
      refine ⟨place, hkeeps, ?_⟩
      intro q hq
      apply hstays
      intro loc hloc
      apply hq
      rw [taken, hpending]
      apply hloc

/-- A folder is moved to another file system while it is to be renamed there. -/
def moveAndRename : List FilesStep :=
  [.mkdir ["", "e"], .check (.move ["", "d"] ["", "e"]), .check (.rename ["", "e", "d"] "f"),
    .change 0 .free true 3, .change 0 .free false 3]

/-- A folder is moved into itself by a link to it, and is gone with everything in it. -/
example :
  (folderWithFile.create [] "l" (.link true ["d"])).map
      (fun t => ((FilesChange.move ["", "d"] ["", "l"]).apply .free false 3 t).1.lookup ["d"])
    = some none
  := by decide +kernel

/-- A file replaces a link that leads nowhere. -/
example :
  (folderWithFile.create ["d"] "l" (.link true ["missing"])).map
      (fun t => (t.pathExists ["", "d", "l"],
        ((FilesChange.rename ["", "d", "x"] "l").apply .free false 3 t).1.lookup ["d", "l"]))
    = some (false, some (.file []))
  := by decide +kernel

end FilesWorker
