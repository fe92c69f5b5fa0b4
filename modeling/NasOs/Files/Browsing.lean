import Mathlib.Data.String.Basic
import NasOs.Files.Archive
import NasOs.Library.Traverse

/-!
# Listing and searching

A directory is listed with directories first, each kind in the order of the names without regard to
case (`listed`).  A search walks through everything below a directory, links to directories not followed,
and stops once it has found 500 entries: what it returns is there, has the query in its name and is
returned once, and where it did not stop nothing that is there is missing (`searched`), but for what the
worker may not look at.  It passes over directories that it may not list.

Nothing changes while a directory is listed or searched, so that no entry vanishes on the way.
-/

/-- `FileEntry`, less what nothing here depends on: the size, the time and the owner. -/
structure FileEntry where
  name : String
  path : List String
  isDir : Bool
  deriving DecidableEq

/-- `MAX_SEARCH_RESULTS`. -/
def maxSearchResults : ℕ :=
  500

namespace FileTree

/-- `_entry`, if it raises nothing.  What can only be looked at as a link is no directory. -/
def entry (access : FileAccess) (t : FileTree) (path : List String) : Option FileEntry :=
  if access.stats path && t.pathExists path then some ⟨path.getLast?.getD "", path, t.isDir path⟩
  else if access.lstats path then some ⟨path.getLast?.getD "", path, false⟩
  else none

/-- An entry is that of its path. -/
theorem entry_eq_some {access : FileAccess} {t : FileTree} {path : List String} {e : FileEntry}
    (h : t.entry access path = some e) :
  e.path = path ∧ e.name = path.getLast?.getD ""
  := by
  rw [entry] at h
  split at h
  · cases h
    exact ⟨rfl, rfl⟩
  · split at h
    · cases h
      exact ⟨rfl, rfl⟩
    · cases h

/-- `os.walk` in `n` levels: what leads to each directory, with the names of the directories and of the
files in it. -/
def walkDirs (access : FileAccess) (t : FileTree) :
    ℕ → Location → List String → List (List String × List String × List String)
  | 0, _, _ => []
  | n + 1, top, rel =>
      if access.lists (top ++ rel) then
        (rel, (t.names (top ++ rel)).filter fun name => t.isDirAt access (top ++ rel ++ [name]),
            (t.names (top ++ rel)).filter fun name => !t.isDirAt access (top ++ rel ++ [name]))
          :: (((t.names (top ++ rel)).filter fun name => t.isDirAt access (top ++ rel ++ [name])).filter
              fun name => t.lookup (top ++ rel ++ [name]) = some .dir).flatMap
            fun name => t.walkDirs access n top (rel ++ [name])
      else []

/-- What the loops of a search come by in a directory: the directories first. -/
def visited (dir : List String × List String × List String) : List (List String) :=
  (dir.2.1 ++ dir.2.2).map fun name => dir.1 ++ [name]

/-- The names of a directory are visited, and no others. -/
theorem mem_visited_names {access : FileAccess} {t : FileTree} {loc rel rel' : List String} :
  rel' ∈ visited (rel, (t.names loc).filter (fun name => t.isDirAt access (loc ++ [name])),
      (t.names loc).filter fun name => !t.isDirAt access (loc ++ [name]))
    ↔ ∃ name ∈ t.names loc, rel' = rel ++ [name]
  := by
  rw [visited, List.mem_map]
  constructor
  · rintro ⟨name, hname, rfl⟩
    refine ⟨name, ?_, rfl⟩
    rcases List.mem_append.mp hname with hname | hname
    · apply List.mem_of_mem_filter hname
    · apply List.mem_of_mem_filter hname
  · rintro ⟨name, hname, rfl⟩
    refine ⟨name, ?_, rfl⟩
    rw [List.mem_append, List.mem_filter, List.mem_filter]
    cases t.isDirAt access (loc ++ [name]) with
    | true => exact .inl ⟨hname, rfl⟩
    | false => exact .inr ⟨hname, rfl⟩

/-- A walk comes by every entry below that it reaches, and no other. -/
theorem mem_walkDirs {access : FileAccess} {t : FileTree} {n : ℕ} {top rel rel' : List String} :
  rel' ∈ (t.walkDirs access n top rel).flatMap visited
    ↔ ∃ rest, rest ≠ [] ∧ rest.length ≤ n ∧ rel' = rel ++ rest
        ∧ (∃ entry, t.lookup (top ++ rel') = some entry) ∧ Reached access (top ++ rel) rest
  := by
  induction n generalizing rel with
  | zero =>
      rw [walkDirs]
      constructor
      · intro h
        cases h
      · rintro ⟨rest, hne, hlength, -⟩
        exact absurd (List.length_eq_zero_iff.mp (Nat.le_zero.mp hlength)) hne
  | succ n ih =>
      rw [walkDirs]
      by_cases hlists : access.lists (top ++ rel) = true
      · rw [if_pos hlists, List.flatMap_cons, List.mem_append, mem_visited_names, List.flatMap_assoc,
          List.mem_flatMap]
        simp only [ih, mem_names, ← List.append_assoc]
        constructor
        · rintro (⟨name, ⟨entry, hentry⟩, rfl⟩ | ⟨name, hname, rest, hne, hlength, rfl, hentry, hreached⟩)
          · refine ⟨[name], by simp, by simp, rfl, ⟨entry, ?_⟩, reached_cons.mpr ⟨hlists, ?_⟩⟩
            · rw [← List.append_assoc]
              apply hentry
            · intro front hfront hne
              exact absurd (List.prefix_nil.mp hfront) hne
          · exact ⟨name :: rest, by simp, by simpa using hlength, by simp, hentry,
              reached_cons.mpr ⟨hlists, hreached⟩⟩
        · rintro ⟨rest, hne, hlength, rfl, ⟨entry, hentry⟩, hreached⟩
          obtain ⟨name, rest', rfl⟩ := List.exists_cons_of_ne_nil hne
          by_cases hrest : rest' = []
          · left
            subst hrest
            refine ⟨name, ⟨entry, ?_⟩, rfl⟩
            rw [List.append_assoc]
            apply hentry
          · right
            have hpath : top ++ (rel ++ name :: rest') = (top ++ rel ++ [name]) ++ rest' := by simp
            have hdir : t.lookup (top ++ rel ++ [name]) = some .dir := by
              apply lookup_of_append hrest
              rw [← hpath]
              apply hentry
            refine ⟨name, ?_, rest', hrest, by simpa using hlength, by simp, ⟨entry, hentry⟩,
              (reached_cons.mp hreached).2⟩
            rw [List.mem_filter, List.mem_filter, mem_names, isDirAt, hdir]
            exact ⟨⟨⟨_, rfl⟩, rfl⟩, decide_eq_true rfl⟩
      · rw [if_neg hlists]
        constructor
        · intro h
          cases h
        · rintro ⟨rest, hne, -, -, -, hreached⟩
          obtain ⟨name, rest', rfl⟩ := List.exists_cons_of_ne_nil hne
          exact absurd (reached_cons.mp hreached).1 hlists

/-- A walk comes by an entry once. -/
theorem nodup_walkDirs (access : FileAccess) (t : FileTree) (n : ℕ) (top rel : List String) :
  ((t.walkDirs access n top rel).flatMap visited).Nodup
  := by
  induction n generalizing rel with
  | zero => apply List.nodup_nil
  | succ n ih =>
      rw [walkDirs]
      split
      · rw [List.flatMap_cons, List.flatMap_assoc, List.nodup_append', List.nodup_flatMap]
        have hnames := t.nodup_names (top ++ rel)
        refine ⟨?_, ⟨?_, ?_⟩, ?_⟩
        · apply List.Nodup.map
          · intro name name' h
            apply List.singleton_inj.mp (List.append_cancel_left h)
          · apply (List.filter_append_perm _ _).nodup_iff.mpr hnames
        · intro name _
          apply ih
        · -- two directories have different names, which everything below them keeps
          apply List.Pairwise.imp _ ((hnames.filter _).filter _)
          intro name name' hne rel' h h'
          obtain ⟨rest, -, -, rfl, -⟩ := mem_walkDirs.mp h
          obtain ⟨rest', -, -, heq, -⟩ := mem_walkDirs.mp h'
          rw [List.append_assoc, List.append_assoc] at heq
          apply hne (List.cons.inj (List.append_cancel_left heq)).1
        · intro rel' h h'
          obtain ⟨name, -, rfl⟩ := mem_visited_names.mp h
          obtain ⟨name', -, h'⟩ := List.mem_flatMap.mp h'
          obtain ⟨rest, hne, -, heq, -⟩ := mem_walkDirs.mp h'
          rw [List.append_assoc] at heq
          apply hne (List.cons.inj (List.append_cancel_left heq)).2.symm
      · apply List.nodup_nil

end FileTree

/-- The names that lead on from a path can be read off a joined path. -/
theorem joinPath_injective (path : List String) :
  Function.Injective (FileTree.joinPath path)
  := by
  intro rel rel' h
  rw [FileTree.joinPath, FileTree.joinPath] at h
  split at h
  · apply List.append_cancel_left h
  · apply List.append_cancel_left h

/-- A joined path ends as the names do that it was joined with. -/
theorem getLast?_joinPath {path rel : List String} (hne : rel ≠ []) :
  (FileTree.joinPath path rel).getLast? = rel.getLast?
  := by
  rw [FileTree.joinPath]
  split
  · apply List.getLast?_append_of_ne_nil _ hne
  · apply List.getLast?_append_of_ne_nil _ hne

namespace FilesHandlers

/-! ### Listing a directory -/

/-- What a listing is sorted by: directories come first, then the names go by what they are in lower case. -/
def listedBefore (lower : String → String) (e e' : FileEntry) : Bool :=
  if e.isDir = e'.isDir then lower e.name ≤ lower e'.name else e.isDir

/-- `files.list`. -/
def listDir (lower : String → String) (access : FileAccess) (t : FileTree) (path : List String) :
    Option (List FileEntry) :=
  match t.realPath path with
  | none => none
  | some loc =>
      if t.lookup loc = some .dir ∧ access.lists loc then
        some (((t.names loc).filterMap fun name =>
          t.entry access (FileTree.joinPath path [name])).mergeSort (listedBefore lower))
      else none

/-- The order of a listing is transitive. -/
theorem listedBefore_trans {lower : String → String} (a b c : FileEntry) :
  listedBefore lower a b → listedBefore lower b c → listedBefore lower a c
  := by
  simp only [listedBefore]
  cases a.isDir <;> cases b.isDir <;> cases c.isDir <;> simp
  · apply le_trans
  · apply le_trans

/-- The order of a listing is total. -/
theorem listedBefore_total {lower : String → String} (a b : FileEntry) :
  listedBefore lower a b || listedBefore lower b a
  := by
  simp only [listedBefore]
  cases a.isDir <;> cases b.isDir <;> simp
  · apply le_total
  · apply le_total

/-! ### Searching -/

/-- The entry to which some names lead on from the path of a search, when the last has the query in it. -/
def matched (lower : String → String) (access : FileAccess) (t : FileTree) (path : List String)
    (query : String) (rel : List String) : Option FileEntry :=
  if (lower query).toList <:+: (lower (rel.getLast?.getD "")).toList then
    t.entry access (FileTree.joinPath path rel)
  else none

/-- `files.search`. -/
def search (lower : String → String) (access : FileAccess) (t : FileTree) (path : List String)
    (query : String) : List FileEntry :=
  List.collected (((t.realPath path).toList.flatMap fun top => t.walkDirs access t.depth top []).foldlM
    (fun found dir =>
      List.collectUntil maxSearchResults (matched lower access t path query) found
        (FileTree.visited dir)) [])

end FilesHandlers

/-- What some names lead on to from the path of a directory, when each directory on the way can be
listed. -/
def FileTree.HasBelow (access : FileAccess) (t : FileTree) (path rel : List String) : Prop :=
  rel ≠ [] ∧ ∃ top entry, t.realPath path = some top ∧ t.lookup (top ++ rel) = some entry
    ∧ FileTree.Reached access top rel

/-- The names that a search comes by lead to what is below, once each. -/
theorem mem_searched {access : FileAccess} {t : FileTree} {path rel : List String} :
  rel ∈ ((t.realPath path).toList.flatMap fun top =>
      t.walkDirs access t.depth top []).flatMap FileTree.visited
    ↔ t.HasBelow access path rel
  := by
  rw [FileTree.HasBelow]
  cases t.realPath path with
  | none => simp
  | some top =>
      rw [Option.toList_some, List.flatMap_singleton, FileTree.mem_walkDirs]
      constructor
      · rintro ⟨rest, hne, -, rfl, ⟨entry, hentry⟩, hreached⟩
        rw [List.append_nil] at hreached
        exact ⟨hne, top, entry, rfl, hentry, hreached⟩
      · rintro ⟨hne, _, entry, htop, hentry, hreached⟩
        obtain rfl := Option.some_inj.mp htop
        refine ⟨rel, hne, ?_, rfl, ⟨entry, hentry⟩, by simpa using hreached⟩
        have hlength := FileTree.length_le_depth hentry
        rw [List.length_append] at hlength
        omega

/-- No names are come by twice. -/
theorem nodup_searched (access : FileAccess) (t : FileTree) (path : List String) :
  (((t.realPath path).toList.flatMap fun top =>
    t.walkDirs access t.depth top []).flatMap FileTree.visited).Nodup
  := by
  cases t.realPath path with
  | none => apply List.nodup_nil
  | some top =>
      rw [Option.toList_some, List.flatMap_singleton]
      apply FileTree.nodup_walkDirs

/-- What a search should find. -/
structure Searched (lower : String → String) (access : FileAccess) (t : FileTree) (path : List String)
    (query : String) (found : List FileEntry) : Prop where
  length_le : found.length ≤ maxSearchResults
  nodup : (found.map FileEntry.path).Nodup
  sound : ∀ e ∈ found, ∃ rel, t.HasBelow access path rel
    ∧ t.entry access (FileTree.joinPath path rel) = some e
    ∧ (lower query).toList <:+: (lower e.name).toList
  complete : found.length < maxSearchResults → ∀ rel, t.HasBelow access path rel →
    (lower query).toList <:+: (lower (rel.getLast?.getD "")).toList →
    ∀ e, t.entry access (FileTree.joinPath path rel) = some e → e ∈ found

/-- A search returns what is there and has the query in its name, once each, and all of that unless there is
more than it returns at most, as far as the worker may list the directories and look at what is in
them. -/
theorem FilesHandlers.searched (lower : String → String) (access : FileAccess) (t : FileTree)
    (path : List String) (query : String) :
  Searched lower access t path query (FilesHandlers.search lower access t path query)
  := by
  rw [FilesHandlers.search, List.foldlM_collectUntil, List.collected_collectUntil _ _ (by decide),
    List.nil_append]
  set rels := ((t.realPath path).toList.flatMap fun top =>
    t.walkDirs access t.depth top []).flatMap FileTree.visited with hrels
  have hmem {e : FileEntry} : e ∈ rels.filterMap (FilesHandlers.matched lower access t path query) ↔
      ∃ rel, t.HasBelow access path rel ∧ (lower query).toList <:+: (lower (rel.getLast?.getD "")).toList
        ∧ t.entry access (FileTree.joinPath path rel) = some e := by
    rw [List.mem_filterMap]
    simp only [hrels, mem_searched, FilesHandlers.matched, Option.ite_none_right_eq_some]
  constructor
  · apply List.length_take_le
  · apply List.Nodup.sublist ((List.take_sublist _ _).map _)
    rw [List.map_filterMap]
    apply List.Nodup.filterMap _ (nodup_searched access t path)
    have hrel : ∀ {rel : List String} {p : List String},
        p ∈ (FilesHandlers.matched lower access t path query rel).map FileEntry.path →
          p = FileTree.joinPath path rel := by
      intro rel p hp
      obtain ⟨e, he, rfl⟩ := Option.map_eq_some_iff.mp hp
      rw [FilesHandlers.matched, Option.ite_none_right_eq_some] at he
      apply (FileTree.entry_eq_some he.2).1
    intro rel rel' p hp hp'
    apply joinPath_injective path
    rw [← hrel hp, ← hrel hp']
  · intro e he
    obtain ⟨rel, hbelow, hname, hentry⟩ := hmem.mp (List.mem_of_mem_take he)
    refine ⟨rel, hbelow, hentry, ?_⟩
    rw [(FileTree.entry_eq_some hentry).2, getLast?_joinPath hbelow.1]
    apply hname
  · intro hlength rel hbelow hname e hentry
    rw [List.take_of_length_le]
    · rw [hmem]
      exact ⟨rel, hbelow, hname, hentry⟩
    · rw [List.length_take] at hlength
      omega

/-- A listing has everything in a directory that can be looked at once, directories first and then by
name. -/
theorem FilesHandlers.listed {lower : String → String} {access : FileAccess} {t : FileTree}
    {path : List String} {found : List FileEntry}
    (h : FilesHandlers.listDir lower access t path = some found) :
  found.Pairwise (fun e e' => FilesHandlers.listedBefore lower e e') ∧ (found.map FileEntry.path).Nodup
    ∧ ∀ e, e ∈ found ↔ ∃ name, t.HasBelow access path [name]
      ∧ t.entry access (FileTree.joinPath path [name]) = some e
  := by
  rw [FilesHandlers.listDir.eq_def] at h
  split at h
  · cases h
  · rename_i loc hloc
    split at h
    · rename_i hlists
      obtain rfl := Option.some_inj.mp h
      refine ⟨?_, ?_, fun e => ?_⟩
      · apply List.pairwise_mergeSort FilesHandlers.listedBefore_trans FilesHandlers.listedBefore_total
      · rw [((List.mergeSort_perm _ _).map _).nodup_iff, List.map_filterMap]
        apply List.Nodup.filterMap _ (t.nodup_names loc)
        intro name name' p hp hp'
        obtain ⟨e, he, rfl⟩ := Option.map_eq_some_iff.mp hp
        obtain ⟨e', he', hpath⟩ := Option.map_eq_some_iff.mp hp'
        rw [(FileTree.entry_eq_some he).1, (FileTree.entry_eq_some he').1] at hpath
        apply List.singleton_inj.mp (joinPath_injective path hpath.symm)
      · rw [List.mem_mergeSort, List.mem_filterMap]
        simp only [FileTree.mem_names, FileTree.HasBelow]
        constructor
        · rintro ⟨name, ⟨entry, hentry⟩, he⟩
          refine ⟨name, ⟨List.cons_ne_nil _ _, loc, entry, hloc, hentry, ?_⟩, he⟩
          rw [FileTree.reached_cons]
          refine ⟨hlists.2, ?_⟩
          intro front hfront hne
          exact absurd (List.prefix_nil.mp hfront) hne
        · rintro ⟨name, ⟨-, loc', entry, hloc', hentry, -⟩, he⟩
          rw [hloc, Option.some_inj] at hloc'
          rw [← hloc'] at hentry
          exact ⟨name, ⟨entry, hentry⟩, he⟩
    · cases h
