import NasOs.Files.Deleting

/-!
# Copying files

A `files.copy` job copies each source into a directory in which there must be nothing of its name.  A
directory is copied from the top down: what is in it is listed, the new directory is made, and then each
entry is copied, a directory again in this way.  What cannot be copied does not keep the rest from being
copied, and stays where it was made.

When the new directory lies in one that was listed but not yet visited, it is found there and copied into
itself, without an end; the source itself is no such place, for it is listed before anything is made in it.
And where the directory that it is copied into is missing, it is made, and the ones above it.  So a job that
can make anything at all adds a copy of the source and nothing else if and only if the directory that it
is copied into is there and does not lie inside the source, and each entry can be copied (`copyJob_iff`).
-/

/-! ### What the system allows -/

/-- How the copying of an entry that is no directory ends.  An `OSError` leaves nothing, or a file with a part
of the content, or an entry that only lacks the times and the mode. -/
inductive CopyEnd where
  | done
  | failed (left : Option (List UInt8))
  deriving DecidableEq

/-- What the system allows of a copy, by the locations it is made from and to: a directory may not be read
or written to, a file is no regular one, a disk is full. -/
structure CopyContext where
  /-- The directory can be listed. -/
  lists : FileTree.Location → Bool
  /-- A directory can be made there, in one that is there. -/
  makes : FileTree.Location → Bool
  /-- `copystat` of a directory. -/
  stamps : FileTree.Location → FileTree.Location → Bool
  copies : FileTree.Location → FileTree.Location → CopyEnd

/-- Everything is allowed. -/
def CopyContext.free : CopyContext where
  lists _ := true
  makes _ := true
  stamps _ _ := true
  copies _ _ := .done

/-! ### Making entries -/

/-- The kinds of `OSError` that are told apart. -/
inductive OSError where
  | fileExists
  | other
  deriving DecidableEq

namespace FileTree

/-- Make an entry by its path; it is also told where. -/
def newEntry (t : FileTree) (path : List String) (entry : Entry) : Except OSError (FileTree × Location) :=
  match path.getLast? with
  | none => .error .fileExists
  | some name =>
      if Plain name then
        match t.realPath path.dropLast with
        | none => .error .other
        | some dir =>
            if (t.lookup (dir ++ [name])).isSome then .error .fileExists
            else
              match t.create dir name entry with
              | none => .error .other
              | some t' => .ok (t', dir ++ [name])
      else if t.pathExists path then .error .fileExists
      else .error .other

/-- `os.mkdir`. -/
def mkdir (makes : Location → Bool) (t : FileTree) (path : List String) :
    Except OSError (FileTree × Location) :=
  match t.newEntry (trim path) .dir with
  | .error e => .error e
  | .ok (t', loc) => if makes loc then .ok (t', loc) else .error .other

/-- `os.makedirs` of a path of at most `n` names: the tree that is left, and where the directory is that was
made. -/
def makedirs (makes : Location → Bool) : ℕ → FileTree → List String → FileTree × Except OSError Location
  | 0, t, _ => (t, .error .other)
  | n + 1, t, path =>
      let head := (trim path).dropLast
      let last (t' : FileTree) : FileTree × Except OSError Location :=
        match mkdir makes t' path with
        | .error e => (t', .error e)
        | .ok (t'', loc) => (t'', .ok loc)
      if t.pathExists head then last t
      else
        match makedirs makes n t head with
        | (t', .error .other) => (t', .error .other)
        | (t', _) =>
            if (trim path).getLast? = some "." then (t', (t'.realPath path).elim (.error .other) .ok)
            else last t'

/-- Write the whole file at a location that was opened. -/
def writeAt (t : FileTree) (loc : Location) (content : List UInt8) : Option FileTree :=
  match h : t.lookup loc with
  | some (.file old) => some (t.rewrite loc content ⟨old, h⟩)
  | some _ => none
  | none => loc.getLast?.bind fun name => t.create loc.dropLast name (.file content)

/-! ### Copying -/

/-- A file of which only a part was written. -/
def Entry.cut : Entry → List UInt8 → Entry
  | .file _, left => .file left
  | entry, _ => entry

/-- `shutil.copy2`, which copies a link as a link. -/
def copy2 (ctx : CopyContext) (t : FileTree) (src dst : List String) : FileTree × Bool :=
  let dst := if t.isDir dst then joinPath dst [src.getLast?.getD ""] else dst
  if t.pathExists src ∧ t.realPath src = t.realPath dst then (t, false)
  else
    match t.lstat src with
    | some (.link absolute target) =>
        match t.newEntry dst (.link absolute target) with
        | .error _ => (t, false)
        | .ok (t', loc) =>
            match ctx.copies ((t.locate src).getD []) loc with
            | .done => (t', true)
            | .failed none => (t, false)
            | .failed (some _) => (t', false)
    | some (.file content) =>
        match t.opened maxLinks [] dst with
        | none => (t, false)
        | some loc =>
            match ctx.copies ((t.locate src).getD []) loc with
            | .done =>
                match t.writeAt loc content with
                | none => (t, false)
                | some t' => (t', true)
            | .failed none => (t, false)
            | .failed (some left) => ((t.writeAt loc left).getD t, false)
    | _ => (t, false)

/-- Copy what is no directory into one. -/
def copyLeaf (ctx : CopyContext) (t : FileTree) (src dst : Location) (name : String) (entry : Entry) :
    FileTree × Bool :=
  match ctx.copies src (dst ++ [name]) with
  | .done =>
      match t.create dst name entry with
      | none => (t, false)
      | some t' => (t', true)
  | .failed none => (t, false)
  | .failed (some left) => ((t.create dst name (entry.cut left)).getD t, false)

/-- Copy an entry of a directory to another, by `copy` if it is a directory. -/
def copyEntry (ctx : CopyContext) (copy : FileTree → Location → Location → String → FileTree × Bool)
    (t : FileTree) (src dst : Location) (name : String) : FileTree × Bool :=
  match t.lookup (src ++ [name]) with
  | none => (t, false)
  | some .dir => copy t (src ++ [name]) dst name
  | some entry => t.copyLeaf ctx (src ++ [name]) dst name entry

/-- `_copytree` after the directory was made, up to its times and mode.  An error does not keep the other
entries from being copied. -/
def copyEntries (ctx : CopyContext) (copy : FileTree → Location → Location → String → FileTree × Bool)
    (src dst : Location) : List String → FileTree → FileTree × Bool
  | [], t => (t, true)
  | name :: names, t =>
      let (t', done) := copyEntry ctx copy t src dst name
      let (t'', rest) := copyEntries ctx copy src dst names t'
      (t'', done && rest)

/-- `shutil.copytree` of a directory in the one that is copied, into a new one of a name. -/
def copyDir (ctx : CopyContext) : ℕ → FileTree → Location → Location → String → FileTree × Bool
  | 0, t, _, _, _ => (t, false)
  | n + 1, t, src, dir, name =>
      if ctx.lists src && ctx.makes (dir ++ [name]) then
        match t.create dir name .dir with
        | none => (t, false)
        | some t' =>
            let (t'', done) := copyEntries ctx (copyDir ctx n) src (dir ++ [name]) (t.names src) t'
            (t'', done && ctx.stamps src (dir ++ [name]))
      else (t, false)

/-- `shutil.copytree`, which raises an error at `limit` directories in one another: a path has only so many
characters, and a call stack so many calls. -/
def copytree (ctx : CopyContext) (limit : ℕ) (t : FileTree) (src dst : List String) : FileTree × Bool :=
  match limit, t.realPath src with
  | n + 1, some loc =>
      if t.lookup loc = some .dir ∧ ctx.lists loc then
        match makedirs ctx.makes dst.length t dst with
        | (t', .error _) => (t', false)
        | (t', .ok top) =>
            let (t'', done) := copyEntries ctx (copyDir ctx n) loc top (t.names loc) t'
            (t'', done && ctx.stamps loc top)
      else (t, false)
  | _, _ => (t, false)

/-- Copy a source. -/
def copyItem (ctx : CopyContext) (limit : ℕ) (t : FileTree) (source dest : List String) :
    FileTree × Bool :=
  if t.isDir source && !t.isLink source then t.copytree ctx limit source dest
  else t.copy2 ctx source dest

end FileTree

/-- `_dest_for`, unless there is something. -/
def destFor (t : FileTree) (source destDir : List String) : Option (List String) :=
  let dest := FileTree.joinPath destDir [FileTree.basename source]
  if t.pathExists dest then none else some dest

/-- The loop of the body of `files.copy` from source `i` of `total` on; `cancelled` says at which sources a
request to cancel the job has come. -/
def copyItems (ctx : CopyContext) (limit : ℕ) (cancelled : ℕ → Bool) (destDir : List String)
    (total i : ℕ) (t : FileTree) (progress : ℚ) : List (List String) → FilesJob
  | [] => ⟨t, .done, 1⟩
  | source :: sources =>
      if cancelled i then ⟨t, .cancelled, progress⟩
      else
        match destFor t source destDir with
        | none => ⟨t, .failed, progress⟩
        | some dest =>
            match t.copyItem ctx limit source dest with
            | (t', false) => ⟨t', .failed, progress⟩
            | (t', true) =>
                copyItems ctx limit cancelled destDir total (i + 1) t' ((i + 1) / total) sources

/-- `files.copy`. -/
def copyJob (ctx : CopyContext) (limit : ℕ) (cancelled : ℕ → Bool) (t : FileTree)
    (sources : List (List String)) (destDir : List String) : FilesJob :=
  copyItems ctx limit cancelled destDir sources.length 0 t 0 sources

/-! ### A copy that comes to an end -/

/-- An entry can be copied. -/
def CopyContext.Allows (ctx : CopyContext) (src dst : FileTree.Location) : FileTree.Entry → Prop
  | .dir => ctx.lists src = true ∧ ctx.makes dst = true ∧ ctx.stamps src dst = true
  | _ => ctx.copies src dst = .done

/-- What is at a location can be copied with everything below it. -/
def CopyContext.AllowsAll (ctx : CopyContext) (t : FileTree) (src dst : FileTree.Location) : Prop :=
  ∀ rest entry, t.lookup (src ++ rest) = some entry → ctx.Allows (src ++ rest) (dst ++ rest) entry

namespace FileTree

/-- At one location there is now what is at another, and everything else is as it was. -/
structure Copied (t : FileTree) (src dst : Location) (t' : FileTree) : Prop where
  copy : ∀ rest, t'.lookup (dst ++ rest) = t.lookup (src ++ rest)
  frame : ∀ q, ¬ dst <+: q → t'.lookup q = t.lookup q

/-- A directory can be copied to a new one in a directory: this one does not lie in an entry of it. -/
structure Copyable (t : FileTree) (src dir : Location) (name : String) : Prop where
  source : t.lookup src = some .dir
  target : t.lookup dir = some .dir
  new : t.lookup (dir ++ [name]) = none
  apart : ∀ e entry, t.lookup (src ++ [e]) = some entry → ¬ src ++ [e] <+: dir ++ [name]

/-- A way to copy directories of fewer than `n` levels. -/
def Copies (ctx : CopyContext) (n : ℕ)
    (copy : FileTree → Location → Location → String → FileTree × Bool) : Prop :=
  ∀ t src dir name, Copyable t src dir name → ctx.AllowsAll t src (dir ++ [name]) →
    (∀ rest entry, t.lookup (src ++ rest) = some entry → rest.length < n) →
      ∃ t', copy t src dir name = (t', true) ∧ Copied t src (dir ++ [name]) t'

/-- Some entries of a directory were copied to a new one. -/
structure CopiedSome (t : FileTree) (src dst : Location) (names : List String) (t' : FileTree) :
    Prop where
  copy : ∀ e ∈ names, ∀ rest, t'.lookup (dst ++ e :: rest) = t.lookup (src ++ e :: rest)
  frame : ∀ q, (∀ e ∈ names, ¬ dst ++ [e] <+: q) →
    t'.lookup q = if q = dst then some .dir else t.lookup q

/-- What is in a directory lies in the entry of its first name. -/
theorem child_prefix_iff {loc rest : Location} {a b : String} :
  loc ++ [a] <+: loc ++ b :: rest ↔ a = b
  := by
  rw [List.prefix_append_right_inj, List.cons_prefix_cons]
  simp

section

variable {ctx : CopyContext} {t t' : FileTree} {src dir : Location} {name : String}

/-- What is in the source does not lie in what is made. -/
theorem Copyable.not_under (h : Copyable t src dir name) {e : String} {entry : Entry}
    (hentry : t.lookup (src ++ [e]) = some entry) (rest : Location) :
  ¬ dir ++ [name] <+: src ++ [e] ++ rest
  := by
  intro hunder
  rcases List.prefix_or_prefix_of_prefix hunder (List.prefix_append (src ++ [e]) rest) with
    ⟨more, hmore⟩ | habove
  · rw [← hmore, lookup_append_eq_none h.new] at hentry
    cases hentry
  · apply h.apart e entry hentry habove

/-- Nothing has been copied yet when the new directory is made. -/
theorem copiedSome_nil (h : t.create dir name .dir = some t') :
  CopiedSome t src (dir ++ [name]) [] t'
  := by
  constructor
  · intro e he
    cases he
  · intro q _
    apply lookup_create h

/-- What is in the source is still as it was. -/
theorem CopiedSome.lookup_source (h : Copyable t src dir name) {names : List String}
    (hsome : CopiedSome t src (dir ++ [name]) names t') {e : String} {entry : Entry}
    (hentry : t.lookup (src ++ [e]) = some entry) (rest : Location) :
  t'.lookup (src ++ [e] ++ rest) = t.lookup (src ++ [e] ++ rest)
  := by
  have hnot := h.not_under hentry rest
  rw [hsome.frame, if_neg]
  · intro heq
    apply hnot
    rw [heq]
  · intro e' _ hunder
    apply hnot ((List.prefix_append _ [e']).trans hunder)

/-- The new directory is there. -/
theorem CopiedSome.lookup_target {dst : Location} {names : List String}
    (hsome : CopiedSome t src dst names t') :
  t'.lookup dst = some .dir
  := by
  rw [hsome.frame, if_pos rfl]
  intro e' _ hunder
  have hlength := hunder.length_le
  rw [List.length_append, List.length_singleton] at hlength
  omega

/-- In the new directory there is nothing yet where another entry is to be. -/
theorem CopiedSome.lookup_free (h : Copyable t src dir name) {names : List String}
    (hsome : CopiedSome t src (dir ++ [name]) names t') {e : String} (hnew : e ∉ names)
    (rest : Location) :
  t'.lookup (dir ++ [name] ++ [e] ++ rest) = none
  := by
  rw [List.append_assoc _ [e], List.singleton_append, hsome.frame, if_neg,
    lookup_append_eq_none h.new]
  · simp
  · intro e' he' hunder
    rw [child_prefix_iff] at hunder
    apply hnew
    rw [← hunder]
    apply he'

/-- One more entry was copied. -/
theorem CopiedSome.snoc (h : Copyable t src dir name) {names : List String}
    (hsome : CopiedSome t src (dir ++ [name]) names t') {e : String} (hnew : e ∉ names) {entry : Entry}
    (hentry : t.lookup (src ++ [e]) = some entry) {t'' : FileTree}
    (hcopied : Copied t' (src ++ [e]) (dir ++ [name] ++ [e]) t'') :
  CopiedSome t src (dir ++ [name]) (names ++ [e]) t''
  := by
  constructor
  · intro e' he' rest
    rcases List.mem_append.mp he' with he' | he'
    · rw [hcopied.frame, hsome.copy e' he']
      intro hunder
      rw [child_prefix_iff] at hunder
      apply hnew
      rw [hunder]
      apply he'
    · rw [List.mem_singleton.mp he']
      have hat := hcopied.copy rest
      rw [hsome.lookup_source h hentry] at hat
      simpa using hat
  · intro q hq
    rw [List.forall_mem_append] at hq
    rw [hcopied.frame q (hq.2 e List.mem_cons_self), hsome.frame q hq.1]

/-- What is no directory is copied by making it once more. -/
theorem copied_create {dst : Location} {e : String} {entry : Entry} (hentry : t.lookup src = some entry)
    (hdir : entry ≠ .dir) (hfree : ∀ rest, t.lookup (dst ++ [e] ++ rest) = none)
    (hcreate : t.create dst e entry = some t') :
  Copied t src (dst ++ [e]) t'
  := by
  constructor
  · intro rest
    rw [lookup_create hcreate]
    by_cases hrest : rest = []
    · rw [hrest, List.append_nil, List.append_nil, if_pos rfl, hentry]
    · rw [if_neg (by simpa using hrest), hfree]
      symm
      by_contra hthere
      obtain ⟨below, hbelow⟩ := Option.ne_none_iff_exists'.mp hthere
      rw [lookup_of_append hrest hbelow] at hentry
      apply hdir (Option.some_inj.mp hentry).symm
  · intro q hq
    rw [lookup_create hcreate, if_neg]
    rintro rfl
    apply hq List.prefix_rfl

/-- What is no directory is copied when the system lets it be, and by making it once more. -/
theorem copyLeaf_eq_true_iff {dst : Location} {entry : Entry} :
  t.copyLeaf ctx src dst name entry = (t', true)
    ↔ ctx.copies src (dst ++ [name]) = .done ∧ t.create dst name entry = some t'
  := by
  rw [copyLeaf]
  cases ctx.copies src (dst ++ [name]) with
  | done => cases t.create dst name entry <;> simp
  | failed left => cases left <;> simp

/-- Copying one more entry. -/
theorem CopiedSome.copyEntry {n : ℕ}
    {copy : FileTree → Location → Location → String → FileTree × Bool} (hcopy : Copies ctx n copy)
    (h : Copyable t src dir name) (hallows : ctx.AllowsAll t src (dir ++ [name]))
    (hdepth : ∀ rest entry, t.lookup (src ++ rest) = some entry → rest.length < n + 1)
    {names : List String} (hsome : CopiedSome t src (dir ++ [name]) names t') {e : String}
    (hnew : e ∉ names) {entry : Entry} (hentry : t.lookup (src ++ [e]) = some entry) :
  ∃ t'', FileTree.copyEntry ctx copy t' src (dir ++ [name]) e = (t'', true)
    ∧ CopiedSome t src (dir ++ [name]) (names ++ [e]) t''
  := by
  have hsource := hsome.lookup_source h hentry
  have hfree := hsome.lookup_free h hnew
  have hhere : t'.lookup (src ++ [e]) = some entry := by
    rw [← hentry]
    simpa using hsource []
  have hvacant : t'.lookup (dir ++ [name] ++ [e]) = none := by
    simpa using hfree []
  have hallowed := hallows [e] entry hentry
  have hcreated : entry ≠ .dir → ctx.copies (src ++ [e]) (dir ++ [name] ++ [e]) = .done →
      ∃ t'', t'.copyLeaf ctx (src ++ [e]) (dir ++ [name]) e entry = (t'', true)
        ∧ CopiedSome t src (dir ++ [name]) (names ++ [e]) t'' := by
    intro hdir hdone
    obtain ⟨t'', hcreate⟩ := Option.isSome_iff_exists.mp
      (create_isSome.mpr ⟨hsome.lookup_target, hvacant⟩)
    use t'', copyLeaf_eq_true_iff.mpr ⟨hdone, hcreate⟩
    apply hsome.snoc h hnew hentry
    apply copied_create hhere hdir hfree hcreate
  rw [FileTree.copyEntry, hhere]
  cases entry with
  | file content => exact hcreated (by simp) hallowed
  | link absolute target => exact hcreated (by simp) hallowed
  | dir =>
      have hbelow : Copyable t' (src ++ [e]) (dir ++ [name]) e := by
        refine ⟨hhere, hsome.lookup_target, hvacant, ?_⟩
        intro e' _ _ habove
        rcases List.prefix_concat_iff.mp habove with heq | habove
        · apply h.apart e _ hentry
          rw [(List.append_inj' heq rfl).1]
        · apply h.apart e _ hentry ((List.prefix_append _ _).trans habove)
      obtain ⟨t'', hdone, hcopied⟩ := hcopy t' (src ++ [e]) (dir ++ [name]) e hbelow
        (by
          intro rest below hthere
          rw [hsource, List.append_assoc] at hthere
          have hallowed := hallows _ _ hthere
          rw [← List.append_assoc, ← List.append_assoc] at hallowed
          apply hallowed)
        (by
          intro rest below hthere
          rw [hsource, List.append_assoc] at hthere
          have hlength := hdepth _ _ hthere
          rw [List.length_append, List.length_singleton] at hlength
          omega)
      use t'', hdone
      apply hsome.snoc h hnew hentry hcopied

/-- Copying all that is left of a directory. -/
theorem CopiedSome.copyEntries {n : ℕ}
    {copy : FileTree → Location → Location → String → FileTree × Bool} (hcopy : Copies ctx n copy)
    (h : Copyable t src dir name) (hallows : ctx.AllowsAll t src (dir ++ [name]))
    (hdepth : ∀ rest entry, t.lookup (src ++ rest) = some entry → rest.length < n + 1)
    {names left : List String} (hnames : (names ++ left).Nodup)
    (hleft : ∀ e ∈ left, ∃ entry, t.lookup (src ++ [e]) = some entry)
    (hsome : CopiedSome t src (dir ++ [name]) names t') :
  ∃ t'', FileTree.copyEntries ctx copy src (dir ++ [name]) left t' = (t'', true)
    ∧ CopiedSome t src (dir ++ [name]) (names ++ left) t''
  := by
  induction left generalizing names t' with
  | nil => exact ⟨t', rfl, by simpa using hsome⟩
  | cons e left ih =>
      rw [List.forall_mem_cons] at hleft
      obtain ⟨⟨entry, hentry⟩, hleft⟩ := hleft
      have hnew : e ∉ names := by
        intro he
        apply List.disjoint_of_nodup_append hnames he List.mem_cons_self
      have hmove : names ++ e :: left = names ++ [e] ++ left := by simp
      rw [hmove] at hnames ⊢
      obtain ⟨t₁, hfirst, hsome⟩ := hsome.copyEntry hcopy h hallows hdepth hnew hentry
      obtain ⟨t₂, hrest, hsome⟩ := ih hnames hleft hsome
      use t₂
      constructor
      · rw [FileTree.copyEntries, hfirst]
        dsimp only
        rw [hrest]
        rfl
      · apply hsome

/-- When everything in a directory was copied, the directory was. -/
theorem CopiedSome.copied (h : Copyable t src dir name)
    (hsome : CopiedSome t src (dir ++ [name]) (t.names src) t') :
  Copied t src (dir ++ [name]) t'
  := by
  constructor
  · intro rest
    cases rest with
    | nil =>
        rw [List.append_nil, List.append_nil, hsome.frame, if_pos rfl, h.source]
        intro e _ hunder
        have hlength := hunder.length_le
        simp at hlength
    | cons e rest =>
        by_cases he : e ∈ t.names src
        · apply hsome.copy e he
        · have hnone : t.lookup (src ++ e :: rest) = none := by
            rw [← List.singleton_append, ← List.append_assoc]
            apply lookup_append_eq_none
            by_contra hthere
            apply he (mem_names.mpr (Option.ne_none_iff_exists'.mp hthere))
          rw [hnone, hsome.frame, if_neg (by simp), lookup_append_eq_none h.new]
          intro e' he' hunder
          rw [child_prefix_iff] at hunder
          apply he
          rw [← hunder]
          apply he'
  · intro q hq
    rw [hsome.frame, if_neg]
    · rintro rfl
      apply hq List.prefix_rfl
    · intro e _ hunder
      apply hq ((List.prefix_append _ [e]).trans hunder)

end

/-- A directory of fewer levels than the limit is copied. -/
theorem copies_copyDir (ctx : CopyContext) (n : ℕ) :
  Copies ctx n (copyDir ctx n)
  := by
  induction n with
  | zero =>
      intro t src dir name h _ hdepth
      apply absurd (hdepth [] .dir (by simpa using h.source))
      apply Nat.not_lt_zero
  | succ n ih =>
      intro t src dir name h hallows hdepth
      obtain ⟨t₁, hcreate⟩ := Option.isSome_iff_exists.mp (create_isSome.mpr ⟨h.target, h.new⟩)
      have hnothing : CopiedSome t src (dir ++ [name]) [] t₁ := copiedSome_nil hcreate
      have hnames : ([] ++ t.names src).Nodup := t.nodup_names src
      obtain ⟨t', hcopy, hsome⟩ :=
        hnothing.copyEntries ih h hallows hdepth hnames fun e he => mem_names.mp he
      have hallowed := hallows [] .dir (by simpa using h.source)
      rw [List.append_nil, List.append_nil] at hallowed
      obtain ⟨hlists, hmakes, hstamps⟩ := hallowed
      use t'
      constructor
      · rw [copyDir, hlists, hmakes, Bool.and_true, if_pos rfl, hcreate]
        dsimp only
        rw [hcopy, hstamps]
        rfl
      · apply CopiedSome.copied h hsome

/-! ### A copy that does not -/

/-- What there was is still there. -/
def Grows (t t' : FileTree) : Prop :=
  ∀ q entry, t.lookup q = some entry → t'.lookup q = some entry

theorem Grows.refl (t : FileTree) :
  Grows t t
  := fun _ _ h => h

theorem Grows.trans {t t' t'' : FileTree} (h : Grows t t') (h' : Grows t' t'') :
  Grows t t''
  := fun q entry hentry => h' q entry (h q entry hentry)

/-- A new entry takes nothing away. -/
theorem grows_create {t t' : FileTree} {loc : Location} {name : String} {entry : Entry}
    (h : t.create loc name entry = some t') :
  Grows t t'
  := by
  intro q old hold
  rw [lookup_create h, if_neg]
  · apply hold
  · rintro rfl
    have hnew := (create_isSome.mp (Option.isSome_iff_exists.mpr ⟨t', h⟩)).2
    rw [hold] at hnew
    cases hnew

section

variable {ctx : CopyContext} {copy : FileTree → Location → Location → String → FileTree × Bool}

/-- What cannot be made anew leaves the files as they are. -/
theorem grows_getD_create (t : FileTree) (loc : Location) (name : String) (entry : Entry) :
  Grows t ((t.create loc name entry).getD t)
  := by
  cases h : t.create loc name entry with
  | none => apply Grows.refl
  | some t' => apply grows_create h

theorem grows_copyEntry (hcopy : ∀ t src dir name, Grows t (copy t src dir name).1) (t : FileTree)
    (src dst : Location) (name : String) :
  Grows t (copyEntry ctx copy t src dst name).1
  := by
  rw [copyEntry]
  split
  · apply Grows.refl
  · apply hcopy
  · rw [copyLeaf]
    split
    · split
      · apply Grows.refl
      · rename_i t' hcreate
        apply grows_create hcreate
    · apply Grows.refl
    · apply grows_getD_create

theorem grows_copyEntries (hcopy : ∀ t src dir name, Grows t (copy t src dir name).1)
    (src dst : Location) (names : List String) (t : FileTree) :
  Grows t (copyEntries ctx copy src dst names t).1
  := by
  induction names generalizing t with
  | nil => apply Grows.refl
  | cons name names ih =>
      rw [copyEntries]
      apply (grows_copyEntry hcopy t src dst name).trans
      apply ih

/-- An entry that can never be copied keeps the directory from being copied. -/
theorem copyEntries_fails (hcopy : ∀ t src dir name, Grows t (copy t src dir name).1)
    {src dst : Location} {names : List String} {t : FileTree} {e : String} (he : e ∈ names)
    (hfails : ∀ t', Grows t t' → (copyEntry ctx copy t' src dst e).2 = false) :
  (copyEntries ctx copy src dst names t).2 = false
  := by
  induction names generalizing t with
  | nil => cases he
  | cons name names ih =>
      rw [copyEntries]
      dsimp only
      rcases List.mem_cons.mp he with rfl | he
      · rw [hfails t (Grows.refl t), Bool.false_and]
      · rw [ih he, Bool.and_false]
        intro t' ht'
        apply hfails t' ((grows_copyEntry hcopy t src dst name).trans ht')

end

theorem grows_copyDir (ctx : CopyContext) (n : ℕ) (t : FileTree) (src dir : Location) (name : String) :
  Grows t (copyDir ctx n t src dir name).1
  := by
  induction n generalizing t src dir name with
  | zero => apply Grows.refl
  | succ n ih =>
      rw [copyDir]
      split
      · cases hcreate : t.create dir name .dir with
        | none => apply Grows.refl
        | some t' => apply (grows_create hcreate).trans (grows_copyEntries ih _ _ _ _)
      · apply Grows.refl

/-- When everything in a directory was copied, each entry was, at some point. -/
theorem copyEntry_of_copyEntries {ctx : CopyContext} {t t' : FileTree}
    {copy : FileTree → Location → Location → String → FileTree × Bool}
    (hcopy : ∀ t src dir name, Grows t (copy t src dir name).1) {src dst : Location}
    {names : List String} {e : String} (he : e ∈ names)
    (h : copyEntries ctx copy src dst names t = (t', true)) :
  ∃ t₁ t₂, Grows t t₁ ∧ copyEntry ctx copy t₁ src dst e = (t₂, true) ∧ Grows t₂ t'
  := by
  induction names generalizing t with
  | nil => cases he
  | cons name names ih =>
      rw [copyEntries] at h
      cases hfirst : copyEntry ctx copy t src dst name with
      | mk t₁ done =>
          cases hrest : copyEntries ctx copy src dst names t₁ with
          | mk t₂ rest =>
              rw [hfirst] at h
              dsimp only at h
              rw [hrest] at h
              rw [Prod.mk.injEq, Bool.and_eq_true] at h
              obtain ⟨rfl, rfl, rfl⟩ := h
              have hgrows := @grows_copyEntries ctx _ hcopy src dst names t₁
              rw [hrest] at hgrows
              rcases List.mem_cons.mp he with rfl | he
              · exact ⟨t, t₁, Grows.refl t, hfirst, hgrows⟩
              · obtain ⟨t₃, t₄, hbefore, hentry, hafter⟩ := ih he hrest
                have hstep := @grows_copyEntry ctx _ hcopy t src dst name
                rw [hfirst] at hstep
                exact ⟨t₃, t₄, hstep.trans hbefore, hentry, hafter⟩

/-- A directory is copied once it was made. -/
theorem copyDir_succ_eq_true {ctx : CopyContext} {n : ℕ} {t t' : FileTree} {src dir : Location}
    {name : String} (h : copyDir ctx (n + 1) t src dir name = (t', true)) :
  (ctx.lists src = true ∧ ctx.makes (dir ++ [name]) = true ∧ ctx.stamps src (dir ++ [name]) = true)
    ∧ ∃ t₁, t.create dir name .dir = some t₁
      ∧ copyEntries ctx (copyDir ctx n) src (dir ++ [name]) (t.names src) t₁ = (t', true)
  := by
  rw [copyDir] at h
  split at h
  · rename_i hallowed
    rw [Bool.and_eq_true] at hallowed
    split at h
    · cases h
    · rename_i t₁ hcreate
      cases hcopy : copyEntries ctx (copyDir ctx n) src (dir ++ [name]) (t.names src) t₁ with
      | mk t₂ done =>
          rw [hcopy, Prod.mk.injEq, Bool.and_eq_true] at h
          obtain ⟨rfl, rfl, hstamps⟩ := h
          exact ⟨⟨hallowed.1, hallowed.2, hstamps⟩, t₁, hcreate, hcopy⟩
  · cases h

/-- A directory that was copied can be, with everything in it. -/
theorem allowsAll_of_copyDir {ctx : CopyContext} {n : ℕ} {t t' : FileTree} {src dir : Location}
    {name : String} (hsrc : t.lookup src = some .dir)
    (h : copyDir ctx n t src dir name = (t', true)) :
  ctx.AllowsAll t src (dir ++ [name])
  := by
  induction n generalizing t t' src dir name with
  | zero => cases h
  | succ n ih =>
      obtain ⟨hallowed, t₁, hcreate, hcopies⟩ := copyDir_succ_eq_true h
      intro rest entry hentry
      cases rest with
      | nil =>
          rw [List.append_nil, hsrc] at hentry
          cases hentry
          rw [List.append_nil, List.append_nil]
          apply hallowed
      | cons e rest =>
          rw [← List.singleton_append, ← List.append_assoc] at hentry ⊢
          rw [← List.append_assoc (dir ++ [name])]
          have hway := dir_or_eq_nil_of_lookup hentry
          have hthere : ∃ here, t.lookup (src ++ [e]) = some here := by
            rcases hway with hdir | ⟨-, hleaf, -⟩
            · exact ⟨_, hdir⟩
            · exact ⟨_, hleaf⟩
          obtain ⟨t₂, t₃, hbefore, hcopied, -⟩ :=
            copyEntry_of_copyEntries (grows_copyDir ctx n) (mem_names.mpr hthere) hcopies
          have hgrows : Grows t t₂ := (grows_create hcreate).trans hbefore
          rcases hway with hdir | ⟨rfl, hleaf, hnot⟩
          · rw [copyEntry, hgrows _ _ hdir] at hcopied
            apply ih (hgrows _ _ hdir) hcopied rest entry (hgrows _ _ hentry)
          · rw [copyEntry, hgrows _ _ hleaf] at hcopied
            rw [List.append_nil, List.append_nil]
            cases entry with
            | dir => contradiction
            | file content => apply (copyLeaf_eq_true_iff.mp hcopied).1
            | link absolute target => apply (copyLeaf_eq_true_iff.mp hcopied).1

/-- A directory is never copied to one inside of it: it is always found once more. -/
theorem copyDir_inside {ctx : CopyContext} {n : ℕ} {t : FileTree} {src dir : Location} {name e : String}
    (hinside : src ++ [e] <+: dir) (hdir : t.lookup dir = some .dir) :
  (copyDir ctx n t src dir name).2 = false
  := by
  induction n generalizing t src dir name e with
  | zero => rfl
  | succ n ih =>
      by_contra htrue
      rw [Bool.not_eq_false] at htrue
      obtain ⟨-, t₁, hcreate, hcopies⟩ := copyDir_succ_eq_true (Prod.ext rfl htrue)
      obtain ⟨rest, rfl⟩ := hinside
      have hentry : t.lookup (src ++ [e]) = some .dir := by
        by_cases hrest : rest = []
        · rw [hrest, List.append_nil] at hdir
          apply hdir
        · apply lookup_of_append hrest hdir
      have hfails := @copyEntries_fails ctx _ (grows_copyDir ctx n) src (src ++ [e] ++ rest ++ [name])
        (t.names src) t₁ e (mem_names.mpr ⟨_, hentry⟩) (by
          intro t' ht'
          rw [copyEntry, ht' _ _ (grows_create hcreate _ _ hentry)]
          obtain ⟨e', rest', hrest'⟩ := List.exists_cons_of_ne_nil
            (List.append_ne_nil_of_right_ne_nil rest (List.cons_ne_nil name []))
          apply ih (e := e')
          · rw [List.append_assoc _ rest, hrest']
            use rest'
            simp
          · apply ht'
            rw [lookup_create hcreate, if_pos rfl])
      rw [hcopies] at hfails
      cases hfails

/-! ### Directories on the way -/

section

variable {makes : Location → Bool} {t t' : FileTree} {path : List String}

/-- An entry that is made by its path is a new one. -/
theorem create_of_newEntry {entry : Entry} {loc : Location} (h : t.newEntry path entry = .ok (t', loc)) :
  ∃ dir name, path = path.dropLast ++ [name] ∧ t.realPath path.dropLast = some dir
    ∧ t.create dir name entry = some t' ∧ loc = dir ++ [name] ∧ Plain name
  := by
  rw [newEntry] at h
  split at h
  · cases h
  · rename_i name hname
    split at h
    · rename_i hplain
      split at h
      · cases h
      · rename_i dir hdir
        split at h
        · cases h
        · split at h
          · cases h
          · rename_i t₁ hcreate
            cases h
            obtain ⟨front, hfront⟩ := List.getLast?_eq_some_iff.mp hname
            refine ⟨dir, name, ?_, hdir, hcreate, rfl, hplain⟩
            rw [hfront, List.dropLast_concat]
    · split at h
      · cases h
      · cases h

/-- A new entry takes nothing away. -/
theorem grows_newEntry {entry : Entry} {loc : Location} (h : t.newEntry path entry = .ok (t', loc)) :
  Grows t t'
  := by
  obtain ⟨dir, name, -, -, hcreate, -, -⟩ := create_of_newEntry h
  apply grows_create hcreate

/-- A directory that is made is a new entry. -/
theorem newEntry_of_mkdir {loc : Location} (h : mkdir makes t path = .ok (t', loc)) :
  t.newEntry (trim path) .dir = .ok (t', loc) ∧ makes loc = true
  := by
  rw [mkdir] at h
  split at h
  · cases h
  · rename_i t₁ loc₁ hnew
    split at h
    · rename_i hmakes
      cases h
      exact ⟨hnew, hmakes⟩
    · cases h

/-- A directory that is made, or not, takes nothing away. -/
theorem grows_mkdir (makes : Location → Bool) (t : FileTree) (path : List String) :
  Grows t (match mkdir makes t path with
    | .error e => (t, .error e)
    | .ok (t', loc) => (t', .ok loc) : FileTree × Except OSError Location).1
  := by
  cases hmkdir : mkdir makes t path with
  | error e => apply Grows.refl
  | ok made => apply grows_newEntry (newEntry_of_mkdir hmkdir).1

/-- The directories above are made first. -/
theorem grows_makedirs_succ (makes : Location → Bool) (n : ℕ) (t : FileTree) (path : List String)
    (hmissing : ¬ t.pathExists (trim path).dropLast = true) :
  Grows (makedirs makes n t (trim path).dropLast).1 (makedirs makes (n + 1) t path).1
  := by
  rw [makedirs]
  dsimp only
  rw [if_neg hmissing]
  split
  · rename_i t' habove
    rw [habove]
    apply Grows.refl
  · rename_i t' result _ habove
    rw [habove]
    split
    · apply Grows.refl
    · apply grows_mkdir

/-- New directories take nothing away. -/
theorem grows_makedirs (makes : Location → Bool) (n : ℕ) (t : FileTree) (path : List String) :
  Grows t (makedirs makes n t path).1
  := by
  induction n generalizing t path with
  | zero => apply Grows.refl
  | succ n ih =>
      by_cases hexists : t.pathExists (trim path).dropLast = true
      · rw [makedirs]
        dsimp only
        rw [if_pos hexists]
        apply grows_mkdir
      · apply (ih t _).trans (grows_makedirs_succ makes n t path hexists)

/-- Where a directory can be made, there is nothing yet. -/
theorem not_pathExists_of_mkdir {made : FileTree × Location} (h : mkdir makes t path = .ok made) :
  t.pathExists path = false
  := by
  obtain ⟨dir, name, htrim, hdir, hcreate, -, hplain⟩ := create_of_newEntry (newEntry_of_mkdir h).1
  obtain ⟨hlookup, hnew⟩ := create_isSome.mp (Option.isSome_iff_exists.mpr ⟨_, hcreate⟩)
  obtain ⟨left, hleft⟩ := resolve_append hdir hlookup
  obtain ⟨k, hk⟩ := trim_append_replicate path
  rw [Bool.eq_false_iff]
  intro hexists
  have hreal := pathExists_iff.mp (pathExists_of_start ⟨_, hk⟩ hexists)
  rw [htrim, realPath, hleft, resolve_cons, dots_eq_none_iff.mpr hplain] at hreal
  dsimp only at hreal
  rw [hnew] at hreal
  cases hreal

/-- The end of what a path begins with is the end of the path, or lies before it. -/
theorem trim_of_prefix {front : List String} {name : String} (hfront : front <+: path)
    (hname : (trim front).getLast? = some name) (hplain : Plain name) :
  trim front = trim path ∨ trim front <+: (trim path).dropLast
  := by
  obtain ⟨j, hj⟩ := trim_append_replicate front
  obtain ⟨k, hk⟩ := trim_append_replicate path
  have hpath : trim front <+: path := List.IsPrefix.trans ⟨_, hj⟩ hfront
  rcases List.prefix_or_prefix_of_prefix hpath ⟨_, hk⟩ with hshort | ⟨more, hmore⟩
  · rcases List.eq_nil_or_concat' (trim path) with hnil | ⟨before, last, hlast⟩
    · rw [hnil] at hshort
      rw [List.prefix_nil.mp hshort] at hname
      cases hname
    · rw [hlast, List.prefix_concat_iff] at hshort
      rw [hlast, List.dropLast_concat]
      apply hshort
  · left
    by_cases hnil : more = []
    · rw [← hmore, hnil, List.append_nil]
    · -- what follows is nothing but slashes, after which no name comes
      exfalso
      have hslashes : trim path ++ more <+: trim path ++ List.replicate k "" := by
        rw [hmore, hk]
        apply hpath
      rw [List.prefix_append_right_inj] at hslashes
      have hlast : more.getLast? = some name := by
        rw [← hmore, List.getLast?_append_of_ne_nil _ hnil] at hname
        apply hname
      have hmem := hslashes.subset (List.mem_of_getLast? hlast)
      apply hplain
      rw [List.eq_of_mem_replicate hmem]
      apply List.mem_cons_self

/-- Nothing is made when no directory on the way can be. -/
theorem makedirs_of_blocked (h : ∀ front, front <+: path → ∀ made, mkdir makes t front ≠ .ok made)
    (n : ℕ) :
  ∃ e, makedirs makes n t path = (t, .error e)
  := by
  induction n generalizing path with
  | zero => exact ⟨.other, rfl⟩
  | succ n ih =>
      obtain ⟨k, hk⟩ := trim_append_replicate path
      have hhead : (trim path).dropLast <+: path := (List.dropLast_prefix _).trans ⟨_, hk⟩
      obtain ⟨e, hmkdir⟩ : ∃ e, mkdir makes t path = .error e := by
        cases hmkdir : mkdir makes t path with
        | error e => exact ⟨e, rfl⟩
        | ok made => exact absurd hmkdir (h path List.prefix_rfl made)
      rw [makedirs]
      dsimp only
      split
      · rw [hmkdir]
        exact ⟨e, rfl⟩
      · rename_i hexists
        obtain ⟨e', habove⟩ := ih fun front hfront => h front (hfront.trans hhead)
        rw [habove]
        cases e' with
        | other => exact ⟨.other, rfl⟩
        | fileExists =>
            dsimp only
            split
            · have hnone : t.realPath path = none := by
                rw [← Option.not_isSome_iff_eq_none, ← pathExists_iff]
                intro hpath
                apply hexists (pathExists_of_start hhead hpath)
              rw [hnone]
              exact ⟨.other, rfl⟩
            · rw [hmkdir]
              exact ⟨e, rfl⟩

/-- Something is made when a directory on the way can be. -/
theorem exists_made_of_makedirs {front : List String} (hfront : front <+: path)
    {made : FileTree × Location} (hmake : mkdir makes t front = .ok made) {n : ℕ}
    (hn : path.length ≤ n) :
  ∃ loc, t.lookup loc = none ∧ ((makedirs makes n t path).1.lookup loc).isSome
  := by
  induction n generalizing path front with
  | zero =>
      obtain rfl := List.length_eq_zero_iff.mp (Nat.le_zero.mp hn)
      rw [List.prefix_nil.mp hfront] at hmake
      cases hmake
  | succ n ih =>
      obtain ⟨dir, name, htrim, hdir, hcreate, -, hplain⟩ :=
        create_of_newEntry (newEntry_of_mkdir hmake).1
      obtain ⟨hlookup, hnew⟩ := create_isSome.mp (Option.isSome_iff_exists.mpr ⟨_, hcreate⟩)
      have hname : (trim front).getLast? = some name := by
        rw [htrim, List.getLast?_concat]
      rcases trim_of_prefix hfront hname hplain with heq | hbefore
      · have hmkdir : mkdir makes t path = .ok made := by
          rw [← hmake, mkdir, mkdir, heq]
        have habove : t.pathExists (trim path).dropLast = true := by
          rw [← heq, pathExists, stat, hdir, Option.bind_some, hlookup]
          rfl
        rw [makedirs]
        dsimp only
        rw [if_pos habove, hmkdir]
        use dir ++ [name], hnew
        dsimp only
        rw [lookup_create hcreate, if_pos rfl]
        rfl
      · have hagain : mkdir makes t (trim front) = .ok made := by
          rw [← hmake, mkdir, mkdir, trim_eq_self ⟨name, hname, hplain⟩]
        have hmissing : ¬ t.pathExists (trim path).dropLast = true := by
          intro hexists
          have hthere := pathExists_of_start hbefore hexists
          rw [not_pathExists_of_mkdir hagain] at hthere
          cases hthere
        have hlength : (trim path).dropLast.length ≤ n := by
          obtain ⟨k, hk⟩ := trim_append_replicate path
          have hle : (trim path).length ≤ path.length := List.IsPrefix.length_le ⟨_, hk⟩
          rw [List.length_dropLast]
          omega
        obtain ⟨loc, hnone, hmade⟩ := ih hbefore hagain hlength
        obtain ⟨entry, hentry⟩ := Option.isSome_iff_exists.mp hmade
        use loc, hnone
        rw [grows_makedirs_succ makes n t path hmissing _ _ hentry]
        rfl

end

end FileTree

/-! ### The job -/

section

variable {t : FileTree} {source destDir : List String} {S D : FileTree.Location}

/-- A name that is no entry's leads somewhere from every directory. -/
theorem plain_of_not_pathExists {name : String} (hdest : t.realPath destDir = some D)
    (hD : t.lookup D = some .dir)
    (h : t.pathExists (FileTree.joinPath destDir [name]) = false) :
  FileTree.Plain name
  := by
  obtain ⟨head, hjoin, hhead⟩ := FileTree.joinPath_eq hdest [name]
  obtain ⟨left, hleft⟩ := FileTree.resolve_append hhead hD
  by_contra hplain
  have hleads : FileTree.dots D name ≠ none := by
    rw [Ne, FileTree.dots_eq_none_iff]
    apply hplain
  obtain ⟨loc, hloc⟩ := Option.ne_none_iff_exists'.mp hleads
  rw [hjoin, FileTree.pathExists, FileTree.stat, FileTree.realPath, hleft, FileTree.resolve_cons,
    hloc] at h
  dsimp only at h
  rw [FileTree.resolve_nil, Option.bind_some, FileTree.lookup_dots hloc hD] at h
  cases h

/-- The destination of a directory is made in the one it is copied to. -/
theorem copytree_eq (ctx : CopyContext) (hsource : t.realPath source = some S)
    (hS : t.lookup S = some .dir) (hdest : t.realPath destDir = some D) (hD : t.lookup D = some .dir)
    (hplain : FileTree.Plain (FileTree.basename source)) (limit : ℕ) :
  t.copytree ctx limit source (FileTree.joinPath destDir [FileTree.basename source])
    = FileTree.copyDir ctx limit t S D (FileTree.basename source)
  := by
  obtain ⟨head, hjoin, hhead⟩ := FileTree.joinPath_eq hdest [FileTree.basename source]
  have hends : FileTree.EndsPlain (head ++ [FileTree.basename source]) := by
    rw [FileTree.endsPlain_append (List.cons_ne_nil _ _), FileTree.endsPlain_singleton]
    apply hplain
  have hexists : t.pathExists head = true := by
    rw [FileTree.pathExists, FileTree.stat, hhead, Option.bind_some, hD]
    rfl
  rw [hjoin]
  cases limit with
  | zero => rfl
  | succ n =>
      unfold FileTree.copytree
      rw [hsource, FileTree.copyDir]
      dsimp only
      cases hlists : ctx.lists S with
      | false =>
          rw [if_neg (by simp)]
          rfl
      | true =>
          rw [if_pos ⟨hS, rfl⟩, List.length_append, List.length_singleton, FileTree.makedirs]
          dsimp only
          rw [FileTree.trim_eq_self hends, List.dropLast_concat, if_pos hexists, FileTree.mkdir,
            FileTree.trim_eq_self hends, FileTree.newEntry, List.getLast?_concat]
          dsimp only
          rw [if_pos hplain, List.dropLast_concat, hhead, Bool.true_and]
          dsimp only
          by_cases hnew : t.lookup (D ++ [FileTree.basename source]) = none
          · rw [hnew]
            cases t.create D (FileTree.basename source) .dir with
            | none =>
                dsimp only
                rw [ite_self]
                rfl
            | some t' =>
                rw [if_neg (by simp)]
                dsimp only
                cases ctx.makes (D ++ [FileTree.basename source])
                all_goals rfl
          · have hcreate : t.create D (FileTree.basename source) .dir = none := by
              rw [← Option.not_isSome_iff_eq_none, FileTree.create_isSome]
              rintro ⟨-, hnone⟩
              apply hnew hnone
            rw [hcreate, if_pos (Option.isSome_iff_ne_none.mpr hnew), ite_self]

end

/-- The job fails and leaves the files as they are, or it is done and what is at the destination is equal
to what the source was, and everything else is as it was. -/
def CopySound (t : FileTree) (source destDir : List String) (job : FilesJob) : Prop :=
  (job.status = .failed ∧ ∀ q, job.tree.lookup q = t.lookup q)
    ∨ (job.status = .done ∧ ∃ S D, t.realPath source = some S ∧ t.realPath destDir = some D
      ∧ t.lookup (D ++ [FileTree.basename source]) = none
      ∧ FileTree.Copied t S (D ++ [FileTree.basename source]) job.tree)

/-- A directory lies inside another. -/
def Inside (t : FileTree) (destDir source : List String) : Prop :=
  ∃ S D, t.realPath source = some S ∧ t.realPath destDir = some D ∧ S <+: D ∧ S ≠ D

/-- Nothing can be made: the source cannot be listed, or no directory on the way to the destination, this
one included, is missing and can be made. -/
def CopyContext.Blocked (ctx : CopyContext) (t : FileTree) (source destDir : List String) : Prop :=
  (∀ S ∈ t.realPath source, ctx.lists S = false)
    ∨ ∀ front, front <+: FileTree.joinPath destDir [FileTree.basename source] →
      ∀ made, FileTree.mkdir ctx.makes t front ≠ .ok made

/-- The directory that the source is copied into is there and does not lie inside the source, all of which
can be copied. -/
structure CopyContext.Complete (ctx : CopyContext) (t : FileTree) (source destDir : List String) :
    Prop where
  isDir : t.isDir destDir = true
  outside : ¬ Inside t destDir source
  allows : ∀ S ∈ t.realPath source, ∀ D ∈ t.realPath destDir,
    ctx.AllowsAll t S (D ++ [FileTree.basename source])

section

variable {ctx : CopyContext} {t : FileTree} {source destDir : List String}

/-- The job for one source that is a directory. -/
theorem copyJob_eq (hsource : t.lstat source = some .dir) (limit : ℕ) :
  copyJob ctx limit (fun _ => false) t [source] destDir =
    match destFor t source destDir with
    | none => ⟨t, .failed, 0⟩
    | some dest =>
        match t.copytree ctx limit source dest with
        | (t', false) => ⟨t', .failed, 0⟩
        | (t', true) => ⟨t', .done, 1⟩
  := by
  rw [copyJob, copyItems, if_neg Bool.false_ne_true]
  simp only [FileTree.copyItem, if_pos ((t.isDir_and_not_isLink source).mpr hsource)]
  rfl

/-- The location of a directory. -/
theorem exists_realPath_of_isDir (h : t.isDir source = true) :
  ∃ S, t.realPath source = some S ∧ t.lookup S = some .dir
  := Option.bind_eq_some_iff.mp (of_decide_eq_true h)

/-- A directory that is no link is one. -/
theorem isDir_of_lstat (h : t.lstat source = some .dir) :
  t.isDir source = true
  := (Bool.and_eq_true_iff.mp ((t.isDir_and_not_isLink source).mpr h)).1

/-- A job that can make nothing leaves the files as they are. -/
theorem copySound_of_blocked (hsource : t.lstat source = some .dir)
    (h : ctx.Blocked t source destDir) (limit : ℕ) :
  CopySound t source destDir (copyJob ctx limit (fun _ => false) t [source] destDir)
  := by
  have hcopy : t.copytree ctx limit source
      (FileTree.joinPath destDir [FileTree.basename source]) = (t, false) := by
    obtain ⟨S, hS, hSdir⟩ := exists_realPath_of_isDir (isDir_of_lstat hsource)
    cases limit with
    | zero => rfl
    | succ n =>
        unfold FileTree.copytree
        rw [hS]
        dsimp only
        rcases h with hlists | hblocked
        · rw [if_neg]
          rw [hlists S hS]
          simp
        · split
          · obtain ⟨e, hmade⟩ := FileTree.makedirs_of_blocked hblocked
              (FileTree.joinPath destDir [FileTree.basename source]).length
            rw [hmade]
          · rfl
  left
  rw [copyJob_eq hsource, destFor]
  split
  · exact ⟨rfl, fun q => rfl⟩
  · rename_i dest hdest
    split at hdest
    · cases hdest
    · cases hdest
      rw [hcopy]
      exact ⟨rfl, fun q => rfl⟩

/-- A job that can copy everything does, unless there is something at the destination. -/
theorem copySound_of_complete (hsource : t.lstat source = some .dir)
    (h : ctx.Complete t source destDir) {limit : ℕ} (hlimit : t.depth + 1 ≤ limit) :
  CopySound t source destDir (copyJob ctx limit (fun _ => false) t [source] destDir)
  := by
  obtain ⟨S, hS, hSdir⟩ := exists_realPath_of_isDir (isDir_of_lstat hsource)
  obtain ⟨D, hD, hDdir⟩ := exists_realPath_of_isDir h.isDir
  rw [copyJob_eq hsource, destFor]
  cases hexists : t.pathExists (FileTree.joinPath destDir [FileTree.basename source]) with
  | true =>
      left
      exact ⟨rfl, fun q => rfl⟩
  | false =>
      rw [if_neg Bool.false_ne_true]
      dsimp only
      rw [copytree_eq ctx hS hSdir hD hDdir (plain_of_not_pathExists hD hDdir hexists)]
      by_cases hnew : t.lookup (D ++ [FileTree.basename source]) = none
      · have hcopyable : FileTree.Copyable t S D (FileTree.basename source) := by
          refine ⟨hSdir, hDdir, hnew, ?_⟩
          intro e entry hentry hunder
          rcases List.prefix_concat_iff.mp hunder with heq | habove
          · rw [heq, hnew] at hentry
            cases hentry
          · apply h.outside ⟨S, D, hS, hD, (List.prefix_append S [e]).trans habove, ?_⟩
            rintro rfl
            have hlength := habove.length_le
            rw [List.length_append, List.length_singleton] at hlength
            omega
        obtain ⟨t', hcopy, hcopied⟩ :=
          FileTree.copies_copyDir ctx limit t S D (FileTree.basename source) hcopyable
            (h.allows S hS D hD) (by
              intro rest entry hentry
              have hdepth := FileTree.length_le_depth hentry
              rw [List.length_append] at hdepth
              omega)
        right
        rw [hcopy]
        exact ⟨rfl, S, D, hS, hD, hnew, hcopied⟩
      · have hcreate : t.create D (FileTree.basename source) .dir = none := by
          rw [← Option.not_isSome_iff_eq_none, FileTree.create_isSome]
          rintro ⟨-, hnone⟩
          apply hnew hnone
        obtain ⟨n, rfl⟩ := Nat.exists_eq_add_of_lt (Nat.lt_of_succ_le hlimit)
        left
        rw [FileTree.copyDir, hcreate, ite_self]
        exact ⟨rfl, fun q => rfl⟩

/-- A copy that can make something makes it. -/
theorem exists_made_of_copytree {S : FileTree.Location} (hS : t.realPath source = some S)
    (hSdir : t.lookup S = some .dir) (hlists : ctx.lists S = true) {dest front : List String}
    (hfront : front <+: dest) {made : FileTree × FileTree.Location}
    (hmake : FileTree.mkdir ctx.makes t front = .ok made) (n : ℕ) :
  ∃ loc, t.lookup loc = none ∧ ((t.copytree ctx (n + 1) source dest).1.lookup loc).isSome
  := by
  obtain ⟨loc, hnone, hmade⟩ := FileTree.exists_made_of_makedirs hfront hmake (Nat.le_refl _)
  obtain ⟨entry, hentry⟩ := Option.isSome_iff_exists.mp hmade
  use loc, hnone
  unfold FileTree.copytree
  rw [hS]
  dsimp only
  rw [if_pos ⟨hSdir, hlists⟩]
  split
  · rename_i t' e hresult
    rw [hresult] at hmade
    apply hmade
  · rename_i t' top hresult
    rw [hresult] at hentry
    have hgrows := @FileTree.grows_copyEntries ctx _ (FileTree.grows_copyDir ctx n) S top
      (t.names S) t' loc entry hentry
    dsimp only
    rw [hgrows]
    rfl

/-- A job that can make something is sound only if everything can be copied. -/
theorem complete_of_copySound (hsource : t.lstat source = some .dir)
    (hblocked : ¬ ctx.Blocked t source destDir) {n : ℕ}
    (h : CopySound t source destDir (copyJob ctx (n + 1) (fun _ => false) t [source] destDir)) :
  ctx.Complete t source destDir
  := by
  obtain ⟨S, hS, hSdir⟩ := exists_realPath_of_isDir (isDir_of_lstat hsource)
  rw [CopyContext.Blocked, not_or] at hblocked
  push Not at hblocked
  obtain ⟨⟨S', hS', hlists⟩, front, hfront, made, hmake⟩ := hblocked
  cases hS.symm.trans hS'
  rw [Bool.ne_false_iff] at hlists
  have hexists : t.pathExists (FileTree.joinPath destDir [FileTree.basename source]) = false := by
    rw [Bool.eq_false_iff]
    intro hexists
    have hthere := FileTree.pathExists_of_start hfront hexists
    rw [FileTree.not_pathExists_of_mkdir hmake] at hthere
    cases hthere
  obtain ⟨loc, hnone, hmade⟩ := exists_made_of_copytree hS hSdir hlists hfront hmake n
  rw [copyJob_eq hsource, destFor, hexists, if_neg Bool.false_ne_true] at h
  dsimp only at h
  rcases hcopy : t.copytree ctx (n + 1) source
    (FileTree.joinPath destDir [FileTree.basename source]) with ⟨t', done⟩
  rw [hcopy] at h hmade
  cases done with
  | false =>
      exfalso
      rcases h with ⟨-, hsame⟩ | ⟨hdone, -⟩
      · rw [hsame, hnone] at hmade
        cases hmade
      · cases hdone
  | true =>
      rcases h with ⟨hfailed, -⟩ | ⟨-, S', D, hS', hD, hnew, hcopied⟩
      · cases hfailed
      · cases hS.symm.trans hS'
        -- what is copied is in the directory, which was there before
        have htop := hcopied.copy []
        rw [List.append_nil, List.append_nil, hSdir] at htop
        have hDdir : t.lookup D = some .dir := by
          rw [← hcopied.frame D, FileTree.lookup_parent htop]
          intro hunder
          have hlength := hunder.length_le
          rw [List.length_append, List.length_singleton] at hlength
          omega
        rw [copytree_eq ctx hS hSdir hD hDdir (plain_of_not_pathExists hD hDdir hexists)] at hcopy
        refine ⟨?_, ?_, ?_⟩
        · rw [FileTree.isDir, FileTree.stat, hD, Option.bind_some, hDdir]
          rfl
        · rintro ⟨S', D', hS', hD', ⟨rest, rfl⟩, hne⟩
          cases hS.symm.trans hS'
          cases hD.symm.trans hD'
          have hrest : rest ≠ [] := by
            rintro rfl
            rw [List.append_nil] at hne
            contradiction
          obtain ⟨e, rest', rfl⟩ := List.exists_cons_of_ne_nil hrest
          have hinside := @FileTree.copyDir_inside ctx (n + 1) t S (S ++ e :: rest')
            (FileTree.basename source) e ⟨rest', by simp⟩ hDdir
          rw [hcopy] at hinside
          cases hinside
        · intro S' hS' D' hD'
          cases hS.symm.trans hS'
          cases hD.symm.trans hD'
          apply FileTree.allowsAll_of_copyDir hSdir hcopy

/-- For every tree, every directory to be copied and every path it is copied to, the job is sound, with every
limit that is large enough, if and only if nothing can be made, or the path is that of a directory that
does not lie inside the one to be copied, and all of this can be copied. -/
theorem copyJob_iff (ctx : CopyContext) {t : FileTree} {source destDir : List String}
    (hsource : t.lstat source = some .dir) :
  (∃ n, ∀ limit, n ≤ limit →
      CopySound t source destDir (copyJob ctx limit (fun _ => false) t [source] destDir))
    ↔ ctx.Blocked t source destDir ∨ ctx.Complete t source destDir
  := by
  constructor
  · rintro ⟨n, hsound⟩
    by_cases hblocked : ctx.Blocked t source destDir
    · left
      apply hblocked
    · right
      apply complete_of_copySound hsource hblocked (hsound (n + 1) (Nat.le_succ n))
  · rintro (hblocked | hcomplete)
    · use 0
      intro limit _
      apply copySound_of_blocked hsource hblocked
    · use t.depth + 1
      intro limit hlimit
      apply copySound_of_complete hsource hcomplete hlimit

end

/-- When everything is allowed, everything can be copied. -/
theorem CopyContext.allowsAll_free (t : FileTree) (src dst : FileTree.Location) :
  CopyContext.free.AllowsAll t src dst
  := by
  intro rest entry _
  cases entry with
  | file content => rfl
  | link absolute target => rfl
  | dir => exact ⟨rfl, rfl, rfl⟩

/-- A folder with a file in it is copied into itself. -/
theorem sound_itself :
  ∃ n, ∀ limit, n ≤ limit →
    CopySound folderWithFile ["", "d"] ["", "d"]
      (copyJob .free limit (fun _ => false) folderWithFile [["", "d"]] ["", "d"])
  := by
  apply (copyJob_iff .free (by decide +kernel)).mpr
  right
  refine ⟨by decide +kernel, ?_, fun S _ D _ => CopyContext.allowsAll_free _ _ _⟩
  rintro ⟨S, D, hS, hD, -, hne⟩
  apply hne
  rw [← Option.some_inj, ← hS, hD]

/-- A folder with a folder in it. -/
def folderWithFolder : FileTree :=
  ((FileTree.bare.create [] "d" .dir).bind fun t => t.create ["d"] "e" .dir).getD FileTree.bare

/-- When a folder is copied into one inside of it, the job leaves the files changed, and is not done. -/
theorem not_sound_nested :
  ¬ ∃ n, ∀ limit, n ≤ limit →
    CopySound folderWithFolder ["", "d"] ["", "d", "e"]
      (copyJob .free limit (fun _ => false) folderWithFolder [["", "d"]] ["", "d", "e"])
  := by
  rw [copyJob_iff .free (by decide +kernel)]
  rintro ((hlists | hblocked) | hcomplete)
  · have hnever : true = false := hlists ["d"] (by decide +kernel)
    cases hnever
  · have hmkdir : (FileTree.mkdir (fun _ => true) folderWithFolder ["", "d", "e", "d"]).isOk = true := by
      decide +kernel
    cases hmade : FileTree.mkdir (fun _ => true) folderWithFolder ["", "d", "e", "d"] with
    | error e =>
        rw [hmade] at hmkdir
        cases hmkdir
    | ok made => apply hblocked ["", "d", "e", "d"] List.prefix_rfl made hmade
  · apply hcomplete.outside
    exact ⟨["d"], ["d", "e"], by decide +kernel, by decide +kernel, by simp, by simp⟩
