import NasOs.Acl.Commands

/-!
# Reading permissions and writing them back

The permissions of a path are read from the lines that `getfacl` prints and written back by
`replace_all`.  Two levels stand for the eight permissions an entry can have: an entry that lets write
comes back as `rwx`, and every other one as `r-x`.  This is so where the mask takes nothing from
the named entries (`readAcl_replaceAll`).
-/

/-- The level that is read for a permission. -/
def AclLevel.ofPerm (perm : Perm) : AclLevel :=
  if perm.write then .rw else .ro

/-- The entry that is read for a named entry. -/
def AclEntry.ofNamed (entry : (_ : Principal) × Perm) : AclEntry :=
  { kind := match entry.1 with
      | .user _ => .user
      | .group _ => .group
    numericId := entry.1.id
    level := .ofPerm entry.2 }

/-- The entries that are read, users before groups. -/
def NamedEntries.read (named : NamedEntries) : List AclEntry :=
  ["user", "group"].flatMap fun tag =>
    (named.entries.filter fun entry => entry.1.tag = tag).map AclEntry.ofNamed

/-! ### Reading the lines -/

namespace SetfaclAcl

/-- The lines add the entries. -/
def Parses (lines : List (List Char)) (entries : List AclEntry) : Prop :=
  List.flatten <$> lines.mapM parseLine = .ok entries

theorem parses_nil :
  Parses [] []
  := rfl

theorem Parses.cons {line : List Char} {lines : List (List Char)} {entries entries' : List AclEntry}
    (hline : parseLine line = .ok entries) (hlines : Parses lines entries') :
  Parses (line :: lines) (entries ++ entries')
  := by
  cases h : lines.mapM parseLine with
  | error e =>
      rw [Parses, h] at hlines
      cases hlines
  | ok parsed =>
      rw [Parses, h] at hlines
      cases hlines
      rw [Parses, List.mapM_cons, hline, h]
      rfl

/-- Lines that add nothing. -/
theorem Parses.skip {lines lines' : List (List Char)} {entries : List AclEntry}
    (h : ∀ line ∈ lines, parseLine line = .ok []) (hlines : Parses lines' entries) :
  Parses (lines ++ lines') entries
  := by
  induction lines with
  | nil => apply hlines
  | cons line lines ih =>
      apply Parses.cons (h line List.mem_cons_self)
      apply ih fun line' h' => h line' (List.mem_cons_of_mem _ h')

/-- Lines that add an entry each. -/
theorem Parses.map {α : Type} {line : α → List Char} {entry : α → AclEntry} {as : List α}
    {lines : List (List Char)} {entries : List AclEntry}
    (h : ∀ a ∈ as, parseLine (line a) = .ok [entry a]) (hlines : Parses lines entries) :
  Parses (as.map line ++ lines) (as.map entry ++ entries)
  := by
  induction as with
  | nil => apply hlines
  | cons a as ih =>
      apply Parses.cons (h a List.mem_cons_self)
      apply ih fun a' h' => h a' (List.mem_cons_of_mem _ h')

/-- A permission is the end of a line, and has a last letter that stays. -/
theorem getLast?_append_text (l : List Char) (perm : Perm) :
  ∀ c ∈ (l ++ perm.text).getLast?, Text.isSpace c = false
  := by
  intro c hc
  have htext : perm.text ≠ [] := by simp [Perm.text]
  rw [List.getLast?_append_of_ne_nil _ htext] at hc
  apply (Perm.not_isSpace_of_mem_text (List.mem_of_mem_getLast? hc)).1

/-- Every line of an entry ends with a permission. -/
theorem exists_line_eq (start tag : String) (id : List Char) (perm mask : Perm) :
  ∃ (l : List Char) (p : Perm), AclTag.line start tag id perm mask
    = start.toList ++ tag.toList ++ ':' :: id ++ ':' :: (l ++ p.text)
  := by
  simp only [AclTag.line]
  split
  · use [], perm
    rfl
  · generalize List.replicate _ '\t' = tabs
    use perm.text ++ tabs ++ "#effective:".toList, perm ∩ mask
    simp only [List.append_assoc, List.cons_append]

/-- The tags are words without whitespace or colons. -/
theorem tag_spec {tag : String} (h : tag ∈ ["user", "group", "mask", "other"]) :
  ':' ∉ tag.toList ∧ tag.toList ≠ [] ∧ ∀ c ∈ tag.toList, Text.isSpace c = false
  := by
  simp only [List.mem_cons, List.not_mem_nil, or_false] at h
  rcases h with rfl | rfl | rfl | rfl
  all_goals exact ⟨by decide, by decide, List.forall_iff_forall_mem.mp (by decide)⟩

/-- Trimming leaves the line of an entry as it is. -/
theorem strip_line {start tag : String} {id : List Char} {perm mask : Perm}
    (h : ∀ c ∈ start.toList ++ tag.toList, Text.isSpace c = false)
    (hne : start.toList ++ tag.toList ≠ []) :
  Text.strip (AclTag.line start tag id perm mask) = AclTag.line start tag id perm mask
  := by
  obtain ⟨l, p, hline⟩ := exists_line_eq start tag id perm mask
  rw [hline]
  apply Text.strip_eq_self
  · intro c hc
    apply h c
    rw [List.append_assoc _ (':' :: id), List.head?_append_of_ne_nil _ hne] at hc
    apply List.mem_of_mem_head? hc
  · have hend := getLast?_append_text (start.toList ++ tag.toList ++ ':' :: id ++ ':' :: l) p
    rw [List.append_assoc, List.cons_append] at hend
    apply hend

/-- The fields of the line of an entry of the access list. -/
theorem splitOn_line {tag : String} (htag : ':' ∉ tag.toList) {id : List Char} (hid : ':' ∉ id)
    (l : List Char) :
  ("".toList ++ tag.toList ++ ':' :: id ++ ':' :: l).splitOn ':'
    = tag.toList :: id :: l.splitOn ':'
  := by
  have hlist : "".toList ++ tag.toList ++ ':' :: id ++ ':' :: l
      = tag.toList ++ ':' :: (id ++ ':' :: l) := by
    simp
  rw [hlist, List.splitOn_append_cons_of_beq _ _ (beq_self_eq_true ':'),
    List.splitOn_append_cons_of_beq _ _ (beq_self_eq_true ':'), List.splitOn_eq_singleton htag,
    List.splitOn_eq_singleton hid]
  rfl

/-- The line of an entry that is for no principal adds nothing. -/
theorem parseLine_unnamed {tag : String} (htag : tag ∈ ["user", "group", "mask", "other"])
    (perm mask : Perm) :
  parseLine (AclTag.line "" tag [] perm mask) = .ok []
  := by
  obtain ⟨hcolon, hne, hspace⟩ := tag_spec htag
  have hstrip : Text.strip (AclTag.line "" tag [] perm mask) = AclTag.line "" tag [] perm mask :=
    strip_line hspace hne
  obtain ⟨l, p, hline⟩ := exists_line_eq "" tag [] perm mask
  have hsplit : (AclTag.line "" tag [] perm mask).splitOn ':'
      = tag.toList :: [] :: (l ++ p.text).splitOn ':' := by
    rw [hline, splitOn_line hcolon List.not_mem_nil]
  simp only [parseLine, hstrip, hsplit]
  split
  · rfl
  · split
    · rename_i heq
      simp only [List.cons.injEq] at heq
      obtain ⟨-, rfl, -⟩ := heq
      simp
    · rfl

/-- The lines of a default list add nothing. -/
theorem parseLine_default {tag : String} (htag : tag ∈ ["user", "group", "mask", "other"])
    (id : List Char) (perm mask : Perm) :
  parseLine (AclTag.line "default:" tag id perm mask) = .ok []
  := by
  obtain ⟨-, hne, hspace⟩ := tag_spec htag
  have hstart : ∀ c ∈ "default:".toList, Text.isSpace c = false :=
    List.forall_iff_forall_mem.mp (by decide)
  have hstrip : Text.strip (AclTag.line "default:" tag id perm mask)
      = AclTag.line "default:" tag id perm mask := by
    apply strip_line
    · intro c hc
      rcases List.mem_append.mp hc with hc | hc
      · apply hstart c hc
      · apply hspace c hc
    · apply List.append_ne_nil_of_right_ne_nil _ hne
  obtain ⟨l, p, hline⟩ := exists_line_eq "default:" tag id perm mask
  have hprefix : "default:".toList <+: AclTag.line "default:" tag id perm mask := by
    rw [hline]
    simp only [List.append_assoc]
    apply List.prefix_append
  simp only [parseLine, hstrip, hprefix, or_true, if_true]

/-- The line of a named entry that the mask takes nothing from adds its entry. -/
theorem parseLine_named {entry : (_ : Principal) × Perm} {mask : Perm}
    (hmask : entry.2 ∩ mask = entry.2) :
  parseLine (AclTag.line "" entry.1.tag (Nat.toDigits 10 entry.1.id) entry.2 mask)
    = .ok [.ofNamed entry]
  := by
  obtain ⟨principal, perm⟩ := entry
  have htag : principal.tag ∈ ["user", "group", "mask", "other"] := by
    cases principal
    all_goals simp [Principal.tag]
  obtain ⟨hcolon, hne, hspace⟩ := tag_spec htag
  have hdigits : ':' ∉ Nat.toDigits 10 principal.id := by
    intro h
    have hdigit := Nat.isDigit_of_mem_toDigits (by decide) (by decide) h
    cases hdigit
  have hperm : ':' ∉ perm.text := fun h => (Perm.not_isSpace_of_mem_text h).2.1 rfl
  have hstrip := @strip_line "" principal.tag (Nat.toDigits 10 principal.id) perm mask hspace hne
  have hline : AclTag.line "" principal.tag (Nat.toDigits 10 principal.id) perm mask
      = "".toList ++ principal.tag.toList ++ ':' :: Nat.toDigits 10 principal.id
        ++ ':' :: perm.text := if_pos hmask
  have hsplit : (AclTag.line "" principal.tag (Nat.toDigits 10 principal.id) perm mask).splitOn ':'
      = [principal.tag.toList, Nat.toDigits 10 principal.id, perm.text] := by
    rw [hline, splitOn_line hcolon hdigits, List.splitOn_eq_singleton hperm]
  simp only [parseLine, hstrip]
  split
  · rename_i hskip
    rw [hline] at hskip
    cases principal
    all_goals simp [Principal.tag] at hskip
  · have hkind : (principal.tag.toList = "user".toList ∨ principal.tag.toList = "group".toList)
        ∧ Nat.toDigits 10 principal.id ≠ [] := by
      use by cases principal <;> simp [Principal.tag], Nat.toDigits_ne_nil
    simp only [hsplit]
    rw [if_pos hkind, Text.int_toDigits]
    cases principal
    all_goals simp [AclEntry.ofNamed, AclLevel.ofPerm, Perm.mem_text_iff, Principal.tag]

/-- The mask takes nothing from the named entries. -/
def Unmasked (acl : Acl) : Prop :=
  ∀ entry ∈ acl.named.entries, entry.2 ∩ acl.maskPerm = entry.2

/-- The lines of the named entries of a kind. -/
theorem Parses.namedLines {acl : Acl} (h : Unmasked acl) (tag : String) {lines : List (List Char)}
    {entries : List AclEntry} (hlines : Parses lines entries) :
  Parses (acl.namedLines "" tag ++ lines)
    ((acl.named.entries.filter fun entry => entry.1.tag = tag).map AclEntry.ofNamed ++ entries)
  := by
  apply hlines.map
  intro entry hentry
  obtain ⟨hmem, htag⟩ := List.mem_filter.mp hentry
  rw [← of_decide_eq_true htag]
  apply parseLine_named (h entry hmem)

/-- The lines of a default list are those of entries of the default list. -/
theorem exists_of_mem_lines {acl : Acl} {start : String} {line : List Char}
    (h : line ∈ acl.lines start) :
  ∃ tag ∈ ["user", "group", "mask", "other"], ∃ id perm mask,
    (∀ c ∈ id, c.isDigit = true) ∧ line = AclTag.line start tag id perm mask
  := by
  have hnamed : ∀ tag ∈ ["user", "group", "mask", "other"], line ∈ acl.namedLines start tag →
      ∃ tag ∈ ["user", "group", "mask", "other"], ∃ id perm mask,
        (∀ c ∈ id, c.isDigit = true) ∧ line = AclTag.line start tag id perm mask := by
    intro tag htag hline
    obtain ⟨entry, -, rfl⟩ := List.mem_map.mp hline
    refine ⟨tag, htag, _, _, _, ?_, rfl⟩
    intro c hc
    apply Nat.isDigit_of_mem_toDigits (by decide) (by decide) hc
  simp only [Acl.lines, List.mem_append, List.mem_cons, List.not_mem_nil, or_false,
    Option.mem_toList, Option.map_eq_some_iff] at h
  rcases h with (((rfl | h) | rfl | h) | ⟨mask, -, rfl⟩) | rfl
  · exact ⟨"user", by simp, [], _, _, by simp, rfl⟩
  · apply hnamed "user" (by simp) h
  · exact ⟨"group", by simp, [], _, _, by simp, rfl⟩
  · apply hnamed "group" (by simp) h
  · exact ⟨"mask", by simp, [], _, _, by simp, rfl⟩
  · exact ⟨"other", by simp, [], _, _, by simp, rfl⟩

/-- The lines of the lists of a file add the named entries of its access list. -/
theorem parses_lines {file : FileAcl} (h : Unmasked file.access) :
  Parses file.lines (NamedEntries.read file.access.named)
  := by
  have hdefault : ∀ line ∈ (file.default.map fun acl => acl.lines "default:").getD [] ++ [[]],
      parseLine line = .ok [] := by
    intro line hline
    rcases List.mem_append.mp hline with hline | hline
    · cases hdefault : file.default with
      | none =>
          rw [hdefault] at hline
          cases hline
      | some acl =>
          rw [hdefault] at hline
          obtain ⟨tag, htag, id, perm, mask, -, rfl⟩ := exists_of_mem_lines hline
          apply parseLine_default htag
    · rw [List.mem_singleton.mp hline]
      rfl
  have htail : ∀ line ∈ (file.access.mask.map fun mask => AclTag.line "" "mask" [] mask Perm.all).toList
      ++ [AclTag.line "" "other" [] file.access.other Perm.all], parseLine line = .ok [] := by
    intro line hline
    simp only [List.mem_append, Option.mem_toList, Option.map_eq_some_iff,
      List.mem_singleton] at hline
    rcases hline with ⟨mask, -, rfl⟩ | rfl
    · apply parseLine_unnamed (by simp)
    · apply parseLine_unnamed (by simp)
  have hrest := Parses.skip htail (Parses.skip hdefault parses_nil)
  have hgroups := Parses.cons
    (@parseLine_unnamed "group" (by simp) file.access.groupObj file.access.maskPerm)
    (hrest.namedLines h "group")
  have husers := Parses.cons (@parseLine_unnamed "user" (by simp) file.access.userObj Perm.all)
    (hgroups.namedLines h "user")
  simpa [FileAcl.lines, Acl.lines, NamedEntries.read] using husers

/-- What is read of a file are the named entries of its access list. -/
theorem parseGetfacl_text {file : FileAcl} (h : Unmasked file.access) :
  parseGetfacl (String.ofList file.text) = .ok (NamedEntries.read file.access.named)
  := by
  rw [parseGetfacl, String.toList_ofList, FileAcl.text, Text.splitlines_flatMap]
  · apply parses_lines h
  · have hlist : ∀ (acl : Acl) (start : String), (∀ c ∈ start.toList, Text.isLineBreak c = false) →
        ∀ line ∈ acl.lines start, ∀ c ∈ line, Text.isLineBreak c = false := by
      intro acl start hstart line hline c hc
      obtain ⟨tag, htag, id, perm, mask, hid, rfl⟩ := exists_of_mem_lines hline
      obtain ⟨-, -, hspace⟩ := tag_spec htag
      apply AclTag.not_isLineBreak_line hstart _ hid perm mask hc
      intro d hd
      apply not_isLineBreak_of_not_isSpace (hspace d hd)
    intro line hline
    simp only [FileAcl.lines, List.mem_append, List.mem_singleton] at hline
    rcases hline with (hline | hline) | rfl
    · apply hlist _ "" (by simp) line hline
    · cases hdefault : file.default with
      | none =>
          rw [hdefault] at hline
          cases hline
      | some acl =>
          rw [hdefault] at hline
          apply hlist acl "default:" (List.forall_iff_forall_mem.mp (by decide)) line hline
    · simp

end SetfaclAcl

/-! ### Writing back what was read -/

theorem AclEntry.principal_ofNamed (entry : (_ : Principal) × Perm) :
  (AclEntry.ofNamed entry).principal = entry.1
  := by
  rcases entry with ⟨_ | _, perm⟩
  all_goals rfl

theorem NamedEntries.mem_read {named : NamedEntries} {e : AclEntry} :
  e ∈ named.read ↔ ∃ entry ∈ named.entries, AclEntry.ofNamed entry = e
  := by
  simp only [read, List.mem_flatMap, List.mem_map, List.mem_filter]
  constructor
  · rintro ⟨tag, -, entry, ⟨hentry, -⟩, he⟩
    use entry, hentry
  · rintro ⟨entry, hentry, he⟩
    use entry.1.tag
    constructor
    · cases entry.1
      all_goals simp [Principal.tag]
    · use entry
      simpa using ⟨hentry, he⟩

/-- The entries read are the named entries, with their permissions as levels. -/
theorem lookup_grants_read (named : NamedEntries) (principal : Principal) :
  (grants named.read).lookup principal
    = (named.lookup principal).map fun perm => (AclLevel.ofPerm perm).toPerm
  := by
  let f := fun principal =>
    ((named.lookup principal).map fun perm => (AclLevel.ofPerm perm).toPerm).getD Perm.none
  have hread : ∀ spec ∈ named.read.map (AclEntry.toSpec false), ∀ principal,
      spec.tag = .named principal → ∃ perm, named.lookup principal = some perm
        ∧ spec.perm = (AclLevel.ofPerm perm).toPerm := by
    intro spec hspec principal htag
    obtain ⟨e, he, rfl⟩ := List.mem_map.mp hspec
    obtain ⟨entry, hentry, rfl⟩ := NamedEntries.mem_read.mp he
    obtain rfl : entry.1 = principal := by
      rw [← AclEntry.principal_ofNamed]
      apply AclTag.named.inj htag
    use entry.2, AList.mem_lookup_iff.mpr hentry
    rfl
  have hspecs : ∀ spec ∈ named.read.map (AclEntry.toSpec false), ∀ principal,
      spec.tag = .named principal → spec.perm = f principal := by
    intro spec hspec principal htag
    obtain ⟨perm, hlookup, hperm⟩ := hread spec hspec principal htag
    simp only [f, hlookup, hperm, Option.map_some, Option.getD_some]
  rw [grants, Acl.lookup_namedBy hspecs]
  cases hlookup : named.lookup principal with
  | some perm =>
      have hset : ∃ spec ∈ named.read.map (AclEntry.toSpec false), spec.tag = .named principal := by
        refine ⟨_, List.mem_map_of_mem (NamedEntries.mem_read.mpr
          ⟨⟨principal, perm⟩, AList.mem_lookup_iff.mp hlookup, rfl⟩), ?_⟩
        apply congrArg AclTag.named (AclEntry.principal_ofNamed _)
      rw [if_pos hset]
      simp only [f, hlookup, Option.map_some, Option.getD_some]
  | none =>
      have hunset : ¬ ∃ spec ∈ named.read.map (AclEntry.toSpec false),
          spec.tag = .named principal := by
        rintro ⟨spec, hspec, htag⟩
        obtain ⟨perm, hsome, -⟩ := hread spec hspec principal htag
        cases hlookup.symm.trans hsome
      rw [if_neg hunset]
      apply AList.lookup_empty

/-- Read the permissions of a path and write them back unchanged. -/
def rewriteAcl (path : String) (recursive : Bool) : AclM Unit := do
  let entries ← SetfaclAcl.readAcl path
  SetfaclAcl.replaceAll path entries recursive

/-- Reading the permissions of a path. -/
theorem SetfaclAcl.execute_readAcl (path : String) {file : FileAcl} (h : Unmasked file.access) :
  (readAcl path).run.execute (FileAcl.answer path) file = (.ok file.access.named.read, file)
  := by
  have hanswer : file.answer path (.run (getfaclArgv path))
      = (.ok ⟨0, String.ofList file.text, ""⟩, file) := by
    simp [FileAcl.answer, getfaclArgv, FileAcl.command]
  change Coroutine.execute _ (.await (AclOp.run (getfaclArgv path)) _) _ = _
  rw [Coroutine.execute_await, hanswer]
  change Coroutine.execute _ (.done (parseGetfacl (String.ofList file.text))) _ = _
  rw [parseGetfacl_text h]
  rfl

/-- What is written back are the entries that were read. -/
theorem execute_rewriteAcl (path : String) {file : FileAcl} {recursive : Bool}
    (hdir : file.isDir ∨ recursive) (hmask : SetfaclAcl.Unmasked file.access) :
  (rewriteAcl path recursive).run.execute (FileAcl.answer path) file
    = (.ok (), replacedFile file.isDir file.access.named.read)
  := by
  have hids : ∀ e ∈ file.access.named.read, 0 ≤ e.numericId := by
    intro e he
    obtain ⟨entry, -, rfl⟩ := NamedEntries.mem_read.mp he
    apply Int.natCast_nonneg
  rw [rewriteAcl, ExceptT.run_bind, Coroutine.execute_bind, SetfaclAcl.execute_readAcl path hmask]
  apply SetfaclAcl.execute_replaceAll path file hids hdir

/-- When the mask takes nothing from the named entries, every named principal keeps an entry and no
other gets one; an entry that lets write grants everything, and every other one everything but
writing. -/
theorem readAcl_replaceAll {path : String} {file : FileAcl} {recursive : Bool}
    (hdir : file.isDir ∨ recursive) (hmask : SetfaclAcl.Unmasked file.access) :
  ∃ file', (rewriteAcl path recursive).run.execute (FileAcl.answer path) file = (.ok (), file')
    ∧ ∀ principal, file'.access.effective principal
        = (file.access.effective principal).map fun perm =>
            if perm.write then Perm.all else Perm.readExecute
  := by
  use replacedFile file.isDir file.access.named.read, execute_rewriteAcl path hdir hmask
  intro principal
  have hlookup := lookup_grants_read file.access.named principal
  simp only [Acl.effective, replacedFile, replacedAcl, hlookup, Option.map_map]
  cases h : file.access.named.lookup principal with
  | none => rfl
  | some perm =>
      have hperm := hmask ⟨principal, perm⟩ (AList.mem_lookup_iff.mp h)
      simp only [Option.map_some, Function.comp_apply, hperm]
      simp only [Acl.maskPerm, Option.getD_some, Perm.inter_all, AclLevel.ofPerm]
      split
      all_goals rfl

/-- A directory with an entry for one user. -/
def userDirectory (perm : Perm) : FileAcl :=
  { isDir := true
    access :=
      { userObj := Perm.all
        groupObj := Perm.none
        other := Perm.none
        mask := some Perm.all
        named := AList.singleton (.user 1001) perm
        masked := by simp }
    default := none
    default_isDir := FileAcl.default_isDir_none true }

theorem userDirectory_unmasked (perm : Perm) :
  SetfaclAcl.Unmasked (userDirectory perm).access
  := by
  intro entry hentry
  apply Perm.inter_all

/-- A user who may write a directory keeps their entry. -/
theorem readAcl_replaceAll_user :
  ∃ file', (rewriteAcl "/volume1/media" false).run.execute (FileAcl.answer "/volume1/media")
      (userDirectory Perm.all) = (.ok (), file')
    ∧ file'.access.effective (.user 1001) = some Perm.all
  := by
  obtain ⟨file', hrun, heffective⟩ := @readAcl_replaceAll "/volume1/media" (userDirectory Perm.all)
    false (Or.inl rfl) (userDirectory_unmasked Perm.all)
  use file', hrun
  apply heffective

/-- A user who may only read a directory may enter it when their entry was written back. -/
theorem readAcl_replaceAll_gains :
  ¬ ∀ (path : String) (file : FileAcl) (recursive : Bool), file.isDir →
      ∃ file', (rewriteAcl path recursive).run.execute (FileAcl.answer path) file = (.ok (), file')
        ∧ ∀ principal perm, file.access.effective principal = some perm →
            ∃ perm', file'.access.effective principal = some perm' ∧ perm' ⊆ perm
  := by
  intro hall
  obtain ⟨file', hrun, hkeeps⟩ := hall "/volume1/media" (userDirectory ⟨true, false, false⟩) false rfl
  rw [execute_rewriteAcl "/volume1/media" (Or.inl rfl) (userDirectory_unmasked _)] at hrun
  obtain ⟨perm', heffective, hsubset⟩ := hkeeps (.user 1001) ⟨true, false, false⟩ (by decide)
  cases hrun
  have hgained : (replacedFile true (NamedEntries.read
      (userDirectory ⟨true, false, false⟩).access.named)).access.effective (.user 1001)
      = some Perm.readExecute := by decide
  cases hgained.symm.trans heffective
  revert hsubset
  decide
