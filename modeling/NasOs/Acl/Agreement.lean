import Mathlib.Data.List.Induction
import Mathlib.Logic.Function.Basic
import NasOs.Acl.RoundTrip

/-!
# The two adapters for permissions

`SetfaclAcl` runs commands on the files of a machine, `FakeAcl` keeps dictionaries.  A save of a path
alone leaves the same entries with both when the path is a directory: those of the list, the last level
winning where a principal is repeated.  On another file the commands drop the entries and then fail, as
the rebuild sets a default list there, while the dictionary has the entries.

A dictionary is kept for every path as it is written, while several paths may name one file and others
none; the commands may be refused, and they do not take every number for that of a principal.  So after a
run of saves the two read the same on a path if and only if it names a file, and the last save that the
file took, on whatever path, left what the last save of the path says (`agreeAfter_iff`).

A save that raises is not the end of a run.
-/

/-! ### The files of a machine -/

/-- What `setfacl` makes of the commands of a save. -/
structure AclTools where
  /-- The reset is not refused. -/
  resets : Bool
  /-- The rebuild is not refused. -/
  applies : Bool
  /-- The number of a principal that a numeral is read as. -/
  number : ℕ → Option ℕ

/-- Nothing is refused, and a principal has a number of 32 bits, which is not the last of them. -/
def AclTools.plain : AclTools where
  resets := true
  applies := true
  number n := if n < 2 ^ 32 - 1 then some n else none

/-- A principal with the number that its own is read as. -/
def Principal.renumber (number : ℕ → Option ℕ) : Principal → Option Principal
  | .user id => (number id).map .user
  | .group id => (number id).map .group

/-- A change with the number that the one in it is read as. -/
def AclSpec.renumber (number : ℕ → Option ℕ) (spec : AclSpec) : Option AclSpec :=
  match spec.tag with
  | .named principal =>
      (principal.renumber number).map fun principal => { spec with tag := .named principal }
  | _ => some spec

/-- What a command does to the lists of the file that its last argument names, and what it prints, if it
succeeds. -/
def AclTools.command (tools : AclTools) (file : FileAcl) : List String → Option (String × FileAcl)
  | ["setfacl", "-b", _] => if tools.resets then some ("", file.removeAll) else none
  | ["setfacl", "-m", specs, _] =>
      if tools.applies then
        (AclSpec.parseList specs.toList).bind fun specs =>
          (specs.mapM (AclSpec.renumber tools.number)).bind fun specs =>
            (file.modify false specs).map fun file => ("", file)
      else none
  | ["getfacl", "-n", "--absolute-names", "--omit-header", _] =>
      some (String.ofList file.text, file)
  | _ => none

/-- The lists of the files. -/
abbrev AclFiles : Type :=
  ℕ → FileAcl

/-- A save of a path alone. -/
structure AclCall where
  path : String
  entries : List AclEntry
  tools : AclTools

namespace AclFiles

/-- What a command on a path prints and leaves, if it succeeds; `names` says which file a path names. -/
def command (names : String → Option ℕ) (tools : AclTools) (files : AclFiles) (path : String)
    (argv : List String) : Option (String × AclFiles) :=
  (names path).bind fun i =>
    (tools.command (files i) argv).map fun result => (result.1, Function.update files i result.2)

/-- Run a command on the file that its last argument names. -/
def answer (names : String → Option ℕ) (tools : AclTools) (files : AclFiles) :
    (op : AclOp) → op.Answer × AclFiles
  | .run argv =>
      match files.command names tools (argv.getLast?.getD "") argv with
      | some (out, files') => (.ok ⟨0, out, ""⟩, files')
      | none => (.ok ⟨1, "", ""⟩, files)
  | .acquire _ => ((), files)
  | .release _ => ((), files)

/-- What a save leaves, with `SetfaclAcl`. -/
def call (names : String → Option ℕ) (files : AclFiles) (call : AclCall) : AclFiles :=
  ((SetfaclAcl.replaceAll call.path call.entries false).run.execute (answer names call.tools) files).2

/-- What is read of a path, with `SetfaclAcl`. -/
def reading (names : String → Option ℕ) (files : AclFiles) (path : String) :
    Except Exc (List AclEntry) :=
  ((SetfaclAcl.readAcl path).run.execute (answer names .plain) files).1

end AclFiles

/-- What a save leaves, with `FakeAcl`. -/
def FakeAcl.call (acl : FakeAcl) (call : AclCall) : FakeAcl :=
  acl.replaceAll call.path call.entries

/-! ### The last of several -/

/-- The level that a list gives a principal last. -/
def lastLevel (entries : List AclEntry) (key : PrincipalKind × ℤ) : Option AclLevel :=
  ((entries.filter fun e => e.key = key).getLast?).map AclEntry.level

/-- The list of the last save of a path. -/
def lastSaved (calls : List AclCall) (path : String) : Option (List AclEntry) :=
  ((calls.filter fun call => call.path = path).getLast?).map AclCall.entries

/-- What is read of a path are the entries of a list, the last level winning. -/
def ReadsAs (reading entries : List AclEntry) : Prop :=
  ∀ e, e ∈ reading ↔ lastLevel entries e.key = some e.level

@[simp]
theorem lastLevel_concat (entries : List AclEntry) (e : AclEntry) (key : PrincipalKind × ℤ) :
  lastLevel (entries ++ [e]) key = if e.key = key then some e.level else lastLevel entries key
  := by
  rw [lastLevel, List.filter_append]
  split
  · rename_i hkey
    simp [hkey]
  · rename_i hkey
    simp [hkey, lastLevel]

@[simp]
theorem lastSaved_concat (calls : List AclCall) (call : AclCall) (path : String) :
  lastSaved (calls ++ [call]) path
    = if call.path = path then some call.entries else lastSaved calls path
  := by
  rw [lastSaved, List.filter_append]
  split
  · rename_i hpath
    simp [hpath]
  · rename_i hpath
    simp [hpath, lastSaved]

/-! ### Reading the dictionary -/

/-- The dictionary of a list has the last level of every principal. -/
theorem FakeAcl.find?_levels (entries : List AclEntry) (key : PrincipalKind × ℤ) :
  (levels entries).find? key = (lastLevel entries key).map (key, ·)
  := by
  induction entries using List.reverseRecOn with
  | nil => rfl
  | append_singleton entries e ih =>
      have hfold : levels (entries ++ [e]) = (levels entries).put (e.key, e.level) := by
        rw [levels, List.foldl_append]
        rfl
      rw [hfold, Table.find?_put, ih, lastLevel_concat]
      split
      · rename_i hkey
        rw [← hkey, Option.map_some]
      · rfl

/-- What is read of a path is what its dictionary has. -/
theorem FakeAcl.mem_readAcl {acl : FakeAcl} {path : String} {e : AclEntry} :
  e ∈ acl.readAcl path
    ↔ ∃ levels, acl.entries.find? path = some (path, levels)
      ∧ levels.find? e.key = some (e.key, e.level)
  := by
  rw [readAcl, List.mem_map]
  cases hfind : acl.entries.find? path with
  | none => simp [Table.empty]
  | some item =>
      obtain ⟨path', levels⟩ := item
      obtain ⟨-, rfl⟩ := Table.find?_eq_some_iff.mp hfind
      simp only [Option.elim_some, Option.some.injEq, Prod.mk.injEq, true_and, exists_eq_left',
        Table.find?_eq_some_iff, AclEntry.key, and_true]
      constructor
      · rintro ⟨⟨⟨kind, id⟩, level⟩, hmem, rfl⟩
        apply hmem
      · intro hmem
        use ((e.kind, e.numericId), e.level), hmem

/-- After a save of a path, what is read of it are the entries that were saved. -/
theorem FakeAcl.readsAs_call (acl : FakeAcl) (call : AclCall) :
  ReadsAs ((acl.call call).readAcl call.path) call.entries
  := by
  intro e
  rw [mem_readAcl, FakeAcl.call, replaceAll, Table.find?_put, if_pos rfl]
  constructor
  · rintro ⟨levels', hlevels, hfind⟩
    cases hlevels
    rw [find?_levels] at hfind
    simpa using hfind
  · intro hlast
    use levels call.entries, rfl
    rw [find?_levels, hlast, Option.map_some]

/-- A save leaves what is read of other paths. -/
theorem FakeAcl.readAcl_call_ne (acl : FakeAcl) {call : AclCall} {path : String}
    (h : call.path ≠ path) :
  (acl.call call).readAcl path = acl.readAcl path
  := by
  rw [readAcl, FakeAcl.call, replaceAll, Table.find?_put, if_neg h, readAcl]

/-- A list that has each principal once reads as itself. -/
theorem readsAs_self {entries : List AclEntry}
    (h : ∀ e ∈ entries, ∀ e' ∈ entries, e.key = e'.key → e.level = e'.level) :
  ReadsAs entries entries
  := by
  have hlast : ∀ e' e : AclEntry, (entries.filter fun e'' => e''.key = e.key).getLast? = some e' →
      e' ∈ entries ∧ e'.key = e.key := by
    intro e' e hlast
    have hmem := List.mem_filter.mp (List.mem_of_getLast? hlast)
    exact ⟨hmem.1, of_decide_eq_true hmem.2⟩
  intro e
  rw [lastLevel, Option.map_eq_some_iff]
  constructor
  · intro he
    have hne : (entries.filter fun e' => e'.key = e.key) ≠ [] :=
      List.ne_nil_of_mem (List.mem_filter.mpr ⟨he, decide_eq_true rfl⟩)
    have hsome := List.getLast?_eq_some_getLast hne
    obtain ⟨hmem, hkey⟩ := hlast _ _ hsome
    exact ⟨_, hsome, h _ hmem e he hkey⟩
  · rintro ⟨e', hsome, hlevel⟩
    obtain ⟨hmem, hkey⟩ := hlast e' e hsome
    obtain ⟨hkind, hid⟩ := Prod.mk.inj hkey
    have heq : e = e' := by
      rcases e with ⟨kind, id, level⟩
      rw [AclEntry.mk.injEq]
      exact ⟨hkind.symm, hid.symm, hlevel.symm⟩
    rw [heq]
    apply hmem

/-- What is read of a path has each principal once. -/
theorem FakeAcl.readsAs_readAcl (acl : FakeAcl) (path : String) :
  ReadsAs (acl.readAcl path) (acl.readAcl path)
  := by
  apply readsAs_self
  intro e he e' he' hkey
  obtain ⟨levels, hlevels, hfind⟩ := mem_readAcl.mp he
  obtain ⟨levels', hlevels', hfind'⟩ := mem_readAcl.mp he'
  cases hlevels.symm.trans hlevels'
  rw [hkey, hfind'] at hfind
  exact (Prod.mk.inj (Option.some.inj hfind)).2.symm

/-! ### Saving and reading on the files -/

/-- An entry with the number that its own is read as. -/
def AclEntry.renumber (number : ℕ → Option ℕ) (e : AclEntry) : Option AclEntry :=
  (number e.numericId.toNat).map fun n => { e with numericId := Int.ofNat n }

/-- The changes of an entry have the number that its own is read as. -/
theorem AclEntry.renumber_toSpec (number : ℕ → Option ℕ) (isDefault : Bool) (e : AclEntry) :
  (e.toSpec isDefault).renumber number = (e.renumber number).map (AclEntry.toSpec isDefault)
  := by
  rcases e with ⟨_ | _, id, level⟩
  all_goals
    simp only [AclEntry.renumber, AclSpec.renumber, toSpec, principal, PrincipalKind.toPrincipal,
      Principal.renumber]
    cases number id.toNat
    all_goals rfl

/-- The changes of a rebuild have the numbers that those of its entries are read as. -/
theorem SetfaclAcl.renumber_aclSpecs (number : ℕ → Option ℕ) (entries : List AclEntry) :
  (aclSpecs entries).mapM (AclSpec.renumber number)
    = (entries.mapM (AclEntry.renumber number)).map aclSpecs
  := by
  have hentries : (entries.flatMap fun e => [e.toSpec false, e.toSpec true]).mapM
        (AclSpec.renumber number)
      = (entries.mapM (AclEntry.renumber number)).map fun entries =>
          entries.flatMap fun e => [e.toSpec false, e.toSpec true] := by
    induction entries with
    | nil => rfl
    | cons e entries ih =>
        rw [List.flatMap_cons, List.mapM_append, ih, List.mapM_cons, List.mapM_cons, List.mapM_cons,
          List.mapM_nil, e.renumber_toSpec, e.renumber_toSpec]
        cases e.renumber number with
        | none => rfl
        | some e' =>
            cases entries.mapM (AclEntry.renumber number)
            all_goals rfl
  have halways : alwaysSpecs.mapM (AclSpec.renumber number) = some alwaysSpecs := rfl
  rw [aclSpecs, List.mapM_append, halways, hentries]
  cases entries.mapM (AclEntry.renumber number)
  all_goals rfl

/-- The entries that a save sets, if its rebuild succeeds. -/
def AclCall.applied (isDir : Bool) (call : AclCall) : Option (List AclEntry) :=
  if call.tools.applies && isDir then call.entries.mapM (AclEntry.renumber call.tools.number) else none

/-- What a save leaves of the file that its path names. -/
def AclCall.leaves (call : AclCall) (file : FileAcl) : FileAcl :=
  if call.tools.resets then
    match call.applied file.isDir with
    | some entries => replacedFile file.isDir entries
    | none => file.removeAll
  else file

/-- The rebuild of a save after its reset. -/
theorem AclTools.command_apply {file : FileAcl} (h : Bare file) {call : AclCall}
    (hids : ∀ e ∈ call.entries, 0 ≤ e.numericId) :
  call.tools.command file ("setfacl" :: SetfaclAcl.applyArgs call.path call.entries false)
    = (call.applied file.isDir).map fun entries => ("", replacedFile file.isDir entries)
  := by
  have hcommand : call.tools.command file
        ("setfacl" :: SetfaclAcl.applyArgs call.path call.entries false)
      = if call.tools.applies then
          (AclSpec.parseList (",".intercalate (SetfaclAcl.specs call.entries)).toList).bind fun specs =>
            (specs.mapM (AclSpec.renumber call.tools.number)).bind fun specs =>
              (file.modify false specs).map fun file => ("", file)
        else none := rfl
  rw [hcommand, AclCall.applied]
  cases call.tools.applies with
  | false => rfl
  | true =>
      rw [if_pos rfl, SetfaclAcl.parse_specs, if_pos hids, Option.bind_some,
        SetfaclAcl.renumber_aclSpecs, Bool.true_and]
      cases call.entries.mapM (AclEntry.renumber call.tools.number) with
      | none =>
          rw [ite_self]
          rfl
      | some entries =>
          rw [Option.map_some, Option.bind_some, FileAcl.modify_aclSpecs h]
          cases file.isDir
          all_goals rfl

namespace AclFiles

variable {names : String → Option ℕ} {tools : AclTools} {files files' : AclFiles}

/-- A command that succeeds. -/
theorem execute_run {path out : String} {args : List String}
    (hlast : ("setfacl" :: args).getLast? = some path)
    (h : files.command names tools path ("setfacl" :: args) = some (out, files')) :
  (SetfaclAcl.run args).run.execute (answer names tools) files = (.ok (), files')
  := by
  have hanswer : files.answer names tools (.run ("setfacl" :: args)) = (.ok ⟨0, out, ""⟩, files') := by
    simp only [answer, hlast, Option.getD_some, h]
  change Coroutine.execute _ (.await (AclOp.run ("setfacl" :: args)) _) _ = _
  rw [Coroutine.execute_await, hanswer]
  rfl

/-- A command that fails. -/
theorem execute_run_of_none {path : String} {args : List String}
    (hlast : ("setfacl" :: args).getLast? = some path)
    (h : files.command names tools path ("setfacl" :: args) = none) :
  ∃ e, (SetfaclAcl.run args).run.execute (answer names tools) files = (.error e, files)
  := by
  have hanswer : files.answer names tools (.run ("setfacl" :: args)) = (.ok ⟨1, "", ""⟩, files) := by
    simp only [answer, hlast, Option.getD_some, h]
  use .adapterError ("".strip.orElse ("setfacl " ++ " ".intercalate args ++ " failed"))
  change Coroutine.execute _ (.await (AclOp.run ("setfacl" :: args)) _) _ = _
  rw [Coroutine.execute_await, hanswer]
  rfl

/-- A save changes the file that its path names, if any, and no other. -/
theorem call_eq (files : AclFiles) {call : AclCall} (hids : ∀ e ∈ call.entries, 0 ≤ e.numericId) :
  files.call names call
    = match names call.path with
      | none => files
      | some i => Function.update files i (call.leaves (files i))
  := by
  have hlast : ("setfacl" :: SetfaclAcl.resetArgs call.path false).getLast? = some call.path := rfl
  have hlast' : ("setfacl" :: SetfaclAcl.applyArgs call.path call.entries false).getLast?
      = some call.path := rfl
  rw [AclFiles.call, SetfaclAcl.replaceAll, ExceptT.run_bind, Coroutine.execute_bind]
  cases hname : names call.path with
  | none =>
      obtain ⟨e, hreset⟩ := @execute_run_of_none names call.tools files _ _ hlast (by
        rw [command, hname]
        rfl)
      rw [hreset]
      rfl
  | some i =>
      dsimp only
      rw [AclCall.leaves]
      cases hresets : call.tools.resets with
      | false =>
          obtain ⟨e, hreset⟩ := @execute_run_of_none names call.tools files _ _ hlast (by
            rw [command, hname, Option.bind_some]
            simp [AclTools.command, SetfaclAcl.resetArgs, hresets])
          rw [hreset, if_neg Bool.false_ne_true, Function.update_eq_self]
          rfl
      | true =>
          have hreset := @execute_run names call.tools files
            (Function.update files i (files i).removeAll) _ "" _ hlast (by
              rw [command, hname, Option.bind_some]
              simp [AclTools.command, SetfaclAcl.resetArgs, hresets])
          have hcommand := AclTools.command_apply (files i).removeAll_bare hids
          rw [hreset, if_pos rfl]
          change (Coroutine.execute _ (SetfaclAcl.run _).run
            (Function.update files i (files i).removeAll)).2 = _
          change _ = (call.applied (files i).isDir).map _ at hcommand
          cases happlied : call.applied (files i).isDir with
          | none =>
              obtain ⟨e, happly⟩ := @execute_run_of_none names call.tools
                (Function.update files i (files i).removeAll) _ _ hlast' (by
                  rw [command, hname, Option.bind_some, Function.update_self, hcommand, happlied]
                  rfl)
              rw [happly]
          | some entries =>
              rw [execute_run hlast' (by
                rw [command, hname, Option.bind_some, Function.update_self, hcommand, happlied]
                rfl)]
              apply Function.update_idem

/-- A save makes no directory and removes none. -/
theorem isDir_leaves (call : AclCall) (file : FileAcl) :
  (call.leaves file).isDir = file.isDir
  := by
  rw [AclCall.leaves]
  split
  · split
    · rfl
    · rfl
  · rfl

/-- A path that names no file cannot be read. -/
theorem reading_of_none {path : String} (hname : names path = none) (files : AclFiles) :
  ∃ e, files.reading names path = .error e
  := by
  have hanswer : files.answer names .plain (.run (SetfaclAcl.getfaclArgv path))
      = (.ok ⟨1, "", ""⟩, files) := by
    simp [answer, command, SetfaclAcl.getfaclArgv, hname]
  use .adapterError ("".strip.orElse ("getfacl " ++ path ++ " failed"))
  rw [reading]
  change (Coroutine.execute _ (.await (AclOp.run (SetfaclAcl.getfaclArgv path)) _) _).1 = _
  rw [Coroutine.execute_await, hanswer]
  rfl

/-- What is read of a path is what the file says that it names. -/
theorem reading_of_some {path : String} {i : ℕ} (hname : names path = some i) (files : AclFiles) :
  files.reading names path = SetfaclAcl.parseGetfacl (String.ofList (files i).text)
  := by
  have hanswer : files.answer names .plain (.run (SetfaclAcl.getfaclArgv path))
      = (.ok ⟨0, String.ofList (files i).text, ""⟩, Function.update files i (files i)) := by
    simp [answer, command, SetfaclAcl.getfaclArgv, hname, AclTools.command]
  rw [reading]
  change (Coroutine.execute _ (.await (AclOp.run (SetfaclAcl.getfaclArgv path)) _) _).1 = _
  rw [Coroutine.execute_await, hanswer]
  rfl

end AclFiles

/-- The named entries of a list have the last level of every principal. -/
theorem lookup_grants {entries : List AclEntry} (hids : ∀ e ∈ entries, 0 ≤ e.numericId)
    (kind : PrincipalKind) (id : ℕ) :
  (grants entries).lookup (kind.toPrincipal id)
    = (lastLevel entries (kind, (id : ℤ))).map AclLevel.toPerm
  := by
  induction entries using List.reverseRecOn with
  | nil => rfl
  | append_singleton entries e ih =>
      have hfold : grants (entries ++ [e]) = (grants entries).insert e.principal e.level.toPerm := by
        rw [grants, grants, List.map_append, Acl.namedBy, List.foldl_append]
        rfl
      have he := hids e (by simp)
      rw [hfold, lastLevel_concat]
      split
      · rename_i hkey
        rw [(e.principal_eq_iff he kind id).mpr hkey, AList.lookup_insert, Option.map_some]
      · rename_i hkey
        rw [AList.lookup_insert_ne, ih fun e' he' => hids e' (List.mem_append_left _ he')]
        intro hprincipal
        apply hkey ((AclEntry.principal_eq_iff he kind id).mp hprincipal.symm)

@[simp]
theorem AclLevel.ofPerm_toPerm (level : AclLevel) :
  AclLevel.ofPerm level.toPerm = level
  := by
  cases level
  all_goals rfl

/-- The named entries of a list are read as the list. -/
theorem readsAs_grants {entries : List AclEntry} (hids : ∀ e ∈ entries, 0 ≤ e.numericId) :
  ReadsAs (grants entries).read entries
  := by
  intro e
  rw [NamedEntries.mem_read]
  constructor
  · rintro ⟨⟨principal, perm⟩, hentry, rfl⟩
    have hlookup := AList.mem_lookup_iff.mpr hentry
    have hlast : ∀ kind id, principal = PrincipalKind.toPrincipal kind id →
        lastLevel entries (kind, (id : ℤ)) = some (AclLevel.ofPerm perm) := by
      rintro kind id rfl
      rw [Option.mem_def, lookup_grants hids, Option.map_eq_some_iff] at hlookup
      obtain ⟨level, hlevel, rfl⟩ := hlookup
      rw [hlevel, AclLevel.ofPerm_toPerm]
    cases principal with
    | user id => apply hlast .user id rfl
    | group id => apply hlast .group id rfl
  · intro hlast
    have hmem : ∃ e' ∈ entries, e'.key = e.key := by
      obtain ⟨e', he', -⟩ := Option.map_eq_some_iff.mp hlast
      obtain ⟨he', hkey⟩ := List.mem_filter.mp (List.mem_of_getLast? he')
      use e', he'
      simpa using hkey
    obtain ⟨e', he', hkey⟩ := hmem
    have hid : 0 ≤ e.numericId := by
      have hsame : e'.numericId = e.numericId := congrArg Prod.snd hkey
      rw [← hsame]
      apply hids e' he'
    rcases e with ⟨kind, id, level⟩
    obtain ⟨n, rfl⟩ := Int.eq_ofNat_of_zero_le hid
    have hlookup := lookup_grants hids kind n
    rw [show lastLevel entries (kind, (n : ℤ)) = some level from hlast, Option.map_some] at hlookup
    use ⟨kind.toPrincipal n, level.toPerm⟩, AList.mem_lookup_iff.mp hlookup
    cases kind
    all_goals simp [AclEntry.ofNamed, PrincipalKind.toPrincipal, Principal.id]

/-- What is read of a file after a save are the entries that it set, if it took the file. -/
theorem AclCall.parse_leaves {call : AclCall} (hresets : call.tools.resets = true) (file : FileAcl) :
  SetfaclAcl.parseGetfacl (String.ofList (call.leaves file).text)
    = .ok (grants ((call.applied file.isDir).getD [])).read
  := by
  rw [AclCall.leaves, if_pos hresets]
  cases call.applied file.isDir with
  | none =>
      rw [SetfaclAcl.parseGetfacl_text]
      · rfl
      · intro entry hentry
        cases hentry
  | some entries =>
      rw [SetfaclAcl.parseGetfacl_text]
      · rfl
      · intro entry _
        apply Perm.inter_all

/-! ### Runs -/

/-- What a run of saves leaves, with `SetfaclAcl`. -/
def AclFiles.after (names : String → Option ℕ) (files : AclFiles) (calls : List AclCall) : AclFiles :=
  calls.foldl (AclFiles.call names) files

/-- What a run of saves leaves, with `FakeAcl`. -/
def FakeAcl.after (acl : FakeAcl) (calls : List AclCall) : FakeAcl :=
  calls.foldl FakeAcl.call acl

/-- The same entries are read of a path with both. -/
def ReadsSame (names : String → Option ℕ) (files : AclFiles) (acl : FakeAcl) (path : String) : Prop :=
  ∃ entries, files.reading names path = .ok entries ∧ ∀ e, e ∈ entries ↔ e ∈ acl.readAcl path

/-- After a run of saves the same entries are read of paths with both, and they are those of the last save
of the path. -/
def AgreeAfter (names : String → Option ℕ) (files : AclFiles) (acl : FakeAcl) (calls : List AclCall)
    (paths : Set String) : Prop :=
  ∀ path ∈ paths, ReadsSame names (files.after names calls) (acl.after calls) path
    ∧ ∀ saved ∈ lastSaved calls path, ReadsAs ((acl.after calls).readAcl path) saved

/-- The entries that the last save left on a file, of those on any path that it took: none, if the rebuild
failed after the reset. -/
def lastLeft (names : String → Option ℕ) (isDir : Bool) (calls : List AclCall) (i : ℕ) :
    Option (List AclEntry) :=
  ((calls.filter fun call => names call.path = some i ∧ call.tools.resets).getLast?).map fun call =>
    (call.applied isDir).getD []

/-- A path names a file, and the last save left on it gives every principal the level that the last save of
the path does; without a save there is what there was at the start. -/
def LeftAsSaved (names : String → Option ℕ) (files : AclFiles) (acl : FakeAcl) (calls : List AclCall)
    (path : String) : Prop :=
  ∃ i, names path = some i ∧ ∀ key,
    lastLevel ((lastLeft names (files i).isDir calls i).getD (acl.readAcl path)) key
      = lastLevel ((lastSaved calls path).getD (acl.readAcl path)) key

section

variable {names : String → Option ℕ} {files : AclFiles} {acl : FakeAcl} {calls : List AclCall}

@[simp]
theorem lastLeft_concat (isDir : Bool) (calls : List AclCall) (call : AclCall) (i : ℕ) :
  lastLeft names isDir (calls ++ [call]) i
    = if names call.path = some i ∧ call.tools.resets then some ((call.applied isDir).getD [])
      else lastLeft names isDir calls i
  := by
  rw [lastLeft, List.filter_append]
  split
  · rename_i htakes
    simp [htakes]
  · rename_i htakes
    simp [htakes, lastLeft]

/-- The entries that were left have numbers of principals. -/
theorem lastLeft_nonneg {isDir : Bool} {i : ℕ} {left : List AclEntry}
    (h : lastLeft names isDir calls i = some left) :
  ∀ e ∈ left, 0 ≤ e.numericId
  := by
  obtain ⟨call, -, rfl⟩ := Option.map_eq_some_iff.mp h
  intro e he
  rw [AclCall.applied] at he
  split at he
  · cases hmap : call.entries.mapM (AclEntry.renumber call.tools.number) with
    | none =>
        rw [hmap] at he
        cases he
    | some entries =>
        rw [hmap, Option.getD_some] at he
        obtain ⟨e', -, hrenumber⟩ :=
          List.exists_of_mem_forall₂ (List.mapM_option_eq_some_iff.mp hmap) he
        obtain ⟨n, -, heq⟩ := Option.map_eq_some_iff.mp hrenumber
        rw [← heq]
        apply Int.natCast_nonneg n
  · cases he

/-- What is read after a run with `SetfaclAcl`. -/
theorem AclFiles.reading_after (hids : ∀ call ∈ calls, ∀ e ∈ call.entries, 0 ≤ e.numericId)
    {path : String} {i : ℕ} (hname : names path = some i) :
  (files.after names calls i).isDir = (files i).isDir ∧
    (files.after names calls).reading names path
      = match lastLeft names (files i).isDir calls i with
        | none => files.reading names path
        | some left => .ok (grants left).read
  := by
  induction calls using List.reverseRecOn with
  | nil => exact ⟨rfl, rfl⟩
  | append_singleton calls call ih =>
      obtain ⟨hdir, hreading⟩ := ih fun call' h' => hids call' (List.mem_append_left _ h')
      have hstep : files.after names (calls ++ [call])
          = match names call.path with
            | none => files.after names calls
            | some j => Function.update (files.after names calls) j
                (call.leaves (files.after names calls j)) := by
        rw [after, List.foldl_append]
        apply call_eq _ (hids call (by simp))
      rw [hstep, lastLeft_concat]
      by_cases hcall : names call.path = some i
      · rw [hcall]
        dsimp only
        rw [Function.update_self, isDir_leaves]
        refine ⟨hdir, ?_⟩
        rw [reading_of_some hname, Function.update_self]
        by_cases hresets : call.tools.resets = true
        · rw [if_pos ⟨rfl, hresets⟩, AclCall.parse_leaves hresets, hdir]
        · rw [if_neg fun h => hresets h.2, AclCall.leaves, if_neg hresets, ← hreading,
            reading_of_some hname]
      · have hfile : (match names call.path with
            | none => files.after names calls
            | some j => Function.update (files.after names calls) j
                (call.leaves (files.after names calls j))) i = files.after names calls i := by
          cases hname' : names call.path with
          | none => rfl
          | some j =>
              dsimp only
              rw [Function.update_of_ne]
              rintro rfl
              apply hcall hname'
        rw [if_neg fun h => hcall h.1, hfile, reading_of_some hname, hfile, ← hreading,
          reading_of_some hname]
        exact ⟨hdir, rfl⟩

/-- What is read after a run with `FakeAcl`. -/
theorem FakeAcl.readAcl_after (acl : FakeAcl) (calls : List AclCall) (path : String) :
  match lastSaved calls path with
  | none => (acl.after calls).readAcl path = acl.readAcl path
  | some saved => ReadsAs ((acl.after calls).readAcl path) saved
  := by
  induction calls using List.reverseRecOn with
  | nil => rfl
  | append_singleton calls call ih =>
      have hstep : acl.after (calls ++ [call]) = (acl.after calls).call call := by
        rw [after, List.foldl_append]
        rfl
      rw [hstep, lastSaved_concat]
      by_cases hpath : call.path = path
      · rw [if_pos hpath, ← hpath]
        apply readsAs_call
      · rw [if_neg hpath, readAcl_call_ne _ hpath]
        apply ih

/-- What is read with `SetfaclAcl` after a run. -/
theorem AclFiles.exists_reading_after (hids : ∀ call ∈ calls, ∀ e ∈ call.entries, 0 ≤ e.numericId)
    {path : String} {i : ℕ} (hname : names path = some i) (hstart : ReadsSame names files acl path) :
  ∃ entries, (files.after names calls).reading names path = .ok entries
    ∧ ReadsAs entries ((lastLeft names (files i).isDir calls i).getD (acl.readAcl path))
  := by
  obtain ⟨-, hreading⟩ : _ ∧ (files.after names calls).reading names path = _ := reading_after hids hname
  cases hleft : lastLeft names (files i).isDir calls i with
  | none =>
      obtain ⟨entries, hentries, hsame⟩ := hstart
      rw [hleft] at hreading
      use entries, hreading.trans hentries
      intro e
      rw [hsame, Option.getD_none]
      apply acl.readsAs_readAcl path e
  | some left =>
      rw [hleft] at hreading
      exact ⟨_, hreading, readsAs_grants (lastLeft_nonneg hleft)⟩

/-- What is read with `FakeAcl` after a run. -/
theorem FakeAcl.readsAs_after (acl : FakeAcl) (calls : List AclCall) (path : String) :
  ReadsAs ((acl.after calls).readAcl path) ((lastSaved calls path).getD (acl.readAcl path))
  := by
  have hafter := acl.readAcl_after calls path
  cases hsaved : lastSaved calls path with
  | none =>
      rw [hsaved] at hafter
      rw [hafter]
      apply readsAs_readAcl
  | some saved =>
      rw [hsaved] at hafter
      apply hafter

/-- Two lists are read as the same if and only if they give every principal the same level. -/
theorem ReadsAs.same_iff {reading reading' entries entries' : List AclEntry}
    (h : ReadsAs reading entries) (h' : ReadsAs reading' entries') :
  (∀ e, e ∈ reading ↔ e ∈ reading') ↔ ∀ key, lastLevel entries key = lastLevel entries' key
  := by
  simp only [h _, h' _]
  constructor
  · rintro hsame ⟨kind, id⟩
    apply Option.ext
    intro level
    apply hsame ⟨kind, id, level⟩
  · intro hsame e
    rw [hsame]

/-- When the two read the same at the start of a run of saves with numbers that are not negative, they read
the same of paths after it, and that is what was saved last, if and only if each of the paths names a file
on which was left last what was last saved on the path. -/
theorem agreeAfter_iff {paths : Set String}
    (hstart : ∀ path ∈ paths, ∀ i, names path = some i → ReadsSame names files acl path)
    (hids : ∀ call ∈ calls, ∀ e ∈ call.entries, 0 ≤ e.numericId) :
  AgreeAfter names files acl calls paths ↔ ∀ path ∈ paths, LeftAsSaved names files acl calls path
  := by
  apply forall₂_congr
  intro path hpath
  have hfake := acl.readsAs_after calls path
  cases hname : names path with
  | none =>
      obtain ⟨e, he⟩ := AclFiles.reading_of_none hname (files.after names calls)
      constructor
      · rintro ⟨⟨entries, hentries, -⟩, -⟩
        rw [he] at hentries
        cases hentries
      · rintro ⟨i, hi, -⟩
        cases hname.symm.trans hi
  | some i =>
      obtain ⟨entries, hentries, hreads⟩ :=
        AclFiles.exists_reading_after hids hname (hstart path hpath i hname)
      have hiff := hreads.same_iff hfake
      constructor
      · rintro ⟨⟨entries', hentries', hsame⟩, -⟩
        rw [hentries] at hentries'
        cases hentries'
        exact ⟨i, hname, hiff.mp hsame⟩
      · rintro ⟨j, hj, hlevels⟩
        cases hname.symm.trans hj
        refine ⟨⟨entries, hentries, hiff.mpr hlevels⟩, ?_⟩
        intro saved hsaved
        rw [Option.mem_def.mp hsaved] at hfake
        apply hfake

/-- Files without named entries; `isDir` says which of them are directories. -/
def bareFiles (isDir : ℕ → Bool) : AclFiles :=
  fun i => ⟨isDir i, Acl.minimal Perm.all Perm.none Perm.none, none, FileAcl.default_isDir_none _⟩

/-- Nothing is read of files without named entries, or of no dictionaries. -/
theorem readsSame_bareFiles (isDir : ℕ → Bool) {path : String} {i : ℕ} (hname : names path = some i) :
  ReadsSame names (bareFiles isDir) ⟨Table.empty⟩ path
  := by
  use []
  constructor
  · rw [AclFiles.reading_of_some hname, SetfaclAcl.parseGetfacl_text]
    · rfl
    · intro entry hentry
      cases hentry
  · intro e
    constructor
    · intro he
      cases he
    · intro he
      cases he

end

/-- A path and the same with a slash at its end name one file, and other paths none. -/
def mediaNames (path : String) : Option ℕ :=
  if path = "/volume1/media" ∨ path = "/volume1/media/" then some 0 else none

/-- A user is given a level twice in a save of a directory. -/
theorem agreeAfter_twice :
  AgreeAfter mediaNames (bareFiles fun _ => true) ⟨Table.empty⟩
    [⟨"/volume1/media", [⟨.user, 1001, .rw⟩, ⟨.user, 1001, .ro⟩], .plain⟩] {"/volume1/media"}
  := by
  apply (agreeAfter_iff (fun path _ i hname => readsSame_bareFiles _ hname) (by decide)).mpr
  rintro path rfl
  refine ⟨0, by decide, ?_⟩
  intro key
  rfl

/-- The entries saved on a file that is no directory are not there to read. -/
theorem not_agreeAfter_file :
  ¬ AgreeAfter mediaNames (bareFiles fun _ => false) ⟨Table.empty⟩
    [⟨"/volume1/media", [⟨.user, 1001, .rw⟩], .plain⟩] {"/volume1/media"}
  := by
  rw [agreeAfter_iff (fun path _ i hname => readsSame_bareFiles _ hname) (by decide)]
  intro h
  obtain ⟨i, hname, hlevels⟩ := h "/volume1/media" rfl
  cases hname
  have hlevel := hlevels (.user, 1001)
  revert hlevel
  decide

/-- A save by another spelling of the path is missing from the dictionary of the first. -/
example :
  lastLevel ((lastLeft mediaNames true [⟨"/volume1/media", [], .plain⟩,
      ⟨"/volume1/media/", [⟨.user, 1001, .rw⟩], .plain⟩] 0).getD []) (.user, 1001) = some .rw := by
  decide
