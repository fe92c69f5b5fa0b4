import Mathlib.Data.List.DropRight
import Mathlib.Data.List.Sort
import Mathlib.Data.String.Basic
import NasOs.Library.Glob
import NasOs.Library.Machine
import NasOs.Library.Path
import NasOs.Library.Table
import NasOs.System.ManagedFile

/-!
# Backups of managed files

Before a call of `write_and_apply` validates a content it keeps the one it found in a directory of backups,
under the last name of the path and the second it is, and then removes all but the last twenty backups
that a pattern made of the last name matches.

Neither the name nor the pattern tells the directory of the path, and two calls may fall in one second.
When neither brings two backups together, every content that was found can be recovered until there are
twenty newer backups of its path (`recoverable_of_run`).
-/

/-! ### The backups -/

/-- `MAX_BACKUPS`. -/
def maxBackups : ℕ :=
  20

/-- The managed files, and the directory of backups. -/
structure ConfigHost where
  files : String → Option (List UInt8)
  backups : Table (Prod.fst : String × List UInt8 → String)

/-- The name of a backup. -/
def backupName (path stamp : String) : String :=
  Path.basename path ++ "." ++ stamp

/-- The pattern of the backups of a path. -/
def backupPattern (path : String) : String :=
  Path.basename path ++ "." ++ "*"

/-- The backups that are too many for a path, by the order of their names. -/
def staleBackups (path : String) (backups : Table (Prod.fst : String × List UInt8 → String)) :
    List String :=
  let existing := ((backups.rows.map Prod.fst).filter (Glob.fnmatch (backupPattern path))).insertionSort
    (· ≤ ·)
  existing.take (existing.length - maxBackups)

/-- `_backup`. -/
def ConfigHost.backup (host : ConfigHost) (path stamp : String) (previous : List UInt8) : ConfigHost :=
  let backups := host.backups.put (backupName path stamp, previous)
  { host with backups := (staleBackups path backups).foldl Table.erase backups }

/-! ### The calls -/

/-- A call of `write_and_apply` for a path: the second at which it keeps what it found, and the exceptions
that its steps raise. -/
structure ConfigCall where
  path : String
  file : ManagedFile
  stamp : String
  raises : ℕ → ConfigOp → Option ConfigError

/-- The answer to a step of a call; the number says how many there were before. -/
def ConfigCall.answer (call : ConfigCall) (s : ConfigHost × ℕ) (op : ConfigOp) :
    op.Answer × (ConfigHost × ℕ) :=
  match call.raises s.2 op with
  | some e => (.error e, s.1, s.2 + 1)
  | none =>
      match op with
      | .replace content =>
          (.ok (s.1.files call.path),
            { s.1 with files := Function.update s.1.files call.path (some content) }, s.2 + 1)
      | .restorecon => (.ok (), s.1, s.2 + 1)
      | .backup previous => (.ok (), s.1.backup call.path call.stamp previous, s.2 + 1)
      | .validate => (.ok (), s.1, s.2 + 1)
      | .apply => (.ok (), s.1, s.2 + 1)
      | .unlink =>
          (.ok (), { s.1 with files := Function.update s.1.files call.path none }, s.2 + 1)
      | .putBack previous =>
          (.ok (), { s.1 with files := Function.update s.1.files call.path (some previous) }, s.2 + 1)

/-- The host after a call. -/
def ConfigHost.after (sha256 : List UInt8 → String) (host : ConfigHost) (call : ConfigCall) : ConfigHost :=
  ((call.file.writeAndApply sha256).run.execute call.answer (host, 0)).2.1

/-- A content that was found by a call that put another in its place. -/
structure ReplacedContent where
  path : String
  stamp : String
  content : List UInt8

/-- What a call finds and replaces, if it does. -/
def ConfigHost.replacedBy (host : ConfigHost) (call : ConfigCall) : Option ReplacedContent :=
  match call.raises 0 (.replace call.file.content) with
  | some _ => none
  | none => (host.files call.path).map fun content => ⟨call.path, call.stamp, content⟩

/-- A host, and the contents that were replaced there so far. -/
structure ConfigHistory where
  host : ConfigHost
  replaced : List ReplacedContent

/-- The history of calls, one after the other. -/
def configMachine (sha256 : List UInt8 → String) : Machine ConfigHistory ConfigCall where
  step s call := some
    { host := s.host.after sha256 call
      replaced := s.replaced ++ (s.host.replacedBy call).toList }

section

variable {call : ConfigCall} {s : ConfigHost × ℕ}

theorem answer_of_raises {op : ConfigOp} {e : ConfigError} (h : call.raises s.2 op = some e) :
  call.answer s op = (.error e, s.1, s.2 + 1)
  := by
  unfold ConfigCall.answer
  rw [h]

theorem answer_replace {content : List UInt8} (h : call.raises s.2 (.replace content) = none) :
  call.answer s (.replace content) = (.ok (s.1.files call.path),
    { s.1 with files := Function.update s.1.files call.path (some content) }, s.2 + 1)
  := by
  unfold ConfigCall.answer
  rw [h]

theorem answer_restorecon (h : call.raises s.2 .restorecon = none) :
  call.answer s .restorecon = (.ok (), s.1, s.2 + 1)
  := by
  unfold ConfigCall.answer
  rw [h]

theorem answer_backup {previous : List UInt8} (h : call.raises s.2 (.backup previous) = none) :
  call.answer s (.backup previous) = (.ok (), s.1.backup call.path call.stamp previous, s.2 + 1)
  := by
  unfold ConfigCall.answer
  rw [h]

end

/-- A step, and what follows unless it raises. -/
theorem execute_perform_bind (call : ConfigCall) (op : ConfigOp) {α : Type} (f : op.Returned → ConfigM α)
    (s : ConfigHost × ℕ) :
  (op.perform >>= f).run.execute call.answer s =
    match call.answer s op with
    | (.ok a, s') => (f a).run.execute call.answer s'
    | (.error e, s') => (.error e, s')
  := by
  have hstep : op.perform.run.execute call.answer s = call.answer s op := rfl
  rw [ExceptT.run_bind, Coroutine.execute_bind, hstep]
  rcases call.answer s op with ⟨_ | _, s'⟩
  · rfl
  · rfl

/-- The validation and the application keep no backup. -/
theorem awaits_checked (file : ManagedFile) (previous : Option (List UInt8)) :
  (file.checked previous).run.Awaits fun op => ∀ bytes, op ≠ .backup bytes
  := by
  have hperform : ∀ op : ConfigOp, (∀ bytes, op ≠ .backup bytes) →
      op.perform.run.Awaits fun op => ∀ bytes, op ≠ .backup bytes := by
    intro op hop
    exact ⟨hop, fun _ => trivial⟩
  have hrestore : (ManagedFile.restore previous).run.Awaits
      fun op => ∀ bytes, op ≠ .backup bytes := by
    cases previous with
    | none => apply hperform _ (by simp)
    | some bytes =>
        apply Coroutine.awaits_exceptT_bind (hperform _ (by simp))
        intro _
        apply hperform _ (by simp)
  rw [ManagedFile.checked]
  apply Coroutine.awaits_exceptT_bind
  · split
    · apply Coroutine.awaits_tryCatch (hperform _ (by simp))
      rintro (_ | _ | _)
      · apply Coroutine.awaits_exceptT_bind hrestore
        intro _
        apply Coroutine.awaits_throw
      · apply Coroutine.awaits_throw
      · apply Coroutine.awaits_throw
    · apply Coroutine.awaits_pure
  · intro _
    split
    · apply Coroutine.awaits_tryCatch (hperform _ (by simp))
      rintro (_ | _ | _)
      · apply Coroutine.awaits_throw
      · apply Coroutine.awaits_exceptT_bind hrestore
        intro _
        apply Coroutine.awaits_exceptT_bind
        · apply Coroutine.awaits_tryCatch (hperform _ (by simp))
          rintro (_ | _ | _)
          · apply Coroutine.awaits_throw
          · apply Coroutine.awaits_pure
          · apply Coroutine.awaits_throw
        · intro _
          apply Coroutine.awaits_throw
      · apply Coroutine.awaits_throw
    · apply Coroutine.awaits_pure

/-- Only a backup changes the backups. -/
theorem backups_answer (call : ConfigCall) (s : ConfigHost × ℕ) {op : ConfigOp}
    (hop : ∀ bytes, op ≠ .backup bytes) :
  (call.answer s op).2.1.backups = s.1.backups
  := by
  unfold ConfigCall.answer
  split
  · rfl
  · cases op with
    | backup previous => apply absurd rfl (hop previous)
    | replace content => rfl
    | restorecon => rfl
    | validate => rfl
    | apply => rfl
    | unlink => rfl
    | putBack previous => rfl

/-- What follows the backup changes no backups. -/
theorem backups_checked (sha256 : List UInt8 → String) (call : ConfigCall)
    (previous : Option (List UInt8)) (s : ConfigHost × ℕ) :
  ((do
      call.file.checked previous
      pure (sha256 call.file.content) : ConfigM String).run.execute call.answer s).2.1.backups
    = s.1.backups
  := by
  have hawaits : (do
      call.file.checked previous
      pure (sha256 call.file.content) : ConfigM String).run.Awaits
        fun op => ∀ bytes, op ≠ .backup bytes := by
    apply Coroutine.awaits_exceptT_bind (awaits_checked _ _)
    intro _
    apply Coroutine.awaits_pure
  apply hawaits.execute (I := fun t : ConfigHost × ℕ => t.1.backups = s.1.backups)
  · intro t op hop ht
    rw [backups_answer call t hop, ht]
  · rfl

/-- A call keeps the content that it replaces, unless a step before or at that raises. -/
theorem backups_after (sha256 : List UInt8 → String) {host : ConfigHost} {call : ConfigCall}
    (hraises : ∀ r ∈ host.replacedBy call,
      call.raises 1 .restorecon = none ∧ call.raises 2 (.backup r.content) = none) :
  (host.after sha256 call).backups =
    match host.replacedBy call with
    | none => host.backups
    | some r => (host.backup r.path r.stamp r.content).backups
  := by
  rw [ConfigHost.after, ManagedFile.writeAndApply, execute_perform_bind]
  rw [ConfigHost.replacedBy] at hraises ⊢
  cases hreplace : call.raises 0 (.replace call.file.content) with
  | some e => rw [answer_of_raises hreplace]
  | none =>
      rw [hreplace] at hraises
      rw [answer_replace hreplace]
      dsimp only at hraises ⊢
      rw [execute_perform_bind]
      cases hfound : host.files call.path with
      | none =>
          have hno : ∀ bytes, ConfigOp.restorecon ≠ .backup bytes := by simp
          have hrestorecon := backups_answer call
            ({ host with files := Function.update host.files call.path (some call.file.content) }, 0 + 1)
            hno
          generalize call.answer _ ConfigOp.restorecon = answer at hrestorecon ⊢
          obtain ⟨_ | a, s'⟩ := answer
          · apply hrestorecon
          · apply Eq.trans _ hrestorecon
            apply backups_checked
      | some previous =>
          rw [hfound, Option.map_some] at hraises
          obtain ⟨hrestorecon, hbackup⟩ := hraises _ rfl
          rw [answer_restorecon hrestorecon]
          dsimp only
          rw [ManagedFile.backedUp, execute_perform_bind, answer_backup hbackup]
          dsimp only
          rw [backups_checked]
          rfl

/-! ### What is kept -/

/-- A call does not bring backups together: its path has a name that stands for itself in a pattern, it is
later than the calls before it for the same path, neither its pattern matches a backup of another path nor
does the pattern of another path match its backup, and the steps that keep what it finds do not raise. -/
structure Orderly (s : ConfigHistory) (call : ConfigCall) : Prop where
  literal : Glob.IsLiteral (Path.basename call.path).toList
  later : ∀ r ∈ s.replaced, r.path = call.path → r.stamp < call.stamp
  apart : ∀ r ∈ s.replaced, r.path ≠ call.path →
    Glob.fnmatch (backupPattern call.path) (backupName r.path r.stamp) = false
      ∧ Glob.fnmatch (backupPattern r.path) (backupName call.path call.stamp) = false
  raises : ∀ r ∈ s.host.replacedBy call,
    call.raises 1 .restorecon = none ∧ call.raises 2 (.backup r.content) = none

instance (s : ConfigHistory) (call : ConfigCall) : Decidable (Orderly s call) :=
  decidable_of_iff
    (Glob.IsLiteral (Path.basename call.path).toList
      ∧ (∀ r ∈ s.replaced, r.path = call.path → r.stamp < call.stamp)
      ∧ (∀ r ∈ s.replaced, r.path ≠ call.path →
        Glob.fnmatch (backupPattern call.path) (backupName r.path r.stamp) = false
          ∧ Glob.fnmatch (backupPattern r.path) (backupName call.path call.stamp) = false)
      ∧ ∀ r ∈ s.host.replacedBy call,
        call.raises 1 .restorecon = none ∧ call.raises 2 (.backup r.content) = none)
    ⟨fun ⟨hliteral, hlater, hapart, hraises⟩ => ⟨hliteral, hlater, hapart, hraises⟩,
      fun ⟨hliteral, hlater, hapart, hraises⟩ => ⟨hliteral, hlater, hapart, hraises⟩⟩

/-- Every content that was replaced can be recovered from a backup that belongs to no other path, until
there are as many newer ones of its path as are kept. -/
structure Recoverable (s : ConfigHistory) : Prop where
  kept : ∀ before r after, s.replaced = before ++ r :: after →
    (after.filter fun d => d.path = r.path).length < maxBackups →
      s.host.backups.find? (backupName r.path r.stamp)
        = some (backupName r.path r.stamp, r.content)
  own : ∀ r ∈ s.replaced, ∀ d ∈ s.replaced, d.path ≠ r.path →
    Glob.fnmatch (backupPattern d.path) (backupName r.path r.stamp) = false

/-- A call deletes and changes no backup of another path. -/
def SparesBackups (sha256 : List UInt8 → String) (s : ConfigHistory) (call : ConfigCall) : Prop :=
  ∀ r ∈ s.replaced, r.path ≠ call.path →
    ∀ backup, s.host.backups.find? (backupName r.path r.stamp) = some backup →
      (s.host.after sha256 call).backups.find? (backupName r.path r.stamp) = some backup

/-- The latest contents of a path among those that were replaced. -/
def latest (replaced : List ReplacedContent) (path : String) : List ReplacedContent :=
  (replaced.filter fun d => d.path = path).rtake maxBackups

/-- The backups are those of the latest contents of each path. -/
structure KeptLatest (s : ConfigHistory) : Prop where
  rows : ∀ row, row ∈ s.host.backups.rows ↔
    ∃ path, ∃ r ∈ latest s.replaced path, row = (backupName r.path r.stamp, r.content)
  literal : ∀ r ∈ s.replaced, Glob.IsLiteral (Path.basename r.path).toList
  later : s.replaced.Pairwise fun a b => a.path = b.path → a.stamp < b.stamp
  own : ∀ r ∈ s.replaced, ∀ d ∈ s.replaced, d.path ≠ r.path →
    Glob.fnmatch (backupPattern d.path) (backupName r.path r.stamp) = false

/-- A later backup of a path has a greater name. -/
theorem backupName_lt {path stamp stamp' : String} (h : stamp < stamp') :
  backupName path stamp < backupName path stamp'
  := by
  rw [String.lt_iff_toList_lt] at h ⊢
  simp only [backupName, String.toList_append]
  apply List.append_left_lt h

/-- A path's own pattern matches its backups. -/
theorem fnmatch_backupName {path : String} (h : Glob.IsLiteral (Path.basename path).toList)
    (stamp : String) :
  Glob.fnmatch (backupPattern path) (backupName path stamp) = true
  := by
  have hliteral : Glob.IsLiteral (Path.basename path ++ ".").toList := by
    rw [String.toList_append]
    intro c hc
    rcases List.mem_append.mp hc with hc | hc
    · apply h c hc
    · rw [List.mem_singleton.mp hc]
      decide
  rw [backupPattern, Glob.fnmatch_append_star hliteral, backupName]
  simp only [String.toList_append]
  apply List.prefix_append

/-- The latest contents are of the path, and were replaced. -/
theorem mem_latest {replaced : List ReplacedContent} {path : String} {r : ReplacedContent}
    (h : r ∈ latest replaced path) :
  r ∈ replaced ∧ r.path = path
  := by
  have hmem := List.mem_of_mem_drop h
  simpa using List.mem_filter.mp hmem

/-- The latest contents after one more. -/
theorem latest_concat (replaced : List ReplacedContent) (r : ReplacedContent) :
  latest (replaced ++ [r]) r.path
    = (latest replaced r.path ++ [r]).rtake maxBackups
  := by
  have hfilter : (replaced ++ [r]).filter (fun d => d.path = r.path)
      = replaced.filter (fun d => d.path = r.path) ++ [r] := by
    simp
  rw [latest, latest, hfilter]
  generalize replaced.filter (fun d => decide (d.path = r.path)) = l
  have htwice : (l.rtake (19 + 1)).rtake 19 = l.rtake 19 := by
    simp [List.rtake_eq_reverse_take_reverse, List.take_take]
  rw [maxBackups, List.rtake_concat_succ l 19, List.rtake_concat_succ _ 19, htwice]

/-- The latest contents of the other paths after one more. -/
theorem latest_concat_of_ne (replaced : List ReplacedContent) {r : ReplacedContent} {path : String}
    (h : r.path ≠ path) :
  latest (replaced ++ [r]) path = latest replaced path
  := by
  rw [latest, List.filter_append, List.filter_cons_of_neg (by simpa using h), List.filter_nil,
    List.append_nil, latest]

/-- What is not among the first of different things is among the others. -/
theorem notMem_take_map_iff {α β : Type} {f : α → β} {l : List α} (h : (l.map f).Nodup) {a : α}
    (ha : a ∈ l) (m : ℕ) :
  f a ∉ (l.map f).take m ↔ a ∈ l.drop m
  := by
  rw [← List.map_take]
  rw [← List.take_append_drop m l] at h ha
  rw [List.map_append] at h
  constructor
  · intro hfirst
    rcases List.mem_append.mp ha with ha | ha
    · apply absurd (List.mem_map_of_mem ha) hfirst
    · apply ha
  · intro hlast hfirst
    apply List.disjoint_of_nodup_append h hfirst (List.mem_map_of_mem hlast)

/-- The backups of a path by their names, when a newer one is put with those that are kept. -/
theorem insertionSort_backups {s : ConfigHistory} (h : KeptLatest s) {r : ReplacedContent}
    (hliteral : Glob.IsLiteral (Path.basename r.path).toList)
    (hlater : ∀ d ∈ s.replaced, d.path = r.path → d.stamp < r.stamp)
    (hapart : ∀ d ∈ s.replaced, d.path ≠ r.path →
      Glob.fnmatch (backupPattern r.path) (backupName d.path d.stamp) = false) :
  (((s.host.backups.put (backupName r.path r.stamp, r.content)).rows.map Prod.fst).filter
      (Glob.fnmatch (backupPattern r.path))).insertionSort (· ≤ ·)
    = (latest s.replaced r.path ++ [r]).map fun d => backupName r.path d.stamp
  := by
  have hsorted : ((latest s.replaced r.path ++ [r]).map fun d => backupName r.path d.stamp).Pairwise
      (· < ·) := by
    rw [List.pairwise_map, List.pairwise_append]
    refine ⟨?_, List.pairwise_singleton _ _, ?_⟩
    · have hpairs := (h.later.sublist List.filter_sublist).sublist
        (List.drop_sublist _ _ : (latest s.replaced r.path).Sublist _)
      apply hpairs.imp_of_mem
      intro a b ha hb hab
      apply backupName_lt
      apply hab
      rw [(mem_latest ha).2, (mem_latest hb).2]
    · intro d hd d' hd'
      rw [List.mem_singleton.mp hd']
      obtain ⟨hd, hpath⟩ := mem_latest hd
      apply backupName_lt (hlater d hd hpath)
  apply List.Perm.eq_of_pairwise' (r := (· ≤ ·)) (List.pairwise_insertionSort _ _)
    (hsorted.imp le_of_lt)
  apply (List.perm_insertionSort _ _).trans
  rw [List.perm_ext_iff_of_nodup]
  · intro name
    rw [List.mem_filter, List.mem_map, List.mem_map]
    constructor
    · rintro ⟨⟨row, hrow, rfl⟩, hmatch⟩
      rcases Table.mem_put.mp hrow with rfl | ⟨hrow, -⟩
      · exact ⟨r, by simp, rfl⟩
      · obtain ⟨path, d, hd, rfl⟩ := (h.rows row).mp hrow
        obtain ⟨hmem, rfl⟩ := mem_latest hd
        by_cases hpath : d.path = r.path
        · rw [hpath] at hd
          refine ⟨d, List.mem_append_left _ hd, ?_⟩
          rw [hpath]
        · rw [hapart d hmem hpath] at hmatch
          cases hmatch
    · rintro ⟨d, hd, rfl⟩
      refine ⟨⟨(backupName r.path d.stamp, d.content), ?_, rfl⟩, fnmatch_backupName hliteral d.stamp⟩
      rw [Table.mem_put]
      rcases List.mem_append.mp hd with hd | hd
      · right
        obtain ⟨hmem, hpath⟩ := mem_latest hd
        constructor
        · rw [h.rows]
          refine ⟨r.path, d, hd, ?_⟩
          rw [hpath]
        · apply ne_of_lt (backupName_lt (hlater d hmem hpath))
      · left
        rw [List.mem_singleton.mp hd]
  · apply List.Nodup.filter
    apply Table.nodup
  · apply hsorted.imp
    intro a b hab
    apply ne_of_lt hab

/-- What a pattern does not match is not removed. -/
theorem notMem_staleBackups {path name : String} (h : Glob.fnmatch (backupPattern path) name = false)
    (backups : Table (Prod.fst : String × List UInt8 → String)) :
  name ∉ staleBackups path backups
  := by
  intro hstale
  rw [staleBackups] at hstale
  have hfound := List.mem_of_mem_take hstale
  rw [List.mem_insertionSort, List.mem_filter, h] at hfound
  cases hfound.2

/-- What a call replaces is of its path. -/
theorem of_replacedBy {host : ConfigHost} {call : ConfigCall} {r : ReplacedContent}
    (h : host.replacedBy call = some r) :
  r.path = call.path ∧ r.stamp = call.stamp
  := by
  rw [ConfigHost.replacedBy] at h
  split at h
  · cases h
  · obtain ⟨content, -, rfl⟩ := Option.map_eq_some_iff.mp h
    exact ⟨rfl, rfl⟩

/-- What is kept when a newer content of a path is. -/
theorem KeptLatest.backup {s : ConfigHistory} (h : KeptLatest s) {r : ReplacedContent}
    (hliteral : Glob.IsLiteral (Path.basename r.path).toList)
    (hlater : ∀ d ∈ s.replaced, d.path = r.path → d.stamp < r.stamp)
    (hapart : ∀ d ∈ s.replaced, d.path ≠ r.path →
      Glob.fnmatch (backupPattern r.path) (backupName d.path d.stamp) = false
        ∧ Glob.fnmatch (backupPattern d.path) (backupName r.path r.stamp) = false) :
  KeptLatest
    { host := s.host.backup r.path r.stamp r.content
      replaced := s.replaced ++ [r] }
  := by
  have hsort := insertionSort_backups h hliteral hlater fun d hd hne => (hapart d hd hne).1
  have hdifferent : ∀ d ∈ s.replaced, d.path ≠ r.path →
      backupName d.path d.stamp ≠ backupName r.path r.stamp := by
    intro d hd hne heq
    have hown := (hapart d hd hne).1
    rw [heq, fnmatch_backupName hliteral] at hown
    cases hown
  have hnames : ((latest s.replaced r.path ++ [r]).map fun d => backupName r.path d.stamp).Nodup := by
    rw [← hsort]
    apply (List.perm_insertionSort _ _).nodup_iff.mpr
    apply List.Nodup.filter
    apply Table.nodup
  have hstale : staleBackups r.path (s.host.backups.put (backupName r.path r.stamp, r.content))
      = ((latest s.replaced r.path ++ [r]).map fun d => backupName r.path d.stamp).take
        ((latest s.replaced r.path ++ [r]).length - maxBackups) := by
    rw [staleBackups, hsort, List.length_map]
  have hown : ∀ d, d ∈ latest s.replaced r.path ++ [r] →
      (backupName r.path d.stamp
          ∉ staleBackups r.path (s.host.backups.put (backupName r.path r.stamp, r.content))
        ↔ d ∈ latest (s.replaced ++ [r]) r.path) := by
    intro d hd
    rw [hstale, latest_concat]
    apply notMem_take_map_iff hnames hd
  constructor
  · intro row
    rw [ConfigHost.backup]
    dsimp only
    rw [Table.mem_foldl_erase, Table.mem_put]
    constructor
    · rintro ⟨hrow, hleft⟩
      rcases hrow with rfl | ⟨hrow, hne⟩
      · exact ⟨r.path, r, (hown r (by simp)).mp hleft, rfl⟩
      · obtain ⟨path, d, hd, rfl⟩ := (h.rows row).mp hrow
        use path, d
        constructor
        · obtain ⟨hmem, rfl⟩ := mem_latest hd
          by_cases hpath : d.path = r.path
          · rw [hpath] at hd hleft ⊢
            apply (hown d (List.mem_append_left _ hd)).mp hleft
          · rw [latest_concat_of_ne _ (Ne.symm hpath)]
            apply hd
        · rfl
    · rintro ⟨path, d, hd, rfl⟩
      by_cases hpath : r.path = path
      · subst hpath
        have hkept : d ∈ latest s.replaced r.path ++ [r] := by
          rw [latest_concat] at hd
          apply List.mem_of_mem_drop hd
        have hd' : d.path = r.path := (mem_latest hd).2
        rw [hd']
        constructor
        · rcases List.mem_append.mp hkept with hold | hnew
          · right
            obtain ⟨hmem, -⟩ := mem_latest hold
            constructor
            · rw [h.rows]
              refine ⟨r.path, d, hold, ?_⟩
              rw [hd']
            · apply ne_of_lt (backupName_lt (hlater d hmem hd'))
          · left
            rw [List.mem_singleton.mp hnew]
        · apply (hown d hkept).mpr hd
      · rw [latest_concat_of_ne _ hpath] at hd
        obtain ⟨hmem, rfl⟩ := mem_latest hd
        constructor
        · right
          exact ⟨(h.rows _).mpr ⟨d.path, d, hd, rfl⟩, hdifferent d hmem (Ne.symm hpath)⟩
        · apply notMem_staleBackups (hapart d hmem (Ne.symm hpath)).1
  · rw [List.forall_mem_append]
    exact ⟨h.literal, by simpa using hliteral⟩
  · rw [List.pairwise_append]
    refine ⟨h.later, List.pairwise_singleton _ _, ?_⟩
    intro d hd d' hd'
    rw [List.mem_singleton.mp hd']
    apply hlater d hd
  · intro d hd d' hd' hne
    rcases List.mem_append.mp hd with hd | hd
    · rcases List.mem_append.mp hd' with hd' | hd'
      · apply h.own d hd d' hd' hne
      · rw [List.mem_singleton.mp hd'] at hne ⊢
        apply (hapart d hd (Ne.symm hne)).1
    · rw [List.mem_singleton.mp hd] at hne ⊢
      rcases List.mem_append.mp hd' with hd' | hd'
      · apply (hapart d' hd' hne).2
      · rw [List.mem_singleton.mp hd'] at hne
        contradiction

/-- What is kept depends on the backups and the contents that were replaced. -/
theorem KeptLatest.congr {s s' : ConfigHistory} (h : KeptLatest s)
    (hbackups : s'.host.backups = s.host.backups) (hreplaced : s'.replaced = s.replaced) :
  KeptLatest s'
  := by
  obtain ⟨hrows, hliteral, hlater, hown⟩ := h
  constructor
  · rw [hbackups, hreplaced]
    apply hrows
  · rw [hreplaced]
    apply hliteral
  · rw [hreplaced]
    apply hlater
  · rw [hreplaced]
    apply hown

/-- The step lemma of `KeptLatest`. -/
theorem KeptLatest.step {sha256 : List UInt8 → String} {s s' : ConfigHistory} {call : ConfigCall}
    (h : KeptLatest s) (horderly : Orderly s call)
    (hstep : (configMachine sha256).step s call = some s') :
  KeptLatest s'
  := by
  cases hstep
  have hafter := backups_after sha256 horderly.raises
  cases hreplaced : s.host.replacedBy call with
  | none =>
      rw [hreplaced] at hafter
      apply h.congr hafter
      apply List.append_nil
  | some r =>
      rw [hreplaced] at hafter
      dsimp only at hafter
      obtain ⟨hpath, hstamp⟩ := of_replacedBy hreplaced
      have hkept : KeptLatest
          { host := s.host.backup r.path r.stamp r.content
            replaced := s.replaced ++ [r] } := by
        apply h.backup
        · rw [hpath]
          apply horderly.literal
        · rw [hpath, hstamp]
          apply horderly.later
        · rw [hpath, hstamp]
          apply horderly.apart
      exact hkept.congr hafter rfl

/-- An orderly call spares the backups of the other paths. -/
theorem Orderly.spares {sha256 : List UInt8 → String} {s : ConfigHistory} {call : ConfigCall}
    (horderly : Orderly s call) :
  SparesBackups sha256 s call
  := by
  intro r hr hne backup hbackup
  have hafter := backups_after sha256 horderly.raises
  cases hreplaced : s.host.replacedBy call with
  | none =>
      rw [hreplaced] at hafter
      rw [hafter, hbackup]
  | some d =>
      rw [hreplaced] at hafter
      dsimp only at hafter
      obtain ⟨hpath, hstamp⟩ := of_replacedBy hreplaced
      obtain ⟨hother, -⟩ := horderly.apart r hr hne
      obtain ⟨hmem, hkey⟩ := Table.find?_eq_some_iff.mp hbackup
      rw [hafter, ConfigHost.backup, Table.find?_eq_some_iff, Table.mem_foldl_erase, Table.mem_put,
        hkey, hpath, hstamp]
      refine ⟨⟨Or.inr ⟨hmem, ?_⟩, notMem_staleBackups hother _⟩, rfl⟩
      intro heq
      rw [heq, fnmatch_backupName horderly.literal] at hother
      cases hother

/-- What is kept can be recovered. -/
theorem KeptLatest.recoverable {s : ConfigHistory} (h : KeptLatest s) :
  Recoverable s
  := by
  constructor
  · intro before r after hreplaced hnewer
    rw [Table.find?_eq_some_iff, h.rows]
    refine ⟨⟨r.path, r, ?_, rfl⟩, rfl⟩
    have hfilter : s.replaced.filter (fun d => d.path = r.path)
        = before.filter (fun d => d.path = r.path) ++ r :: after.filter (fun d => d.path = r.path) := by
      rw [hreplaced]
      simp
    rw [latest, hfilter, List.rtake, List.drop_append_of_le_length]
    · apply List.mem_append_right _ List.mem_cons_self
    · rw [List.length_append, List.length_cons]
      omega
  · apply h.own

/-- Nothing was replaced and nothing is kept. -/
theorem keptLatest_start (files : String → Option (List UInt8)) :
  KeptLatest ⟨⟨files, .empty⟩, []⟩
  := by
  constructor
  · intro row
    constructor
    · intro hrow
      cases hrow
    · rintro ⟨path, r, hr, -⟩
      cases (mem_latest hr).1
  · simp
  · apply List.Pairwise.nil
  · simp

/-- In every run of calls for any paths that do not bring backups together, every content that was replaced
can be recovered until there are twenty newer backups of its path, and no call deletes or changes a backup
of another path. -/
theorem recoverable_of_run (sha256 : List UInt8 → String) {files : String → Option (List UInt8)}
    {calls : List ConfigCall} {s : ConfigHistory}
    (horderly : (configMachine sha256).Along Orderly ⟨⟨files, .empty⟩, []⟩ calls)
    (hrun : (configMachine sha256).run ⟨⟨files, .empty⟩, []⟩ calls = some s) :
  Recoverable s ∧ (configMachine sha256).Along (SparesBackups sha256) ⟨⟨files, .empty⟩, []⟩ calls
  := by
  constructor
  · have hkept : KeptLatest s := Machine.run_invariant
      (fun _ _ _ h hP hstep => h.step hP hstep) (keptLatest_start files) horderly hrun
    apply hkept.recoverable
  · apply Machine.along_of_invariant (I := KeptLatest) _ _ (keptLatest_start files) horderly
    · intro s call s' h hP hstep
      apply h.step hP hstep
    · intro s call _ hP
      apply hP.spares

/-- A call that writes one byte to a file, which nothing checks. -/
def writeByte (path stamp : String) (byte : UInt8) : ConfigCall :=
  ⟨path, ⟨[byte], false, false⟩, stamp, fun _ _ => none⟩

/-- The content of a file is replaced twice, in two seconds. -/
theorem recoverable_twice :
  ∃ s, (configMachine fun _ => "").run ⟨⟨fun _ => some [0], .empty⟩, []⟩
      [writeByte "/etc/nasos.conf" "1" 1, writeByte "/etc/nasos.conf" "2" 2] = some s
    ∧ Recoverable s
  := by
  have horderly : (configMachine fun _ => "").Along Orderly ⟨⟨fun _ => some [0], .empty⟩, []⟩
      [writeByte "/etc/nasos.conf" "1" 1, writeByte "/etc/nasos.conf" "2" 2] := by
    decide +kernel
  exact ⟨_, rfl, (recoverable_of_run _ horderly rfl).1⟩

/-- When it is replaced twice in one second, the first content is lost. -/
theorem not_recoverable_twice :
  ¬ ∀ (files : String → Option (List UInt8)) (calls : List ConfigCall) (s : ConfigHistory),
    (configMachine fun _ => "").run ⟨⟨files, .empty⟩, []⟩ calls = some s → Recoverable s
  := by
  intro h
  have hrecoverable := h (fun _ => some [0])
    [writeByte "/etc/nasos.conf" "1" 1, writeByte "/etc/nasos.conf" "1" 2] _ rfl
  have hkept := hrecoverable.kept [] ⟨"/etc/nasos.conf", "1", [0]⟩ [⟨"/etc/nasos.conf", "1", [1]⟩]
    rfl (by decide)
  revert hkept
  decide +kernel
