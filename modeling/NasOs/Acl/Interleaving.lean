import NasOs.Acl.Commands
import NasOs.Library.Protocol

/-!
# Saves of permissions that run at the same time

Saves of the permissions of one path, from the permissions of a share and from the file manager's editor,
are the tasks of a pool.  A command is one step; it succeeds as `FileAcl.command` says, or fails
and leaves the lists in any state.  Jobs for the whole tree of a share exclude each
other, and nothing else does.

When the reset of a save never comes between the reset and the rebuild of another, the entries of
one of the saves are left when all of them have succeeded.  Otherwise the entries of two
saves may be left at once.
-/

/-- A save of the permissions of a path. -/
structure AclSave where
  ofShare : Bool
  entries : List AclEntry
  recursive : Bool

/-- The coroutine of a save. -/
def AclSave.task (path : String) (save : AclSave) : AclM Unit :=
  if save.ofShare then SharesHandlers.setPermissions path save.entries save.recursive
  else FilesHandlers.setAcl path save.entries save.recursive

/-- The lists of a path, and the locks that are held. -/
structure AclWorld where
  file : FileAcl
  held : List String

/-- How a command turns out: it does what it should, or it gives an answer that is no success
and leaves the lists in some state. -/
inductive AclChoice where
  | performs
  | fails (answer : Except Exc CommandResult) (left : FileAcl)

/-- The command was run and succeeded. -/
def succeeded : Except Exc CommandResult → Bool
  | .ok result => result.ok
  | .error _ => false

/-- The answers to the operations of saves of `path`; a lock that is held is waited for. -/
def AclWorld.perform (path : String) (world : AclWorld) :
    (op : AclOp) → AclChoice → Option (op.Answer × AclWorld)
  | .run argv, .performs =>
      (world.file.command path argv).map fun a => (.ok ⟨0, a.1, ""⟩, { world with file := a.2 })
  | .run _, .fails answer left =>
      if succeeded answer then none else some (answer, { world with file := left })
  | .acquire resource, _ =>
      if resource ∈ world.held then none
      else some ((), { world with held := resource :: world.held })
  | .release resource, _ => some ((), { world with held := world.held.erase resource })

/-- The effects of saves of `path`. -/
def aclEffects (path : String) : Effects AclOp AclOp.Answer AclWorld AclChoice PEmpty :=
  ⟨AclWorld.perform path, fun _ e => e.elim⟩

/-- The pool of unstarted saves of `path`. -/
def AclSave.pool (path : String) (saves : List AclSave) (file : FileAcl) :
    Pool AclOp AclOp.Answer AclWorld (Except Exc Unit) :=
  Pool.start ⟨file, []⟩ (saves.map fun save => (save.task path).run)

/-! ### The protocol of a save -/

/-- How far a save has come. -/
inductive SaveStage where
  | before
  | reset
  | rebuilt
  | failed
  deriving DecidableEq

/-- The stage after a command that succeeded. -/
def SaveStage.advance : SaveStage → SaveStage
  | .before => .reset
  | .reset => .rebuilt
  | stage => stage

/-- A save runs its reset, and then its rebuild at once. -/
def AclSave.protocol (path : String) (save : AclSave) : Protocol AclOp AclOp.Answer SaveStage where
  allowed stage op :=
    match op, stage with
    | .run argv, .before => argv = "setfacl" :: SetfaclAcl.resetArgs path save.recursive
    | .run argv, .reset => argv = "setfacl" :: SetfaclAcl.applyArgs path save.entries save.recursive
    | .run _, _ => False
    | _, stage => stage ≠ .reset
  next stage op :=
    match op with
    | .run _ => fun answer => if succeeded answer then stage.advance else .failed
    | _ => fun _ => stage

/-- A save that succeeds has rebuilt the lists, and one that fails has failed. -/
def AclSave.ends (stage : SaveStage) (result : Except Exc Unit) : Prop :=
  stage = match result with
    | .ok _ => .rebuilt
    | .error _ => .failed

namespace AclSave

variable {path : String} {save : AclSave}

/-- The rule for a command. -/
theorem obeys_run {stage : SaveStage} {args : List String}
    {Q : SaveStage → Except Exc Unit → Prop}
    (hallowed : (save.protocol path).allowed stage (.run ("setfacl" :: args)))
    (hok : Q stage.advance (.ok ())) (herror : ∀ e, Q .failed (.error e)) :
  (SetfaclAcl.run args).run.Obeys (save.protocol path) Q stage
  := by
  use hallowed
  rintro (e | result)
  · apply herror e
  · have hnext : (save.protocol path).next stage (.run ("setfacl" :: args)) (.ok result)
        = if result.ok then stage.advance else .failed := rfl
    rw [hnext]
    change (Async.raiseIf (!result.ok) _ : AclM Unit).run.Obeys _ _ _
    cases h : result.ok with
    | false => apply herror
    | true => apply hok

/-- The two commands of a save. -/
theorem obeys_replaceAll :
  (SetfaclAcl.replaceAll path save.entries save.recursive).run.Obeys (save.protocol path) ends
    .before
  := by
  apply Coroutine.Obeys.exceptT_bind (Q := fun stage result =>
    stage = match result with
      | .ok _ => .reset
      | .error _ => .failed)
  · apply obeys_run
    · rfl
    · rfl
    · intro e
      rfl
  · rintro stage _ rfl
    apply obeys_run
    · rfl
    · rfl
    · intro e
      rfl
  · intro stage e h
    apply h

/-- Raising another exception for one changes nothing. -/
theorem obeys_mapError {body : AclM Unit} {f : Exc → AclM Unit}
    (h : body.run.Obeys (save.protocol path) ends .before) (hf : ∀ e, ∃ e', f e = throw e') :
  (tryCatch body f).run.Obeys (save.protocol path) ends .before
  := by
  apply h.tryCatch
  · intro stage _ h
    apply h
  · intro stage e h
    obtain ⟨e', he'⟩ := hf e
    rw [he']
    apply h

/-- A job with a lock, step by step. -/
theorem job_run (resource : String) (body : AclM Unit) :
  (JobRunner.run (some resource) body).run
    = .await (.acquire resource) fun _ =>
        body.run >>= fun result => .await (.release resource) fun _ => .done result
  := by
  apply congrArg (Coroutine.await (AclOp.acquire resource))
  funext _
  change (ExceptT.lift body.run >>= fun result =>
    (Async.ask (.release resource) >>= fun _ => Async.ofExcept result : AclM Unit)).run = _
  rw [ExceptT.run_bind, ExceptT.run_lift, bind_map_left]
  rfl

/-- The lock of a job is acquired before the reset and released after the rebuild. -/
theorem obeys_job {resource : Option String} {body : AclM Unit}
    (h : body.run.Obeys (save.protocol path) ends .before) :
  (JobRunner.run resource body).run.Obeys (save.protocol path) ends .before
  := by
  cases resource with
  | none => apply h
  | some resource =>
      rw [job_run]
      use by simp [protocol]
      intro _
      apply h.bind
      intro stage result hends
      have hstage : stage ≠ .reset := by
        rw [hends]
        cases result
        all_goals simp
      use hstage
      intro _
      apply hends

/-- A save obeys its protocol. -/
theorem obeys_task (path : String) (save : AclSave) :
  (save.task path).run.Obeys (save.protocol path) ends .before
  := by
  have hraise : ∀ {f : Exc → AclM Unit}, (∀ e, ∃ e', f e = throw e') →
      (tryCatch (SetfaclAcl.replaceAll path save.entries save.recursive) f).run.Obeys
        (save.protocol path) ends .before := fun hf => obeys_mapError obeys_replaceAll hf
  rcases save with ⟨_ | _, entries, _ | _⟩
  · apply obeys_replaceAll
  · apply @obeys_job _ _ none _ obeys_replaceAll
  · apply hraise
    rintro (_ | _ | _ | _ | _ | _)
    all_goals exact ⟨_, rfl⟩
  · apply @obeys_job _ _ (some ("share:" ++ path))
    apply hraise
    rintro (_ | _ | _ | _ | _ | _)
    all_goals exact ⟨_, rfl⟩

end AclSave

/-! ### What is left when all saves have succeeded -/

/-- A reset of the lists. -/
def AclOp.isReset : AclOp → Bool
  | .run ("setfacl" :: "-b" :: _) => true
  | _ => false

/-- A rebuild of the lists. -/
def AclOp.isRebuild : AclOp → Bool
  | .run ("setfacl" :: "-m" :: _) => true
  | .run ("setfacl" :: "-R" :: "-m" :: _) => true
  | _ => false

/-- A step of a pool of saves does not reset the lists when another save is between its reset and
its rebuild. -/
def ResetsApart (p : Pool AclOp AclOp.Answer AclWorld (Except Exc Unit)) :
    Pool.Label AclChoice PEmpty → Prop
  | .task i _ => (p.pendingOf i).any AclOp.isReset →
      ∀ j < p.tasks.length, j ≠ i → (p.pendingOf j).any AclOp.isRebuild = false
  | .environment _ => True

instance (p : Pool AclOp AclOp.Answer AclWorld (Except Exc Unit)) (l : Pool.Label AclChoice PEmpty) :
    Decidable (ResetsApart p l) :=
  match l with
  | .task i _ => inferInstanceAs (Decidable ((p.pendingOf i).any AclOp.isReset →
      ∀ j < p.tasks.length, j ≠ i → (p.pendingOf j).any AclOp.isRebuild = false))
  | .environment _ => isTrue trivial

/-- The lists hold the named entries of a permission list and no others. -/
def Carries (entries : List AclEntry) (acl : FileAcl) : Prop :=
  acl.access.named = grants entries ∧ ∀ default ∈ acl.default, default.named = grants entries

theorem carries_replacedFile (isDir : Bool) (entries : List AclEntry) :
  Carries entries (replacedFile isDir entries)
  := by
  use rfl
  cases isDir
  all_goals simp [replacedFile, replacedAcl]

/-- What the stages of saves say about the lists: unless a save has failed, no save has begun, or
the entries of one are there, or one save has reset the lists and is to rebuild them. -/
def SavesInv (saves : List AclSave) (stages : ℕ → SaveStage) (world : AclWorld) : Prop :=
  (∃ i < saves.length, stages i = .failed)
    ∨ (∀ i < saves.length, stages i = .before)
    ∨ ((∀ i < saves.length, stages i ≠ .reset) ∧ ∃ save ∈ saves, Carries save.entries world.file)
    ∨ ∃ i < saves.length, stages i = .reset ∧ (∀ j < saves.length, stages j = .reset → j = i)
        ∧ Bare world.file

/-- A save that failed stays failed. -/
theorem SavesInv.of_failed {saves : List AclSave} {stages : ℕ → SaveStage} {world : AclWorld}
    {i j : ℕ} (hj : j < saves.length) (hfailed : stages j = .failed) (hne : j ≠ i)
    (stage : SaveStage) :
  SavesInv saves (Function.update stages i stage) world
  := by
  left
  use j, hj
  rw [Function.update_of_ne hne, hfailed]

/-- The step of a command. -/
theorem SavesInv.run {path : String} {saves : List AclSave} {stages : ℕ → SaveStage}
    {world world' : AclWorld} (h : SavesInv saves stages world) {i : ℕ} {save : AclSave}
    (hsave : saves[i]? = some save) {argv : List String}
    (hallowed : (save.protocol path).allowed (stages i) (.run argv))
    (hapart : stages i = .before → ∀ j < saves.length, j ≠ i → stages j ≠ .reset)
    {choice : AclChoice} {answer : Except Exc CommandResult}
    (hperform : world.perform path (.run argv) choice = some (answer, world')) :
  SavesInv saves
    (Function.update stages i (if succeeded answer then (stages i).advance else .failed)) world'
  := by
  obtain ⟨hi, rfl⟩ := List.getElem?_eq_some_iff.mp hsave
  cases choice with
  | fails answer' left =>
      simp only [AclWorld.perform] at hperform
      split at hperform
      · cases hperform
      · rename_i hanswer
        cases hperform
        left
        use i, hi
        rw [Function.update_self, if_neg hanswer]
  | performs =>
      obtain ⟨⟨out, file⟩, hcommand, hpair⟩ := Option.map_eq_some_iff.mp hperform
      cases hpair
      have hsucceeded : succeeded (.ok ⟨0, out, ""⟩) = true := rfl
      rw [if_pos hsucceeded]
      cases hstage : stages i with
      | before =>
          rw [hstage] at hallowed
          cases hallowed
          rw [FileAcl.command_reset] at hcommand
          cases hcommand
          by_cases hfailed : ∃ j < saves.length, stages j = .failed
          · obtain ⟨j, hj, hfailed⟩ := hfailed
            have hne : j ≠ i := by
              rintro rfl
              cases hstage.symm.trans hfailed
            apply of_failed hj hfailed hne
          · right; right; right
            use i, hi, Function.update_self i _ stages
            constructor
            · intro j hj hreset
              by_contra hne
              rw [Function.update_of_ne hne] at hreset
              apply hapart hstage j hj hne hreset
            · apply FileAcl.removeAll_bare
      | reset =>
          rw [hstage] at hallowed
          cases hallowed
          rcases h with ⟨j, hj, hfailed⟩ | hbefore | ⟨hnone, -⟩ | ⟨j, hj, -, honly, hbare⟩
          · have hne : j ≠ i := by
              rintro rfl
              cases hstage.symm.trans hfailed
            apply of_failed hj hfailed hne
          · cases hstage.symm.trans (hbefore i hi)
          · apply absurd hstage (hnone i hi)
          · rw [FileAcl.command_apply path hbare] at hcommand
            split at hcommand
            · cases hcommand
              right; right; left
              constructor
              · intro k hk
                by_cases hne : k = i
                · subst hne
                  rw [Function.update_self]
                  rintro ⟨⟩
                · rw [Function.update_of_ne hne]
                  intro hreset
                  apply hne ((honly k hk hreset).trans (honly i hi hstage).symm)
              · use saves[i], List.getElem_mem hi
                apply carries_replacedFile
            · cases hcommand
      | rebuilt =>
          rw [hstage] at hallowed
          cases hallowed
      | failed =>
          rw [hstage] at hallowed
          cases hallowed

/-- The step lemma of `SavesInv`. -/
theorem SavesInv.step {path : String} {saves : List AclSave} {stages : ℕ → SaveStage}
    {world world' : AclWorld} (h : SavesInv saves stages world) {i : ℕ} {save : AclSave}
    (hsave : saves[i]? = some save) {op : AclOp}
    (hallowed : (save.protocol path).allowed (stages i) op)
    (hapart : stages i = .before → op.isReset → ∀ j < saves.length, j ≠ i → stages j ≠ .reset)
    {choice : AclChoice} {answer : op.Answer}
    (hperform : world.perform path op choice = some (answer, world')) :
  SavesInv saves (Function.update stages i ((save.protocol path).next (stages i) op answer)) world'
  := by
  cases op with
  | run argv =>
      apply h.run hsave hallowed _ hperform
      intro hstage
      rw [hstage] at hallowed
      cases hallowed
      apply hapart hstage
      cases save.recursive
      all_goals rfl
  | acquire resource =>
      have hstay : (save.protocol path).next (stages i) (.acquire resource) answer = stages i := rfl
      rw [hstay, Function.update_eq_self]
      simp only [AclWorld.perform] at hperform
      split at hperform
      · cases hperform
      · cases hperform
        apply h
  | release resource =>
      have hstay : (save.protocol path).next (stages i) (.release resource) answer = stages i := rfl
      rw [hstay, Function.update_eq_self]
      cases hperform
      apply h

/-- A save between its reset and its rebuild awaits its rebuild. -/
theorem AclSave.pending_isRebuild {path : String} {save : AclSave}
    {c : Coroutine AclOp AclOp.Answer (Except Exc Unit)}
    (h : c.Obeys (save.protocol path) ends .reset) :
  ∃ op, c.pending = some op ∧ op.isRebuild
  := by
  cases c with
  | done result =>
      cases result
      all_goals cases h
  | await op resume =>
      use op, rfl
      obtain ⟨hallowed, -⟩ := h
      cases op with
      | run argv =>
          cases hallowed
          cases save.recursive
          all_goals rfl
      | acquire resource => apply absurd rfl hallowed
      | release resource => apply absurd rfl hallowed

/-- In every state of a run whose resets keep apart, the saves are at stages that say what the
lists are. -/
theorem savesInv_of_run {path : String} {saves : List AclSave} {file : FileAcl}
    {l : List (Pool.Label AclChoice PEmpty)}
    {p : Pool AclOp AclOp.Answer AclWorld (Except Exc Unit)}
    (hapart : (Pool.machine (aclEffects path)).Along ResetsApart (AclSave.pool path saves file) l)
    (hrun : (Pool.machine (aclEffects path)).run (AclSave.pool path saves file) l = some p) :
  p.tasks.length = saves.length ∧ ∃ stages, SavesInv saves stages p.world
    ∧ ∀ (i : ℕ) c, p.tasks[i]? = some c → ∃ save : AclSave,
        c.Obeys (save.protocol path) AclSave.ends (stages i)
  := by
  let P := fun i => (saves.getD i ⟨false, [], false⟩).protocol path
  have hsave : ∀ i < saves.length, saves[i]? = some (saves.getD i ⟨false, [], false⟩) := by
    intro i hi
    simp [hi]
  have hstart : (AclSave.pool path saves file).Obeying P (fun _ => AclSave.ends)
      fun _ => .before := by
    intro i c hc
    obtain ⟨save, hi, rfl⟩ := Option.map_eq_some_iff.mp (List.getElem?_map ▸ hc)
    have hP : P i = save.protocol path := by
      simp only [P, List.getD_eq_getElem?_getD, hi, Option.getD_some]
    rw [hP]
    apply AclSave.obeys_task
  have hinv : p.tasks.length = (saves.map fun save => (save.task path).run).length
      ∧ ∃ stages, p.Obeying P (fun _ => AclSave.ends) stages ∧ SavesInv saves stages p.world := by
    apply Pool.run_obeys (I := fun stages p => SavesInv saves stages p.world) hstart
      (Or.inr (Or.inl fun _ _ => rfl)) _ (fun _ _ e => e.elim) hapart hrun
    intro p stages i choice op resume r world' hlength hobeying hI hD hi hallowed hperform
    rw [List.length_map] at hlength
    obtain ⟨hlt, -⟩ := List.getElem?_eq_some_iff.mp hi
    have hpending : p.pendingOf i = some op := Pool.pendingOf_eq hi
    apply hI.step (hsave i (hlength ▸ hlt)) hallowed _ hperform
    intro _ hreset j hj hne hstage
    have htask : p.tasks[j]? = some p.tasks[j] := List.getElem?_eq_getElem (hlength ▸ hj)
    have hobeys := hobeying j _ htask
    rw [hstage] at hobeys
    obtain ⟨op', hop', hrebuild⟩ := AclSave.pending_isRebuild hobeys
    have hrebuilds : (p.pendingOf j).any AclOp.isRebuild = true := by
      rw [Pool.pendingOf_eq htask, hop']
      apply hrebuild
    rw [ResetsApart, hpending] at hD
    rw [hD hreset j (hlength ▸ hj) hne] at hrebuilds
    cases hrebuilds
  obtain ⟨hlength, stages, hobeying, hstages⟩ := hinv
  rw [List.length_map] at hlength
  use hlength, stages, hstages
  intro i c hc
  use saves.getD i ⟨false, [], false⟩
  apply hobeying i c hc

/-- When no save is reset between the reset and the rebuild of another, and all of them have
succeeded, the named entries of the path are those of one of the saves; a principal that is in
none of them has no access. -/
theorem replaceAll_of_resetsApart {path : String} {saves : List AclSave} (hne : saves ≠ [])
    {file : FileAcl} {l : List (Pool.Label AclChoice PEmpty)}
    {p : Pool AclOp AclOp.Answer AclWorld (Except Exc Unit)}
    (hapart : (Pool.machine (aclEffects path)).Along ResetsApart (AclSave.pool path saves file) l)
    (hrun : (Pool.machine (aclEffects path)).run (AclSave.pool path saves file) l = some p)
    (hdone : p.tasks.map Coroutine.result = saves.map fun _ => some (.ok ())) :
  (∃ save ∈ saves, Carries save.entries p.world.file)
    ∧ ∀ principal, (∀ save ∈ saves, principal ∉ grants save.entries) →
        p.world.file.access.effective principal = none
  := by
  obtain ⟨hlength, stages, hinv, hobeys⟩ := savesInv_of_run hapart hrun
  have hrebuilt : ∀ i < saves.length, stages i = .rebuilt := by
    intro i hi
    have htask : p.tasks[i]? = some p.tasks[i] := List.getElem?_eq_getElem (hlength ▸ hi)
    have hresult : p.tasks[i].result = some (.ok ()) := by
      have h := congrArg (fun results => results[i]?) hdone
      simpa [htask, hi] using h
    rw [Coroutine.result_eq_some.mp hresult] at htask
    obtain ⟨save, hends⟩ := hobeys i _ htask
    apply hends
  have hcarries : ∃ save ∈ saves, Carries save.entries p.world.file := by
    rcases hinv with ⟨i, hi, hstage⟩ | hbefore | ⟨-, hcarries⟩ | ⟨i, hi, hstage, -⟩
    · cases (hrebuilt i hi).symm.trans hstage
    · have hpos := List.length_pos_iff.mpr hne
      cases (hrebuilt 0 hpos).symm.trans (hbefore 0 hpos)
    · apply hcarries
    · cases (hrebuilt i hi).symm.trans hstage
  use hcarries
  intro principal hnone
  obtain ⟨save, hsave, hnamed, -⟩ := hcarries
  rw [Acl.effective, hnamed, AList.lookup_eq_none.mpr (hnone save hsave)]
  rfl

/-- A save of write access for a user to a share. -/
def userSave (uid : ℤ) : AclSave :=
  ⟨true, [⟨.user, uid, .rw⟩], false⟩

/-- The directory of a new share. -/
def shareDirectory : FileAcl :=
  ⟨true, Acl.minimal Perm.all Perm.none Perm.none, none, FileAcl.default_isDir_none true⟩

/-- The steps of saves whose commands all succeed, in the given order. -/
def saveOrder (order : List ℕ) : List (Pool.Label AclChoice PEmpty) :=
  order.map fun i => .task i .performs

/-- Of two saves one after the other, one is left. -/
theorem replaceAll_of_resetsApart_users :
  ∃ p, (Pool.machine (aclEffects "/volume1/media")).run
      (AclSave.pool "/volume1/media" [userSave 1001, userSave 1002] shareDirectory)
      (saveOrder [0, 0, 1, 1]) = some p
    ∧ ∃ save ∈ [userSave 1001, userSave 1002], Carries save.entries p.world.file
  := by
  have hdone : ((Pool.machine (aclEffects "/volume1/media")).run
      (AclSave.pool "/volume1/media" [userSave 1001, userSave 1002] shareDirectory)
      (saveOrder [0, 0, 1, 1])).map (fun p => p.tasks.map Coroutine.result)
      = some [some (.ok ()), some (.ok ())] := rfl
  obtain ⟨p, hrun, hp⟩ := Option.map_eq_some_iff.mp hdone
  use p, hrun
  apply (replaceAll_of_resetsApart (by simp) (by decide) hrun hp).1

/-- Two saves whose resets both come first leave the entries of both. -/
theorem replaceAll_mixed :
  ¬ ∀ (path : String) (saves : List AclSave) (file : FileAcl)
      (l : List (Pool.Label AclChoice PEmpty))
      (p : Pool AclOp AclOp.Answer AclWorld (Except Exc Unit)), saves ≠ [] →
      (Pool.machine (aclEffects path)).run (AclSave.pool path saves file) l = some p →
      p.tasks.map Coroutine.result = saves.map (fun _ => some (.ok ())) →
      ∃ save ∈ saves, Carries save.entries p.world.file
  := by
  intro hall
  have hdone : ((Pool.machine (aclEffects "/volume1/media")).run
      (AclSave.pool "/volume1/media" [userSave 1001, userSave 1002] shareDirectory)
      (saveOrder [0, 1, 0, 1])).map (fun p => (p.tasks.map Coroutine.result,
        [1001, 1002].map fun uid => p.world.file.access.named.lookup (.user uid)))
      = some ([some (.ok ()), some (.ok ())], [some Perm.all, some Perm.all]) := rfl
  obtain ⟨p, hrun, hp⟩ := Option.map_eq_some_iff.mp hdone
  obtain ⟨hresults, hboth⟩ := Prod.mk.inj hp
  obtain ⟨save, hsave, hnamed, -⟩ := hall _ _ _ _ p (by simp) hrun hresults
  rw [hnamed] at hboth
  simp only [List.mem_cons, List.not_mem_nil, or_false] at hsave
  rcases hsave with rfl | rfl
  · revert hboth
    decide
  · revert hboth
    decide
