import NasOs.System.Rollback

/-!
# Calls that raise

A call of `write_and_apply` that no other call interrupts either returns the hash of its content, which
is then in the file, or it raises.  The rollback is attached to a `ConfigValidationError` of the
validation and to a `ConfigApplyError` of the application.  Whatever else is raised while the content
stands leaves it standing, be it by the validation, by the application, by `restorecon`, by the backup
or by the restoration.
-/

namespace ManagedFile

/-- What is promised of a call: if it returned, its content is in the file and it returned the hash of
it; if it raised, the file is as it was. -/
def Promised (sha256 : List UInt8 → String) (file : ManagedFile) (original world : Option (List UInt8)) :
    Except ConfigError String → Prop
  | .ok hash => world = some file.content ∧ hash = sha256 file.content
  | .error _ => world = original

end ManagedFile

/-- A call whose write stands raises nothing but what its validation and its application are expected to
raise. -/
def ConfigPool.RaisesExpected (p : ConfigPool) : Pool.Label ConfigChoice Empty → Prop
  | .task i choice => i ∈ standing p.history → ∀ op ∈ p.pendingOf i, op.expects choice = true
  | .environment _ => True

instance ConfigPool.decidableRaisesExpected (p : ConfigPool) :
    (label : Pool.Label ConfigChoice Empty) → Decidable (p.RaisesExpected label)
  | .task i choice =>
      inferInstanceAs (Decidable (i ∈ standing p.history → ∀ op ∈ p.pendingOf i,
        op.expects choice = true))
  | .environment _ => isTrue trivial

/-! ### The file during one call -/

/-- The content of the call is in the file. -/
def ConfigStage.stands : ConfigStage → Bool
  | .written _ => true
  | .failing _ => true
  | .lost => true
  | _ => false

/-- The file holds the content of the call while its write stands, and the original content otherwise;
the call found the original content. -/
structure CallInv (file : ManagedFile) (original : Option (List UInt8)) (stage : ConfigStage)
    (p : ConfigPool) : Prop where
  writes : standing p.history = if stage.stands then [0] else []
  world : p.world = if stage.stands then some file.content else original
  found : ∀ previous, stage.found = some previous → previous = original

section

variable {file : ManagedFile} {original world' : Option (List UInt8)} {stage : ConfigStage}
  {p : ConfigPool}

/-- The point of a call after a step, by what the step makes of the file. -/
theorem CallInv.resumed {op : ConfigOp}
    {resume : op.Answer → Coroutine ConfigOp ConfigOp.Answer (Except ConfigError String)}
    {r : op.Answer} {stage' : ConfigStage}
    (hstanding : standingAfter (standing p.history) (0, ⟨op, r⟩) = if stage'.stands then [0] else [])
    (hworld : world' = if stage'.stands then some file.content else original)
    (hfound : ∀ previous, stage'.found = some previous → previous = original) :
  CallInv file original stage' (p.resumed 0 op resume r world')
  := by
  constructor
  · rw [Pool.resumed, standing_append, hstanding]
  · apply hworld
  · apply hfound

/-- A step that neither writes nor restores leaves the file alone. -/
theorem CallInv.quiet (h : CallInv file original stage p) {op : ConfigOp}
    {resume : op.Answer → Coroutine ConfigOp ConfigOp.Answer (Except ConfigError String)}
    {r : op.Answer} {stage' : ConfigStage}
    (hstanding : standingAfter (standing p.history) (0, ⟨op, r⟩) = standing p.history)
    (hstands : stage'.stands = stage.stands)
    (hfound : ∀ previous, stage'.found = some previous → stage.found = some previous) :
  CallInv file original stage' (p.resumed 0 op resume r p.world)
  := by
  apply CallInv.resumed
  · rw [hstanding, h.writes, hstands]
  · rw [hstands]
    apply h.world
  · intro previous hprevious
    apply h.found previous (hfound previous hprevious)

/-- Where the exception of a step leads while the content stands. -/
theorem next_written_error {previous : Option (List UInt8)} {op : ConfigOp} {e : ConfigError}
    (hallowed : file.protocol.allowed (.written previous) op) :
  file.protocol.next (.written previous) op (.error e) = op.failed previous e
  := by
  rcases hallowed with rfl | ⟨bytes, rfl⟩ | rfl | rfl
  all_goals rfl

/-- Where the exception of a step leads, the content still stands. -/
theorem ConfigOp.stands_failed (previous : Option (List UInt8)) (op : ConfigOp) (e : ConfigError) :
  (op.failed previous e).stands = true
  := by
  cases op with
  | validate =>
      cases e
      all_goals rfl
  | apply =>
      cases e
      all_goals rfl
  | _ => rfl

/-- Where the exception of a step leads, the call found nothing else. -/
theorem ConfigOp.found_failed {previous previous' : Option (List UInt8)} {op : ConfigOp}
    {e : ConfigError} (h : (op.failed previous e).found = some previous') :
  previous = previous'
  := by
  cases op with
  | validate =>
      cases e with
      | invalid detail =>
          cases h
          rfl
      | _ => cases h
  | apply =>
      cases e with
      | applyFailed detail =>
          cases h
          rfl
      | _ => cases h
  | _ => cases h

/-- Every step of a call keeps track of the file. -/
theorem CallInv.step (h : CallInv file original stage p) {choice : ConfigChoice} {op : ConfigOp}
    {resume : op.Answer → Coroutine ConfigOp ConfigOp.Answer (Except ConfigError String)}
    {r : op.Answer} (hallowed : file.protocol.allowed stage op)
    (hperform : configEffects.perform p.world op choice = some (r, world')) :
  CallInv file original (file.protocol.next stage op r) (p.resumed 0 op resume r world')
  := by
  cases stage with
  | fresh =>
      cases hallowed
      cases choice with
      | succeeds =>
          cases hperform
          apply CallInv.resumed
          · rw [h.writes]
            rfl
          · rfl
          · rintro previous ⟨⟩
            apply h.world
      | fails e =>
          cases hperform
          apply h.quiet
          · rfl
          · rfl
          · rintro previous ⟨⟩
  | written previous =>
      cases choice with
      | succeeds =>
          rcases hallowed with rfl | ⟨bytes, rfl⟩ | rfl | rfl
          all_goals
            cases hperform
            apply h.quiet rfl rfl
            intro previous' hprevious
            apply hprevious
      | fails e =>
          cases hperform
          apply h.quiet
          · rcases hallowed with rfl | ⟨bytes, rfl⟩ | rfl | rfl
            all_goals rfl
          · rw [next_written_error hallowed]
            apply ConfigOp.stands_failed
          · intro previous' hprevious
            rw [next_written_error hallowed] at hprevious
            rw [ConfigOp.found_failed hprevious]
            rfl
  | failing previous =>
      cases hallowed
      obtain rfl := h.found previous rfl
      cases choice with
      | succeeds =>
          cases previous with
          | none =>
              cases hperform
              apply CallInv.resumed
              · rw [h.writes]
                rfl
              · rfl
              · rintro previous ⟨⟩
          | some bytes =>
              cases hperform
              apply CallInv.resumed
              · rw [h.writes]
                rfl
              · rfl
              · rintro previous ⟨⟩
      | fails e =>
          cases previous with
          | none =>
              cases hperform
              apply h.quiet
              · rfl
              · rfl
              · rintro previous ⟨⟩
          | some bytes =>
              cases hperform
              apply h.quiet
              · rfl
              · rfl
              · rintro previous ⟨⟩
  | rolledBack =>
      cases choice with
      | succeeds =>
          rcases hallowed with rfl | rfl
          all_goals
            cases hperform
            apply h.quiet rfl rfl
            rintro previous ⟨⟩
      | fails e =>
          rcases hallowed with rfl | rfl
          all_goals
            cases hperform
            apply h.quiet rfl rfl
            rintro previous ⟨⟩
  | unwritten => cases hallowed
  | lost => cases hallowed

/-- An exception that is not expected is the one after which the content stays. -/
theorem ConfigOp.expects_iff_failed {previous : Option (List UInt8)} {op : ConfigOp} {e : ConfigError} :
  op.expects (.fails e) = true ↔ op.failed previous e ≠ .lost
  := by
  cases e with
  | invalid detail => cases op <;> simp [ConfigOp.expects, ConfigOp.failed]
  | applyFailed detail => cases op <;> simp [ConfigOp.expects, ConfigOp.failed]
  | other message => cases op <;> simp [ConfigOp.expects, ConfigOp.failed]

/-- A step raises only what is expected exactly if the call is not lost after it. -/
theorem CallInv.raisesExpected_iff (h : CallInv file original stage p) {choice : ConfigChoice}
    {op : ConfigOp} {r : op.Answer} (hpending : p.pendingOf 0 = some op)
    (hallowed : file.protocol.allowed stage op)
    (hperform : configEffects.perform p.world op choice = some (r, world')) :
  p.RaisesExpected (.task 0 choice) ↔ file.protocol.next stage op r ≠ .lost
  := by
  have hexpects : p.RaisesExpected (.task 0 choice) ↔ (stage.stands = true → op.expects choice = true)
    := by
    rw [ConfigPool.RaisesExpected, h.writes, hpending]
    cases stage.stands
    all_goals simp
  rw [hexpects]
  cases stage with
  | fresh =>
      cases hallowed
      cases choice with
      | succeeds =>
          cases hperform
          exact ⟨fun _ => nofun, fun _ => nofun⟩
      | fails e =>
          cases hperform
          exact ⟨fun _ => nofun, fun _ => nofun⟩
  | written previous =>
      cases choice with
      | succeeds =>
          rcases hallowed with rfl | ⟨bytes, rfl⟩ | rfl | rfl
          all_goals
            cases hperform
            exact ⟨fun _ => nofun, fun _ _ => rfl⟩
      | fails e =>
          cases hperform
          rw [next_written_error hallowed, ← ConfigOp.expects_iff_failed]
          exact ⟨fun h => h rfl, fun h _ => h⟩
  | failing previous =>
      cases hallowed
      cases choice with
      | succeeds =>
          cases previous
          all_goals
            cases hperform
            exact ⟨fun _ => nofun, fun _ _ => rfl⟩
      | fails e =>
          have hunexpected : (ConfigOp.restores previous).expects (.fails e) = false := by
            cases previous
            all_goals
              cases e
              all_goals rfl
          rw [hunexpected]
          cases previous
          all_goals
            cases hperform
            exact ⟨fun h => absurd (h rfl) Bool.false_ne_true, fun h => absurd rfl h⟩
  | rolledBack =>
      cases choice
      all_goals
        rcases hallowed with rfl | rfl
        all_goals
          cases hperform
          exact ⟨fun _ => nofun, fun _ => nofun⟩
  | unwritten => cases hallowed
  | lost => cases hallowed

/-- What holds of a call that has ended. -/
theorem CallInv.promised_iff (h : CallInv file original stage p) {sha256 : List UInt8 → String}
    {result : Except ConfigError String} (hends : ManagedFile.ends stage result)
    (hhash : ∀ hash, result = .ok hash → hash = sha256 file.content) :
  file.Promised sha256 original p.world result ↔ original = some file.content ∨ stage ≠ .lost
  := by
  have hworld := h.world
  cases stage with
  | fresh => cases hends
  | failing previous => cases hends
  | written previous =>
      obtain ⟨hash, rfl⟩ := hends
      exact ⟨fun _ => Or.inr nofun, fun _ => ⟨hworld, hhash hash rfl⟩⟩
  | rolledBack =>
      obtain ⟨e, rfl⟩ := hends
      exact ⟨fun _ => Or.inr nofun, fun _ => hworld⟩
  | unwritten =>
      obtain ⟨e, rfl⟩ := hends
      exact ⟨fun _ => Or.inr nofun, fun _ => hworld⟩
  | lost =>
      obtain ⟨e, rfl⟩ := hends
      constructor
      · intro hrestored
        left
        rw [← hrestored]
        apply hworld
      · rintro (hsame | hkept)
        · rw [hsame]
          apply hworld
        · apply absurd rfl hkept

end

/-! ### What becomes of the file -/

/-- From any point of a call on, it keeps what is promised exactly if the content is the original one, or
it is not lost and raises only what is expected. -/
theorem promised_iff_of_obeys {sha256 : List UInt8 → String} {file : ManagedFile}
    {original : Option (List UInt8)} {labels : List (Pool.Label ConfigChoice Empty)} {p q : ConfigPool}
    {stage : ConfigStage} {c : Coroutine ConfigOp ConfigOp.Answer (Except ConfigError String)}
    {result : Except ConfigError String} (htasks : p.tasks = [c])
    (hobeys : c.Obeys file.protocol (fun stage result =>
      ManagedFile.ends stage result ∧ ∀ hash, result = .ok hash → hash = sha256 file.content) stage)
    (h : CallInv file original stage p)
    (hrun : (Pool.machine configEffects).run p labels = some q)
    (hresult : q.tasks[0]?.bind Coroutine.result = some result) :
  file.Promised sha256 original q.world result
    ↔ original = some file.content
      ∨ stage ≠ .lost ∧ (Pool.machine configEffects).Along ConfigPool.RaisesExpected p labels
  := by
  induction labels generalizing p stage c with
  | nil =>
      cases hrun
      rw [htasks, List.getElem?_cons_zero, Option.bind_some, Coroutine.result_eq_some] at hresult
      subst hresult
      rw [Machine.along_nil, and_true]
      apply h.promised_iff hobeys.1 hobeys.2
  | cons label labels ih =>
      obtain ⟨p', hstep, hrest⟩ := (Machine.run_cons_eq_some _).mp hrun
      rcases label with ⟨i, choice⟩ | ⟨⟨⟩⟩
      obtain ⟨op, resume, r, world', htask, hperform, rfl⟩ := Pool.step_task.mp hstep
      rw [htasks] at htask
      obtain ⟨rfl, rfl⟩ : i = 0 ∧ c = .await op resume := by
        cases i with
        | zero => exact ⟨rfl, Option.some.inj htask⟩
        | succ i => cases htask
      have hpending : p.pendingOf 0 = some op := by
        rw [Pool.pendingOf, htasks]
        rfl
      have htasks' : (p.resumed 0 op resume r world').tasks = [resume r] := by
        rw [Pool.resumed, htasks]
        rfl
      have hgoes : stage ≠ .lost := by
        rintro rfl
        cases hobeys.1
      rw [ih htasks' (hobeys.2 r) (h.step hobeys.1 hperform) hrest, Machine.along_cons,
        h.raisesExpected_iff hpending hobeys.1 hperform]
      apply or_congr_right
      constructor
      · rintro ⟨hkept, halong⟩
        refine ⟨hgoes, hkept, ?_⟩
        intro p'' hstep'
        rw [hstep] at hstep'
        cases hstep'
        apply halong
      · rintro ⟨-, hkept, halong⟩
        exact ⟨hkept, halong _ hstep⟩

/-- A call keeps what is promised exactly if the content is the one that was there, or no step that is
taken while the content stands raises anything but what is expected of it. -/
theorem promised_iff_raisesExpected (sha256 : List UInt8 → String) (file : ManagedFile)
    (original : Option (List UInt8)) {labels : List (Pool.Label ConfigChoice Empty)} {p : ConfigPool}
    {result : Except ConfigError String}
    (hrun : (Pool.machine configEffects).run (configPool sha256 [file] original) labels = some p)
    (hresult : p.tasks[0]?.bind Coroutine.result = some result) :
  file.Promised sha256 original p.world result
    ↔ original = some file.content
      ∨ (Pool.machine configEffects).Along ConfigPool.RaisesExpected
          (configPool sha256 [file] original) labels
  := by
  have hstart : CallInv file original .fresh (configPool sha256 [file] original) := by
    constructor
    · rfl
    · rfl
    · rintro previous ⟨⟩
  rw [promised_iff_of_obeys rfl (ManagedFile.obeys_writeAndApply_hash sha256 file) hstart hrun hresult]
  apply or_congr_right
  exact ⟨fun h => h.2, fun h => ⟨nofun, h⟩⟩

/-- A file that is validated and applied. -/
def checkedFile : ManagedFile :=
  ⟨[1], true, true⟩

/-- The application fails, and the previous content is restored and applied. -/
def failedApply : List (Pool.Label ConfigChoice Empty) :=
  List.replicate 4 (.task 0 .succeeds) ++ [.task 0 (.fails (.applyFailed "Job for smb.service failed."))]
    ++ List.replicate 3 (.task 0 .succeeds)

theorem promised_failedApply :
  ∃ p result, (Pool.machine configEffects).run (configPool (fun _ => "") [checkedFile] (some [0]))
      failedApply = some p
    ∧ p.tasks[0]?.bind Coroutine.result = some result
    ∧ checkedFile.Promised (fun _ => "") (some [0]) p.world result
  := by
  have hrun : ((Pool.machine configEffects).run (configPool (fun _ => "") [checkedFile] (some [0]))
      failedApply).any (fun p : ConfigPool => (p.tasks[0]?.bind Coroutine.result).isSome) = true := by
    decide +kernel
  have halong : (Pool.machine configEffects).Along ConfigPool.RaisesExpected
      (configPool (fun _ => "") [checkedFile] (some [0])) failedApply := by decide +kernel
  obtain ⟨p, hp, hended⟩ := (Option.any_eq_true _ _).mp hrun
  obtain ⟨result, hresult⟩ := Option.isSome_iff_exists.mp hended
  use p, result, hp, hresult
  apply (promised_iff_raisesExpected (fun _ => "") checkedFile (some [0]) hp hresult).mpr
  right
  apply halong

/-- The validating tool is not there. -/
def missingTool : List (Pool.Label ConfigChoice Empty) :=
  List.replicate 3 (.task 0 .succeeds)
    ++ [.task 0 (.fails (.other "[Errno 2] No such file or directory: 'testparm'"))]

/-- The call raised, and its content is in the file. -/
theorem not_promised_missingTool :
  ¬ ∀ (sha256 : List UInt8 → String) (file : ManagedFile) (original : Option (List UInt8))
      (labels : List (Pool.Label ConfigChoice Empty)) (p : ConfigPool)
      (result : Except ConfigError String),
    (Pool.machine configEffects).run (configPool sha256 [file] original) labels = some p →
    p.tasks[0]?.bind Coroutine.result = some result →
    file.Promised sha256 original p.world result
  := by
  intro h
  have hrun : ((Pool.machine configEffects).run (configPool (fun _ => "") [checkedFile] (some [0]))
      missingTool).any (fun p : ConfigPool => decide (p.world = some [1])
        && (p.tasks[0]?.bind Coroutine.result).any fun result => !result.isOk) = true := by
    decide +kernel
  obtain ⟨p, hp, hended⟩ := (Option.any_eq_true _ _).mp hrun
  rw [Bool.and_eq_true, decide_eq_true_eq] at hended
  obtain ⟨result, hresult, hraised⟩ := (Option.any_eq_true _ _).mp hended.2
  have hpromised := h (fun _ => "") checkedFile (some [0]) missingTool p result hp hresult
  cases result with
  | ok hash => cases hraised
  | error e =>
      rw [ManagedFile.Promised, hended.1] at hpromised
      cases hpromised
