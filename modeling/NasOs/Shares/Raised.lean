import NasOs.Shares.Awaits
import NasOs.Shares.World

/-!
# What an operation on a share leaves behind

An operation on a share goes through the stores one after the other, and nothing takes back what it
has done when a later step fails: only the configuration is put back, by the managed file, when it is
refused and putting it back does not fail.  So what is left depends on the step that failed.  The agent's
part may leave directories above the share, the directory without its mode, a part of the files that are
deleted, or a list that was emptied; a commit that fails leaves the agent's part done; and a configuration
that is refused leaves the tables as well as if nothing had failed.
-/

namespace SharesWorld

/-- The configuration that the tables stand for. -/
def rendered (w : SharesWorld) : List UInt8 :=
  (renderNasosConf (w.shares.map fun share => buildShareView share (w.permissionsOf share.id))).toUTF8.toList

/-- Among the steps along which `D` holds, one on the configuration can fail. -/
def Refuses (D : SharesWorld × List SharesChoice → SharesOp → Prop) : Prop :=
  ∃ s op, D s (.config op) ∧ (s.2.headD smooth).fails ≠ none

/-! ### The configuration -/

/-- The codes of the errors of a configuration that is refused. -/
def RefusalCode (code : String) : Prop :=
  code = "config_invalid" ∨ code = "apply_failed"

instance (code : String) : Decidable (RefusalCode code) :=
  inferInstanceAs (Decidable (_ ∨ _))

section

variable {D : SharesWorld × List SharesChoice → SharesOp → Prop} {w : SharesWorld}

/-- How steps on the configuration are served. -/
def serveConfig (s : SharesWorld × List SharesChoice) (op : ConfigOp) :
    op.Answer × (SharesWorld × List SharesChoice) :=
  serve s (.config op)

/-- A computation on the configuration, run alone in the world `w` but for its configuration. -/
abbrev EnsuresConfig {α : Type} (D : SharesWorld × List SharesChoice → SharesOp → Prop) (c : ConfigM α)
    (Q : Except ConfigError α → SharesWorld × List SharesChoice → Prop)
    (s : SharesWorld × List SharesChoice) : Prop :=
  c.run.Ensures serveConfig (fun s op => D s (.config op)) Q s

/-- What a call that raises leaves: the world as it was, if its error is one of the configuration, and
otherwise that or what was written. -/
def PutBack (D : SharesWorld × List SharesChoice → SharesOp → Prop) (w written : SharesWorld)
    (e : ConfigError) (s : SharesWorld × List SharesChoice) : Prop :=
  ((∃ detail, e = .invalid detail ∨ e = .applyFailed detail) ∧ s.1 = w
    ∨ (∃ message, e = .other message) ∧ (s.1 = w ∨ s.1 = written)) ∧ Refuses D

/-- A step on the configuration fails and leaves it alone, or it is done. -/
theorem ensures_config (op : ConfigOp) (s : SharesWorld × List SharesChoice) :
  EnsuresConfig D op.perform
    (fun r t => (∃ message, r = .error (configError (s.2.headD smooth) message op) ∧ t.1 = s.1 ∧ Refuses D)
      ∨ r = (op.succeed s.1.conf).1 ∧ t.1 = { s.1 with conf := (op.succeed s.1.conf).2 }) s
  := by
  intro hD
  change (∃ message, _ = _ ∧ _ = _ ∧ _) ∨ _ = _ ∧ _ = _
  rw [serveConfig, serve, answer, answerConfig]
  cases hfails : (s.2.headD smooth).fails with
  | none => exact .inr ⟨rfl, rfl⟩
  | some message =>
      refine .inl ⟨message, rfl, rfl, s, op, hD, ?_⟩
      rw [hfails]
      apply Option.some_ne_none

/-- A validation and an application that fail raise their own errors, or something else. -/
theorem configError_cases (choice : SharesChoice) (message : String) :
  configError choice message .validate = .other message ∧ configError choice message .apply = .other message
    ∨ configError choice message .validate = .invalid message
      ∧ configError choice message .apply = .applyFailed message
  := by
  simp only [configError]
  cases choice.unexpected with
  | true => exact .inl ⟨rfl, rfl⟩
  | false => exact .inr ⟨rfl, rfl⟩

/-- Restoring the configuration makes the world what it was, or fails with some other error. -/
theorem ensures_restore {written : SharesWorld} (hw : { written with conf := w.conf } = w)
    (choices : List SharesChoice) :
  EnsuresConfig D (ManagedFile.restore w.conf)
    (fun r s => r = .ok () ∧ s.1 = w
      ∨ ∃ message, r = .error (.other message) ∧ (s.1 = w ∨ s.1 = written) ∧ Refuses D) (written, choices)
  := by
  cases hconf : w.conf with
  | none =>
      apply (ensures_config .unlink (written, choices)).mono
      rintro r t (⟨message, rfl, ht, hrefuses⟩ | ⟨rfl, ht⟩)
      · exact .inr ⟨message, rfl, .inr ht, hrefuses⟩
      · refine .inl ⟨rfl, ht.trans ?_⟩
        rw [← hw, hconf]
        rfl
  | some previous =>
      apply (ensures_config (.putBack previous) (written, choices)).exceptT_bind
      · rintro _ t (⟨message, ⟨⟩, -⟩ | ⟨-, ht⟩)
        have hback : t.1 = w := by
          rw [ht, ← hw, hconf]
          rfl
        apply (ensures_config .restorecon t).mono
        rintro r u (⟨message, rfl, hu, hrefuses⟩ | ⟨rfl, hu⟩)
        · exact .inr ⟨message, rfl, .inl (hu.trans hback), hrefuses⟩
        · exact .inl ⟨rfl, hu.trans hback⟩
      · rintro e t (⟨message, ⟨⟩, ht, hrefuses⟩ | ⟨⟨⟩, -⟩)
        exact .inr ⟨message, rfl, .inr ht, hrefuses⟩

/-- A step of the managed file is done, or it failed and something is left. -/
def DoneOrPutBack (D : SharesWorld × List SharesChoice → SharesOp → Prop) (w written : SharesWorld)
    (r : Except ConfigError Unit) (s : SharesWorld × List SharesChoice) : Prop :=
  (r = .ok () ∧ s.1 = written) ∨ ∃ e, r = .error e ∧ PutBack D w written e s

/-- The validation leaves what was written in place, or what was there before. -/
theorem ensures_validated {written : SharesWorld} (hw : { written with conf := w.conf } = w)
    (choices : List SharesChoice) :
  EnsuresConfig D (ManagedFile.validated w.conf) (DoneOrPutBack D w written) (written, choices)
  := by
  apply (ensures_config .validate (written, choices)).tryCatch
  · rintro _ t (⟨message, ⟨⟩, -⟩ | ⟨-, ht⟩)
    exact .inl ⟨rfl, ht⟩
  · rintro e ⟨w', choices'⟩ (⟨message, ⟨⟩, ht, hrefuses⟩ | ⟨⟨⟩, -⟩)
    change w' = written at ht
    subst w'
    rcases configError_cases (choices.headD smooth) message with ⟨herror, -⟩ | ⟨herror, -⟩
    · rw [herror]
      exact Or.inr ⟨_, rfl, .inr ⟨⟨message, rfl⟩, .inr rfl⟩, hrefuses⟩
    · rw [herror]
      apply (ensures_restore hw choices').exceptT_bind
      · rintro _ u (⟨-, hu⟩ | ⟨_, ⟨⟩, -⟩)
        exact .inr ⟨_, rfl, .inl ⟨⟨message, .inl rfl⟩, hu⟩, hrefuses⟩
      · rintro e u (⟨⟨⟩, -⟩ | ⟨message', ⟨⟩, hu, -⟩)
        exact .inr ⟨_, rfl, .inr ⟨⟨message', rfl⟩, hu⟩, hrefuses⟩

/-- So does the application, which applies again what was there before. -/
theorem ensures_applied {written : SharesWorld} (hw : { written with conf := w.conf } = w)
    (choices : List SharesChoice) :
  EnsuresConfig D (ManagedFile.applied w.conf) (DoneOrPutBack D w written) (written, choices)
  := by
  apply (ensures_config .apply (written, choices)).tryCatch
  · rintro _ t (⟨message, ⟨⟩, -⟩ | ⟨-, ht⟩)
    exact .inl ⟨rfl, ht⟩
  · rintro e ⟨w', choices'⟩ (⟨message, ⟨⟩, ht, hrefuses⟩ | ⟨⟨⟩, -⟩)
    change w' = written at ht
    subst w'
    rcases configError_cases (choices.headD smooth) message with ⟨-, herror⟩ | ⟨-, herror⟩
    · rw [herror]
      exact Or.inr ⟨_, rfl, .inr ⟨⟨message, rfl⟩, .inr rfl⟩, hrefuses⟩
    · rw [herror]
      apply (ensures_restore hw choices').exceptT_bind
      · rintro _ u (⟨-, hu⟩ | ⟨_, ⟨⟩, -⟩)
        apply Coroutine.Ensures.exceptT_bind
          (Q := fun r v => v.1 = w ∧ (r = .ok () ∨ ∃ message, r = .error (.other message)))
        · apply (ensures_config .apply u).tryCatch
          · rintro _ v (⟨_, ⟨⟩, -⟩ | ⟨-, hv⟩)
            exact ⟨hv.trans hu, .inl rfl⟩
          · rintro e v (⟨message', ⟨⟩, hv, -⟩ | ⟨⟨⟩, -⟩)
            rcases configError_cases (u.2.headD smooth) message' with ⟨-, herror⟩ | ⟨-, herror⟩
            · rw [herror]
              exact ⟨hv.trans hu, .inr ⟨_, rfl⟩⟩
            · rw [herror]
              exact ⟨hv.trans hu, .inl rfl⟩
        · rintro _ v ⟨hv, -⟩
          exact .inr ⟨_, rfl, .inl ⟨⟨message, .inr rfl⟩, hv⟩, hrefuses⟩
        · rintro e v ⟨hv, ⟨⟨⟩⟩ | ⟨message', ⟨⟩⟩⟩
          exact .inr ⟨_, rfl, .inr ⟨⟨message', rfl⟩, .inl hv⟩, hrefuses⟩
      · rintro e u (⟨⟨⟩, -⟩ | ⟨message', ⟨⟩, hu, -⟩)
        exact .inr ⟨_, rfl, .inr ⟨⟨message', rfl⟩, hu⟩, hrefuses⟩

/-- A call of the managed file puts its content in place, or raises and leaves that or the world as it
was. -/
theorem ensures_writeAndApply (sha256 : List UInt8 → String) (content : List UInt8)
    (choices : List SharesChoice) :
  EnsuresConfig D (ManagedFile.writeAndApply sha256 ⟨content, true, true⟩)
    (fun r s => (∃ sum, r = .ok sum ∧ s.1 = { w with conf := some content })
      ∨ ∃ e, r = .error e ∧ PutBack D w { w with conf := some content } e s)
    (w, choices)
  := by
  have hw : { { w with conf := some content } with conf := w.conf } = w := rfl
  -- what a step after the writing leaves when it fails
  have hlost : ∀ {message : String} {t : SharesWorld × List SharesChoice},
      t.1 = { w with conf := some content } → Refuses D →
        PutBack D w { w with conf := some content } (.other message) t :=
    fun ht hrefuses => ⟨.inr ⟨⟨_, rfl⟩, .inr ht⟩, hrefuses⟩
  apply (ensures_config (.replace content) (w, choices)).exceptT_bind
  · rintro _ ⟨w', choices⟩ (⟨_, ⟨⟩, -⟩ | ⟨⟨⟩, ht⟩)
    change w' = { w with conf := some content } at ht
    subst w'
    apply (ensures_config .restorecon ({ w with conf := some content }, choices)).exceptT_bind
    · rintro _ ⟨w', choices⟩ (⟨_, ⟨⟩, -⟩ | ⟨-, ht⟩)
      change w' = { w with conf := some content } at ht
      subst w'
      apply Coroutine.Ensures.exceptT_bind
        (Q := fun r s => s.1 = { w with conf := some content }
          ∧ (r = .ok () ∨ (∃ message, r = .error (.other message)) ∧ Refuses D))
      · cases w.conf with
        | none => exact ⟨rfl, .inl rfl⟩
        | some previous =>
            apply (ensures_config (.backup previous) ({ w with conf := some content }, choices)).mono
            rintro r t (⟨message, rfl, ht, hrefuses⟩ | ⟨rfl, ht⟩)
            · exact ⟨ht, .inr ⟨⟨message, rfl⟩, hrefuses⟩⟩
            · exact ⟨ht, .inl rfl⟩
      · rintro _ ⟨w', choices⟩ ⟨ht, -⟩
        change w' = { w with conf := some content } at ht
        subst w'
        apply Coroutine.Ensures.exceptT_bind (Q := DoneOrPutBack D w { w with conf := some content })
        · apply (ensures_validated hw choices).exceptT_bind
          · rintro _ ⟨_, choices⟩ (⟨-, rfl⟩ | ⟨e, ⟨⟩, -⟩)
            apply ensures_applied hw choices
          · rintro e s (⟨⟨⟩, -⟩ | hback)
            exact .inr hback
        · rintro _ s (⟨-, hs⟩ | ⟨e, ⟨⟩, -⟩)
          exact .inl ⟨_, rfl, hs⟩
        · rintro e s (⟨⟨⟩, -⟩ | ⟨_, ⟨⟩, hback⟩)
          exact .inr ⟨_, rfl, hback⟩
      · rintro e t ⟨ht, ⟨⟨⟩⟩ | ⟨⟨message, ⟨⟩⟩, hrefuses⟩⟩
        exact .inr ⟨_, rfl, hlost ht hrefuses⟩
    · rintro e t (⟨message, ⟨⟩, ht, hrefuses⟩ | ⟨⟨⟩, -⟩)
      exact .inr ⟨_, rfl, hlost ht hrefuses⟩
  · rintro e t (⟨message, ⟨⟩, ht, hrefuses⟩ | ⟨⟨⟩, -⟩)
    exact .inr ⟨_, rfl, .inr ⟨⟨message, rfl⟩, .inl ht⟩, hrefuses⟩

/-- What a call that puts the configuration in place leaves, by the exceptions of a configuration that is
refused and of something unexpected. -/
def RanConfig {α : Type} (D : SharesWorld × List SharesChoice → SharesOp → Prop) (w : SharesWorld)
    (refused : String → String → Exc) (unexpected : Exc → Prop) (r : Except Exc α)
    (s : SharesWorld × List SharesChoice) : Prop :=
  ((∃ a, r = .ok a) ∧ s.1 = { w with conf := some w.rendered })
    ∨ (∃ code detail, RefusalCode code ∧ r = .error (refused code detail) ∧ s.1 = w ∧ Refuses D)
    ∨ (∃ e, unexpected e ∧ r = .error e) ∧ (s.1 = w ∨ s.1 = { w with conf := some w.rendered }) ∧ Refuses D

/-- The error of the service for a call whose handler raised something unexpected. -/
def internalError : Exc :=
  .serviceError "internal_error" "internal error"

/-- What applying the configuration of the tables leaves: their configuration, or the world as it was when
it was refused; when something unexpected was raised, either of them. -/
def AppliedOrRefused {α : Type} (D : SharesWorld × List SharesChoice → SharesOp → Prop) (w : SharesWorld) :
    Except Exc α → SharesWorld × List SharesChoice → Prop :=
  RanConfig D w .serviceError (· = internalError)

/-- `apply_samba_config` puts the configuration of the tables in place, or raises and leaves that or the
world as it was. -/
theorem ensures_applySambaConfig (settings : SharesSettings) (choices : List SharesChoice) :
  (SharesService.applySambaConfig settings).run.Ensures serve D (AppliedOrRefused D w) (w, choices)
  := by
  have hcontent : renderNasosConf ((w.shares.map fun share => (share, w.permissionsOf share.id)).map
      fun share => buildShareView share.1 share.2)
      = renderNasosConf (w.shares.map fun share => buildShareView share (w.permissionsOf share.id)) :=
    congrArg renderNasosConf List.map_map
  apply Coroutine.Ensures.exceptT_bind
    (Q := fun r s => r = .ok (w.shares.map fun share => (share, w.permissionsOf share.id)) ∧ s.1 = w)
  · intro _
    exact ⟨rfl, rfl⟩
  · rintro _ ⟨w', choices⟩ ⟨⟨⟩, hs⟩
    change w' = w at hs
    subst w'
    simp only [hcontent]
    apply Coroutine.Ensures.tryCatch
      (Q := RanConfig D w .rpcCallError (· = .rpcCallError "internal_error" "internal error"))
    · apply AgentClient.ensures_call
        (E := RanConfig D w .rpcException fun e => ∃ message, e = .other message)
      · intro _
        apply Coroutine.Ensures.exceptT_bind
          (Q := fun r s => ∃ r', r = .ok r'
            ∧ ((∃ sum, r' = .ok sum ∧ s.1 = { w with conf := some w.rendered })
              ∨ ∃ e, r' = .error e ∧ PutBack D w { w with conf := some w.rendered } e s))
        · rw [SharesM.ofConfig, ExceptT.run_lift, map_eq_pure_bind]
          apply Coroutine.Ensures.bind (Q := fun r' s =>
            (∃ sum, r' = .ok sum ∧ s.1 = { w with conf := some w.rendered })
              ∨ ∃ e, r' = .error e ∧ PutBack D w { w with conf := some w.rendered } e s)
          · apply Coroutine.Ensures.interpret (g := serveConfig)
              (E := fun s op => D s (.config op)) _ (ensures_writeAndApply settings.sha256 _ choices)
            intro s op hD
            exact ⟨hD, rfl, rfl⟩
          · intro r' s h
            exact ⟨r', rfl, h⟩
        · rintro _ s ⟨_, ⟨⟩, ⟨sum, rfl, hs⟩ | ⟨e, rfl, hback, hrefuses⟩⟩
          · exact .inl ⟨⟨sum, rfl⟩, hs⟩
          · rcases hback with ⟨⟨detail, rfl | rfl⟩, hs⟩ | ⟨⟨message, rfl⟩, hs⟩
            · exact .inr (.inl ⟨_, detail, .inl rfl, rfl, hs, hrefuses⟩)
            · exact .inr (.inl ⟨_, detail, .inr rfl, rfl, hs, hrefuses⟩)
            · exact .inr (.inr ⟨⟨_, ⟨message, rfl⟩, rfl⟩, hs, hrefuses⟩)
        · rintro e s ⟨_, ⟨⟩, -⟩
      · rintro message ⟨⟩
      · rintro _ s (⟨⟨a, rfl⟩, hs⟩ | ⟨code, detail, hcode, rfl, hs, hrefuses⟩
          | ⟨⟨_, ⟨message, rfl⟩, rfl⟩, hs, hrefuses⟩)
        · exact .inl ⟨⟨a, rfl⟩, hs⟩
        · exact .inr (.inl ⟨code, detail, hcode, rfl, hs, hrefuses⟩)
        · exact .inr (.inr ⟨⟨_, rfl, rfl⟩, hs, hrefuses⟩)
    · rintro a s (⟨-, hs⟩ | ⟨_, _, _, ⟨⟩, -⟩ | ⟨⟨_, -, ⟨⟩⟩, -⟩)
      exact .inl ⟨⟨a, rfl⟩, hs⟩
    · rintro _ s (⟨⟨_, ⟨⟩⟩, -⟩ | ⟨code, detail, hcode, ⟨⟩, hs, hrefuses⟩ | ⟨⟨_, rfl, ⟨⟩⟩, hs, hrefuses⟩)
      · exact .inr (.inl ⟨code, detail, hcode, rfl, hs, hrefuses⟩)
      · exact .inr (.inr ⟨⟨_, rfl, rfl⟩, hs, hrefuses⟩)
  · rintro e s ⟨⟨⟩, -⟩

/-- What saving leaves: `w₁` if the commit fails, and otherwise `w₂`, with its configuration unless that is
refused. -/
def Saved {α : Type} (D : SharesWorld × List SharesChoice → SharesOp → Prop) (w₁ w₂ : SharesWorld)
    (r : Except Exc α) (s : SharesWorld × List SharesChoice) : Prop :=
  (∃ message, r = .error (.other message) ∧ s.1 = w₁) ∨ AppliedOrRefused D w₂ r s

/-- A commit, and then the configuration. -/
theorem ensures_save {α β : Type} {c : SharesM α} {g : α → β} {w₁ w₂ : SharesWorld}
    (settings : SharesSettings) {s : SharesWorld × List SharesChoice}
    (hc : c.run.Ensures serve D (fun r t => (∃ message, r = .error (.other message) ∧ t.1 = w₁)
      ∨ ∃ a, r = .ok a ∧ t.1 = w₂) s) :
  (c >>= fun a => SharesService.applySambaConfig settings >>= fun _ => pure (g a)).run.Ensures serve D
    (Saved D w₁ w₂) s
  := by
  apply hc.exceptT_bind
  · rintro a ⟨w', choices⟩ (⟨_, ⟨⟩, -⟩ | ⟨_, -, ht⟩)
    change w' = w₂ at ht
    subst w'
    apply (ensures_applySambaConfig settings choices).exceptT_bind
    · rintro _ t (⟨-, ht⟩ | ⟨_, _, -, ⟨⟩, -⟩ | ⟨⟨_, -, ⟨⟩⟩, -⟩)
      exact .inr (.inl ⟨⟨_, rfl⟩, ht⟩)
    · rintro _ t (⟨⟨_, ⟨⟩⟩, -⟩ | ⟨code, detail, hcode, ⟨⟩, ht, hrefuses⟩ | ⟨⟨_, rfl, ⟨⟩⟩, ht, hrefuses⟩)
      · exact .inr (.inr (.inl ⟨code, detail, hcode, rfl, ht, hrefuses⟩))
      · exact .inr (.inr (.inr ⟨⟨_, rfl, rfl⟩, ht, hrefuses⟩))
  · rintro _ t (⟨message, ⟨⟩, ht⟩ | ⟨_, ⟨⟩, -⟩)
    exact .inl ⟨message, rfl, ht⟩

/-- A commit fails and changes nothing, or is done. -/
theorem commit_outcome {α : Type} (w : SharesWorld) (choice : SharesChoice) (breaks : Bool) (a : α)
    (w' : SharesWorld) :
  (∃ message, w.commit choice breaks a w' = (.error (.other message), w))
    ∨ w.commit choice breaks a w' = (.ok a, w')
  := by
  rw [commit]
  cases choice.fails with
  | some message => exact .inl ⟨message, rfl⟩
  | none =>
      cases breaks with
      | true => exact .inl ⟨_, rfl⟩
      | false => exact .inr rfl

/-- What is known of a commit is that it fails and changes nothing, or is done. -/
theorem ensures_of_commit {α : Type} {c : SharesM α} {s : SharesWorld × List SharesChoice}
    {w₂ : SharesWorld} (hc : c.run.Ensures serve D (fun r t => ∃ breaks a,
      (r, t.1) = s.1.commit (s.2.headD smooth) breaks a w₂) s) :
  c.run.Ensures serve D (fun r t => (∃ message, r = .error (.other message) ∧ t.1 = s.1)
    ∨ ∃ a, r = .ok a ∧ t.1 = w₂) s
  := by
  apply hc.mono
  rintro r t ⟨breaks, a, h⟩
  rcases commit_outcome s.1 (s.2.headD smooth) breaks a w₂ with ⟨message, hcommit⟩ | hcommit
  · obtain ⟨rfl, ht⟩ := Prod.mk.inj (h.trans hcommit)
    exact .inl ⟨message, rfl, ht⟩
  · obtain ⟨rfl, ht⟩ := Prod.mk.inj (h.trans hcommit)
    exact .inr ⟨a, rfl, ht⟩

end

/-! ### The operations on shares -/

/-- An operation on a share, in the service layer. -/
inductive ShareOperation where
  | create (name : String) (volumeId : ℤ) (description : String)
  | delete (share : Share) (deleteFiles : Bool)
  | setPermissions (share : Share) (permissions : List SharesService.Permission) (recursive : Bool)

/-- What an operation does. -/
def ShareOperation.program (settings : SharesSettings) : ShareOperation → SharesM Unit
  | .create name volumeId description => do
      let _ ← SharesService.createShare settings name volumeId description
  | .delete share deleteFiles => SharesService.deleteShare settings share deleteFiles
  | .setPermissions share permissions recursive => do
      let _ ← SharesService.setSharePermissions settings share permissions recursive

section

variable (w : SharesWorld)

/-- The path of a new share. -/
def newPath (name : String) (volumeId : ℤ) : Option String :=
  (w.volumes.lookup volumeId).map fun volume => volume.mountpoint ++ "/" ++ name

/-- The number of an account. -/
def numberOf (principal : String) : PrincipalKind → Option ℤ
  | .user => (w.users.find? fun u => u.username = principal).map User.uid
  | .group => (w.groups.find? fun g => g.name = principal).map GroupMeta.gid

/-- The entry that a permission stands for. -/
def entryOf (p : SharesService.Permission) : Option AclEntry :=
  (w.numberOf p.principal p.principalType).map fun number => ⟨p.principalType, number, p.level⟩

/-- The world with another list at a path. -/
def withList (path : String) (acl : FileAcl) : SharesWorld :=
  { w with directories := Function.update w.directories (Path.resolve path) (some acl) }

/-- The world with the directory of a new share. -/
def withDirectory (path : String) : SharesWorld :=
  { w with directories := (w.directories.made path).chmod path SharesHandlers.shareMode }

/-- The world without some of what is at a path and below it. -/
def removing (path : String) (removed : Location → Bool) : SharesWorld :=
  { w with directories := w.directories.remove path removed }

/-- The world with one more job. -/
def withJob (path : String) (entries : List AclEntry) : SharesWorld :=
  { w with jobs := w.jobs ++ [(path, entries)] }

/-- What an operation has done before its commit, and after it. -/
inductive Does : ShareOperation → SharesWorld → SharesWorld → Prop where
  | creates (name : String) (volumeId : ℤ) (description path : String)
      (hpath : w.newPath name volumeId = some path) :
      Does (.create name volumeId description) (w.withDirectory path)
        ((w.withDirectory path).withShare ⟨w.nextId, name, volumeId, path, some description, true⟩)
  | deletes (share : Share) : Does (.delete share false) w (w.withoutShare share)
  | removes (share : Share) :
      Does (.delete share true) (w.removing share.path fun _ => true)
        ((w.removing share.path fun _ => true).withoutShare share)
  | replaces (share : Share) (permissions : List SharesService.Permission) (entries : List AclEntry)
      (acl : FileAcl) (hentries : permissions.mapM w.entryOf = some entries)
      (hacl : w.directories (Path.resolve share.path) = some acl) :
      Does (.setPermissions share permissions false)
        (w.withList share.path (replacedFile acl.isDir entries))
        ((w.withList share.path (replacedFile acl.isDir entries)).withPermissions share.id
          (permissions.map (SharesService.Permission.row share.id)))
  | submits (share : Share) (permissions : List SharesService.Permission) (entries : List AclEntry)
      (hentries : permissions.mapM w.entryOf = some entries) :
      Does (.setPermissions share permissions true) (w.withJob share.path entries)
        ((w.withJob share.path entries).withPermissions share.id
          (permissions.map (SharesService.Permission.row share.id)))

/-- What an operation can have done when the agent fails. -/
inductive Begins : ShareOperation → SharesWorld → Prop where
  | nothing (op : ShareOperation) : Begins op w
  | above (name : String) (volumeId : ℤ) (description path : String)
      (hpath : w.newPath name volumeId = some path) (made : ℕ) :
      Begins (.create name volumeId description) { w with directories := w.directories.above path made }
  | makes (name : String) (volumeId : ℤ) (description path : String)
      (hpath : w.newPath name volumeId = some path) :
      Begins (.create name volumeId description) { w with directories := w.directories.made path }
  | removes (share : Share) (removed : Location → Bool) :
      Begins (.delete share true) (w.removing share.path removed)
  | empties (share : Share) (permissions : List SharesService.Permission) (acl : FileAcl)
      (hacl : w.directories (Path.resolve share.path) = some acl) :
      Begins (.setPermissions share permissions false) (w.withList share.path acl.removeAll)

/-- What an operation leaves when it raises, by the exception: the agent failed, the parameters of the call
were not valid, the commit failed, the configuration was refused, or something unexpected was raised on the
way to it or back. -/
inductive Leaves (op : ShareOperation) : Exc → SharesWorld → Prop where
  | agent {w' : SharesWorld} (code message : String) (hcode : ¬ RefusalCode code) (h : w.Begins op w') :
      Leaves op (.serviceError code message) w'
  | params (message : String) : Leaves op (.other message) w
  | commit {w₁ w₂ : SharesWorld} (message : String) (h : w.Does op w₁ w₂) : Leaves op (.other message) w₁
  | config {w₁ w₂ : SharesWorld} (code message : String) (hcode : RefusalCode code)
      (h : w.Does op w₁ w₂) : Leaves op (.serviceError code message) w₂
  | unexpected {w₁ w₂ w' : SharesWorld} (h : w.Does op w₁ w₂)
      (hconf : w' = w₂ ∨ w' = { w₂ with conf := some w₂.rendered }) : Leaves op internalError w'

/-- What an operation leaves. -/
def Results (op : ShareOperation) : Except Exc Unit → SharesWorld → Prop
  | .ok _, w' => ∃ w₁ w₂, w.Does op w₁ w₂ ∧ w' = { w₂ with conf := some w₂.rendered }
  | .error e, w' => w.Leaves op e w'

end

/-! ### What each operation leaves -/

section

variable {D : SharesWorld × List SharesChoice → SharesOp → Prop} {w : SharesWorld}

/-- Asking for what is only read changes nothing. -/
theorem ensures_ask {op : SharesOp} {choices : List SharesChoice}
    (hop : (serve (w, choices) op).2.1 = w) :
  (Async.ask op : SharesM op.Answer).run.Ensures serve D
    (fun r t => r = .ok (serve (w, choices) op).1 ∧ t.1 = w) (w, choices)
  := by
  intro _
  exact ⟨rfl, hop⟩

/-- What the making of a directory leaves when it fails. -/
def MakesPart (w : SharesWorld) (path : String) (w' : SharesWorld) : Prop :=
  w' = w ∨ (∃ made, w' = { w with directories := w.directories.above path made })
    ∨ w' = { w with directories := w.directories.made path }

/-- A handler is done, or raised an error of its own, and left one of some worlds. -/
def DoneOrFailed {α : Type} (done left : SharesWorld → Prop) (r : Except Exc α)
    (s : SharesWorld × List SharesChoice) : Prop :=
  ((∃ a, r = .ok a) ∧ done s.1)
    ∨ ∃ code message, ¬ RefusalCode code ∧ r = .error (.rpcException code message) ∧ left s.1

/-- A step of the file system is done, or it fails, and that is an error of the handler. -/
theorem ensures_system {c : SharesM (Except String Unit)} {done left : SharesWorld → Prop}
    {s : SharesWorld × List SharesChoice}
    (hc : c.run.Ensures serve D (fun r t => (r = .ok (.ok ()) ∧ done t.1)
      ∨ ∃ message, r = .ok (.error message) ∧ left t.1) s) :
  (c >>= orSystemError).run.Ensures serve D (DoneOrFailed done left) s
  := by
  apply hc.exceptT_bind
  · rintro _ t (⟨⟨⟩, ht⟩ | ⟨message, ⟨⟩, ht⟩)
    · exact .inl ⟨⟨(), rfl⟩, ht⟩
    · exact .inr ⟨_, message, (by decide), rfl, ht⟩
  · rintro e t (⟨⟨⟩, -⟩ | ⟨_, ⟨⟩, -⟩)

/-- What follows a part of a handler that is done or failed. -/
theorem ensures_after {α β : Type} {c : SharesM α} {g : α → SharesM β} (done : SharesWorld → Prop)
    {done' left : SharesWorld → Prop} {s : SharesWorld × List SharesChoice}
    (hc : c.run.Ensures serve D (DoneOrFailed done left) s)
    (hg : ∀ a w' choices, done w' → (g a).run.Ensures serve D (DoneOrFailed done' left) (w', choices)) :
  (c >>= g).run.Ensures serve D (DoneOrFailed done' left) s
  := by
  apply hc.exceptT_bind
  · rintro a ⟨w', choices⟩ (⟨-, ht⟩ | ⟨_, _, -, ⟨⟩, -⟩)
    apply hg a w' choices ht
  · rintro _ t (⟨⟨_, ⟨⟩⟩, -⟩ | ⟨code, message, hcode, ⟨⟩, ht⟩)
    exact .inr ⟨code, message, hcode, rfl, ht⟩

/-- `shares.create` makes the directory and sets its mode, or leaves a part of it. -/
theorem ensures_create (sandboxed : Bool) (path : String) (choices : List SharesChoice) :
  (SharesHandlers.create sandboxed path).run.Ensures serve D
    (DoneOrFailed (Eq (w.withDirectory path)) (w.MakesPart path)) (w, choices)
  := by
  have hmade : w.MakesPart path { w with directories := w.directories.made path } := .inr (.inr rfl)
  apply ensures_after (Eq w)
  · intro _
    exact .inl ⟨⟨_, rfl⟩, rfl⟩
  rintro found _ choices rfl
  apply Async.ensures_raiseIf_bind
  · intro _
    exact .inr ⟨_, _, by decide, rfl, .inl rfl⟩
  intro _
  apply ensures_after (Eq w)
  · cases sandboxed with
    | true => exact .inl ⟨⟨none, rfl⟩, rfl⟩
    | false =>
        apply ensures_after (Eq w)
        · intro _
          exact .inl ⟨⟨_, rfl⟩, rfl⟩
        rintro (_ | gid) _ choices rfl
        · exact .inr ⟨_, _, (by decide), rfl, .inl rfl⟩
        · exact .inl ⟨⟨some gid, rfl⟩, rfl⟩
  rintro gid _ choices rfl
  rw [← bind_assoc]
  apply ensures_after (Eq { w with directories := w.directories.made path })
  · apply ensures_system
    intro _
    change _ ∨ _
    rw [serve, answer]
    cases (choices.headD smooth).fails with
    | some message => exact .inr ⟨message, rfl, .inr (.inl ⟨_, rfl⟩)⟩
    | none =>
        dsimp only
        split
        · have habove : w.directories.make [] (Path.steps path).dropLast
              = w.directories.above path (Path.steps path).dropLast.length := by
            rw [Directories.above, List.take_length]
          exact .inr ⟨_, rfl, .inr (.inl ⟨_, congrArg (fun directories => { w with directories }) habove⟩)⟩
        · exact .inl ⟨rfl, rfl⟩
  rintro _ _ choices rfl
  apply ensures_after (Eq { w with directories := w.directories.made path })
  · cases gid with
    | none => exact .inl ⟨⟨_, rfl⟩, rfl⟩
    | some gid =>
        apply ensures_system
        intro _
        change _ ∨ _
        rw [serve, answer]
        cases (choices.headD smooth).fails with
        | none => exact .inl ⟨rfl, rfl⟩
        | some message => exact .inr ⟨message, rfl, hmade⟩
  rintro _ _ choices rfl
  apply ensures_system
  intro _
  change _ ∨ _
  rw [serve, answer]
  cases (choices.headD smooth).fails with
  | none => exact .inl ⟨rfl, rfl⟩
  | some message => exact .inr ⟨message, rfl, hmade⟩

/-- What a call of the agent leaves, seen from the service. -/
def CalledOrFailed {α : Type} (w : SharesWorld) (done left : SharesWorld → Prop) (r : Except Exc α)
    (s : SharesWorld × List SharesChoice) : Prop :=
  ((∃ a, r = .ok a) ∧ done s.1)
    ∨ (∃ code message, ¬ RefusalCode code ∧ r = .error (.serviceError code message) ∧ left s.1)
    ∨ ∃ message, r = .error (.other message) ∧ s.1 = w

/-- A handler is done, or raised an error that its caller does not take for one of the configuration. -/
def DoneOrRaised {α : Type} (done left : SharesWorld → Prop) (r : Except Exc α)
    (s : SharesWorld × List SharesChoice) : Prop :=
  ((∃ a, r = .ok a) ∧ done s.1)
    ∨ ∃ e code message, AgentClient.callError e = .rpcCallError code message ∧ ¬ RefusalCode code
      ∧ r = .error e ∧ left s.1

/-- A call of the agent, with its errors made into errors of the service. -/
theorem ensures_call {P α : Type} {validationError : P → Option String} {fn : P → SharesM α} {params : P}
    {done left : SharesWorld → Prop} {choices : List SharesChoice}
    (hfn : (fn params).run.Ensures serve D (DoneOrRaised done left) (w, choices)) :
  (tryCatch (AgentClient.call validationError fn params) serviceError).run.Ensures serve D
    (CalledOrFailed w done left) (w, choices)
  := by
  apply Coroutine.Ensures.tryCatch (Q := fun r s => ((∃ a, r = .ok a) ∧ done s.1)
    ∨ (∃ code message, ¬ RefusalCode code ∧ r = .error (.rpcCallError code message) ∧ left s.1)
    ∨ ∃ message, r = .error (.other message) ∧ s.1 = w)
  · apply AgentClient.ensures_call (fun _ => hfn)
    · intro message _
      exact .inr (.inr ⟨message, rfl, rfl⟩)
    · rintro _ t (⟨⟨a, rfl⟩, ht⟩ | ⟨e, code, message, herror, hcode, rfl, ht⟩)
      · exact .inl ⟨⟨a, rfl⟩, ht⟩
      · exact .inr (.inl ⟨code, message, hcode, congrArg Except.error herror, ht⟩)
  · rintro a t (⟨-, ht⟩ | ⟨_, _, -, ⟨⟩, -⟩ | ⟨_, ⟨⟩, -⟩)
    exact .inl ⟨⟨a, rfl⟩, ht⟩
  · rintro _ t (⟨⟨_, ⟨⟩⟩, -⟩ | ⟨code, message, hcode, ⟨⟩, ht⟩ | ⟨message, ⟨⟩, ht⟩)
    · exact .inr (.inl ⟨code, message, hcode, rfl, ht⟩)
    · exact .inr (.inr ⟨message, rfl, ht⟩)

/-- A call of the agent whose handler raises errors of its own. -/
theorem ensures_agent {P α : Type} {validationError : P → Option String} {fn : P → SharesM α} {params : P}
    {done left : SharesWorld → Prop} {choices : List SharesChoice}
    (hfn : (fn params).run.Ensures serve D (DoneOrFailed done left) (w, choices)) :
  (tryCatch (AgentClient.call validationError fn params) serviceError).run.Ensures serve D
    (CalledOrFailed w done left) (w, choices)
  := by
  apply ensures_call
  apply hfn.mono
  rintro r t (hdone | ⟨code, message, hcode, hr, ht⟩)
  · exact .inl hdone
  · exact .inr ⟨_, code, message, rfl, hcode, hr, ht⟩

/-- What an operation leaves, whatever it returns. -/
def Ends {α : Type} (w : SharesWorld) (op : ShareOperation) (r : Except Exc α)
    (s : SharesWorld × List SharesChoice) : Prop :=
  w.Results op (r.map fun _ => ()) s.1

/-- What follows a call of the agent, when it ends in what the operation leaves. -/
theorem ensures_ends {α β : Type} {op : ShareOperation} {c : SharesM α} {g : α → SharesM β}
    (done left : SharesWorld → Prop) {s : SharesWorld × List SharesChoice}
    (hc : c.run.Ensures serve D (CalledOrFailed w done left) s)
    (hleft : ∀ w', left w' → w.Begins op w')
    (hg : ∀ a w' choices, done w' → (g a).run.Ensures serve D (w.Ends op) (w', choices)) :
  (c >>= g).run.Ensures serve D (w.Ends op) s
  := by
  apply hc.exceptT_bind
  · rintro a ⟨w', choices⟩ (⟨-, ht⟩ | ⟨_, _, -, ⟨⟩, -⟩ | ⟨_, ⟨⟩, -⟩)
    apply hg a w' choices ht
  · rintro _ t (⟨⟨_, ⟨⟩⟩, -⟩ | ⟨code, message, hcode, ⟨⟩, ht⟩ | ⟨message, ⟨⟩, ht⟩)
    · exact .agent code message hcode (hleft _ ht)
    · rw [Ends, ht]
      exact .params message

/-- What is saved after the agent's part is what the operation leaves. -/
theorem Saved.ends {α : Type} {op : ShareOperation} {w₁ w₂ : SharesWorld} (hdoes : w.Does op w₁ w₂)
    {r : Except Exc α} {s : SharesWorld × List SharesChoice} (h : Saved D w₁ w₂ r s) :
  w.Ends op r s
  := by
  rcases h with ⟨message, rfl, hs⟩ | ⟨⟨a, rfl⟩, hs⟩ | ⟨code, detail, hcode, rfl, hs, -⟩
    | ⟨⟨_, rfl, rfl⟩, hs, -⟩
  · rw [Ends, hs]
    exact .commit message hdoes
  · exact ⟨w₁, w₂, hdoes, hs⟩
  · rw [Ends, hs]
    exact .config code detail hcode hdoes
  · exact .unexpected hdoes hs

/-- The accounts of permissions are looked up in the tables, and nothing is changed. -/
theorem ensures_resolve (permissions : List SharesService.Permission) (choices : List SharesChoice) :
  (SharesService.resolveEntries permissions).run.Ensures serve D
    (fun r t => t.1 = w ∧ ((∃ entries, r = .ok entries ∧ permissions.mapM w.entryOf = some entries)
      ∨ ∃ message, r = .error (.serviceError "not_found" message))) (w, choices)
  := by
  induction permissions generalizing choices with
  | nil => exact ⟨rfl, .inl ⟨[], rfl, rfl⟩⟩
  | cons p permissions ih =>
      have hnumber : (SharesService.resolveNumericId p.principalType p.principal).run.Ensures serve D
          (fun r t => t.1 = w ∧ ((∃ number, r = .ok number
              ∧ w.numberOf p.principal p.principalType = some number)
            ∨ ∃ message, r = .error (.serviceError "not_found" message))) (w, choices) := by
        obtain ⟨_ | _, principal, level⟩ := p
        · apply (ensures_ask rfl).exceptT_bind
          · rintro found t ⟨hfound, ht⟩
            have hfind : (w.users.find? fun u => u.username = principal) = found :=
              (Except.ok.inj hfound).symm
            cases found with
            | none => exact ⟨ht, .inr ⟨_, rfl⟩⟩
            | some user => exact ⟨ht, .inl ⟨user.uid, rfl, congrArg (Option.map User.uid) hfind⟩⟩
          · rintro e t ⟨⟨⟩, -⟩
        · apply (ensures_ask rfl).exceptT_bind
          · rintro found t ⟨hfound, ht⟩
            have hfind : (w.groups.find? fun g => g.name = principal) = found :=
              (Except.ok.inj hfound).symm
            cases found with
            | none => exact ⟨ht, .inr ⟨_, rfl⟩⟩
            | some group => exact ⟨ht, .inl ⟨group.gid, rfl, congrArg (Option.map GroupMeta.gid) hfind⟩⟩
          · rintro e t ⟨⟨⟩, -⟩
      apply hnumber.exceptT_bind
      · rintro number ⟨w', choices⟩ ⟨hs, ⟨_, ⟨⟩, hnumber⟩ | ⟨_, ⟨⟩⟩⟩
        change w' = w at hs
        subst w'
        apply (ih choices).exceptT_bind
        · rintro entries t ⟨ht, ⟨_, ⟨⟩, hentries⟩ | ⟨_, ⟨⟩⟩⟩
          have hentry : w.entryOf p = some ⟨p.principalType, number, p.level⟩ := by
            rw [entryOf, hnumber, Option.map_some]
          refine ⟨ht, .inl ⟨_, rfl, ?_⟩⟩
          rw [List.mapM_cons, hentry, hentries]
          rfl
        · rintro _ t ⟨ht, ⟨_, ⟨⟩, -⟩ | ⟨message, ⟨⟩⟩⟩
          exact ⟨ht, .inr ⟨message, rfl⟩⟩
      · rintro _ t ⟨ht, ⟨_, ⟨⟩, -⟩ | ⟨message, ⟨⟩⟩⟩
        exact ⟨ht, .inr ⟨message, rfl⟩⟩

/-- A command on a path alone changes the list of the path. -/
theorem command_eq_update {directories : Directories} {path out : String} {argv : List String}
    {acl acl' : FileAcl} (hargv : "-R" ∉ argv) (hacl : directories (Path.resolve path) = some acl)
    (hcommand : acl.command path argv = some (out, acl')) :
  directories.command path argv = Function.update directories (Path.resolve path) (some acl')
  := by
  funext location
  rw [Directories.command]
  by_cases hlocation : location = Path.resolve path
  · subst hlocation
    rw [if_pos (.inl rfl), Function.update_self, hacl, Option.map_some, hcommand]
    rfl
  · rw [if_neg (by tauto), Function.update_of_ne hlocation]

/-- How steps on access control lists are served. -/
def serveAcl (s : SharesWorld × List SharesChoice) (op : AclOp) :
    op.Answer × (SharesWorld × List SharesChoice) :=
  serve s (.acl op)

/-- A command on a path is done, or it fails and changes nothing. -/
theorem ensures_setfacl (path : String) {args : List String}
    (hlast : ("setfacl" :: args).getLastD "" = path) (hargs : "-R" ∉ "setfacl" :: args)
    (choices : List SharesChoice) :
  (SetfaclAcl.run args).run.Ensures serveAcl (fun s op => D s (.acl op))
    (fun r t => (r = .ok () ∧ ∃ out acl acl', w.directories (Path.resolve path) = some acl
        ∧ acl.command path ("setfacl" :: args) = some (out, acl') ∧ t.1 = w.withList path acl')
      ∨ (∃ message, r = .error (.adapterError message)) ∧ t.1 = w) (w, choices)
  := by
  apply Coroutine.Ensures.exceptT_bind (Q := fun r t => ∃ result : CommandResult, r = .ok result
    ∧ (result.ok = true ∧ (∃ out acl acl', w.directories (Path.resolve path) = some acl
        ∧ acl.command path ("setfacl" :: args) = some (out, acl') ∧ t.1 = w.withList path acl')
      ∨ result.ok = false ∧ t.1 = w))
  · intro _
    change ∃ result, _
    rw [serveAcl, serve, answer, answerAcl, hlast]
    cases (choices.headD smooth).fails with
    | some message => exact ⟨_, rfl, .inr ⟨rfl, rfl⟩⟩
    | none =>
        dsimp only
        generalize hfound : (w.directories (Path.resolve path)).bind
          (fun acl => acl.command path ("setfacl" :: args)) = found
        cases found with
        | none => exact ⟨_, rfl, .inr ⟨rfl, rfl⟩⟩
        | some done =>
            obtain ⟨acl, hacl, hcommand⟩ := Option.bind_eq_some_iff.mp hfound
            refine ⟨_, rfl, .inl ⟨rfl, done.1, acl, done.2, hacl, hcommand, ?_⟩⟩
            rw [withList, ← command_eq_update hargs hacl hcommand]
  · rintro _ t ⟨result, ⟨⟩, ⟨hok, hdone⟩ | ⟨hfailed, ht⟩⟩
    · rw [Async.raiseIf, if_neg (by simp [hok])]
      exact .inl ⟨rfl, hdone⟩
    · rw [Async.raiseIf, if_pos (by simp [hfailed])]
      exact .inr ⟨⟨_, rfl⟩, ht⟩
  · rintro e t ⟨_, ⟨⟩, -⟩

/-- No command on a path alone has the option of a whole tree among its arguments. -/
theorem not_mem_args {path : String} (hpath : '/' ∈ path.toList) (entries : List AclEntry) :
  "-R" ∉ "setfacl" :: SetfaclAcl.resetArgs path false
    ∧ "-R" ∉ "setfacl" :: SetfaclAcl.applyArgs path entries false
  := by
  have hslash : '/' ∉ "-R".toList := by decide
  have hnocomma : ',' ∉ "-R".toList := by decide
  have hnot : "-R" ≠ path := by
    rintro rfl
    exact hslash hpath
  have hspecs : "-R" ≠ ",".intercalate (SetfaclAcl.specs entries) := by
    intro h
    have hcomma : ',' ∈ (",".intercalate (SetfaclAcl.specs entries)).toList := by
      rw [String.toList_intercalate, SetfaclAcl.specs, List.map_cons]
      cases entries.flatMap AclEntry.specs with
      | nil => decide
      | cons spec specs =>
          rw [List.map_cons, List.intercalate_cons_cons]
          simp
    rw [← h] at hcomma
    exact hnocomma hcomma
  constructor
  · simp [SetfaclAcl.resetArgs, hnot]
  · simp [SetfaclAcl.applyArgs, hnot, hspecs]

/-- The list of a path is the one that entries stand for. -/
def Replaced (w : SharesWorld) (path : String) (entries : List AclEntry) (w' : SharesWorld) : Prop :=
  ∃ acl, w.directories (Path.resolve path) = some acl
    ∧ w' = w.withList path (replacedFile acl.isDir entries)

/-- The list of a path is as it was, or without the entries that not every file has. -/
def Emptied (w : SharesWorld) (path : String) (w' : SharesWorld) : Prop :=
  w' = w ∨ ∃ acl, w.directories (Path.resolve path) = some acl ∧ w' = w.withList path acl.removeAll

/-- `replace_all` on a path alone makes the list that the entries stand for, or fails and leaves the list as
it was, or without the entries that not every file has. -/
theorem ensures_replaceAll {path : String} (hpath : '/' ∈ path.toList) (entries : List AclEntry)
    (choices : List SharesChoice) :
  (SetfaclAcl.replaceAll path entries false).run.Ensures serveAcl (fun s op => D s (.acl op))
    (fun r t => (r = .ok () ∧ w.Replaced path entries t.1)
      ∨ (∃ message, r = .error (.adapterError message)) ∧ w.Emptied path t.1) (w, choices)
  := by
  obtain ⟨hreset, happly⟩ := not_mem_args hpath entries
  apply (ensures_setfacl (w := w) path rfl hreset choices).exceptT_bind
  · rintro _ ⟨w', choices⟩ (⟨-, out, acl, acl', hacl, hcommand, ht⟩ | ⟨⟨_, ⟨⟩⟩, -⟩)
    rw [FileAcl.command_reset] at hcommand
    cases hcommand
    change w' = _ at ht
    have hself : w'.directories (Path.resolve path) = some acl.removeAll := by
      rw [ht]
      apply Function.update_self
    apply (ensures_setfacl (w := w') path rfl happly choices).mono
    rintro r t (⟨hr, out, removed, acl', hremoved, hcommand, ht'⟩ | ⟨herror, ht'⟩)
    · cases hremoved.symm.trans hself
      rw [FileAcl.command_apply path acl.removeAll_bare] at hcommand
      obtain ⟨-, hcommand⟩ := Option.ite_none_right_eq_some.mp hcommand
      cases hcommand
      refine .inl ⟨hr, acl, hacl, ht'.trans ?_⟩
      rw [ht, withList, withList, withList, Function.update_idem]
      rfl
    · exact .inr ⟨herror, .inr ⟨acl, hacl, ht'.trans ht⟩⟩
  · rintro _ t (⟨⟨⟩, -⟩ | ⟨⟨message, ⟨⟩⟩, ht⟩)
    exact .inr ⟨⟨message, rfl⟩, .inl ht⟩

/-- The commit of an operation after the agent's part, and the configuration after it. -/
theorem ensures_commit {α β : Type} {op : ShareOperation} {w₁ w₂ : SharesWorld} (hdoes : w.Does op w₁ w₂)
    (settings : SharesSettings) {c : SharesM α} {g : α → β} {choices : List SharesChoice}
    (hc : c.run.Ensures serve D (fun r t =>
      ∃ breaks a, (r, t.1) = w₁.commit (choices.headD smooth) breaks a w₂) (w₁, choices)) :
  (c >>= fun a => SharesService.applySambaConfig settings >>= fun _ => pure (g a)).run.Ensures serve D
    (w.Ends op) (w₁, choices)
  := by
  apply (ensures_save settings (ensures_of_commit hc)).mono
  intro r t h
  apply h.ends hdoes

/-- `create_share`. -/
theorem ensures_createShare (settings : SharesSettings) (name : String) (volumeId : ℤ)
    (description : String) (choices : List SharesChoice) :
  (SharesService.createShare settings name volumeId description).run.Ensures serve D
    (w.Ends (.create name volumeId description)) (w, choices)
  := by
  apply (ensures_ask rfl).exceptT_bind
  · rintro found ⟨w', choices⟩ ⟨hfound, ht⟩
    change w' = w at ht
    subst w'
    have hlookup : w.volumes.lookup volumeId = found := (Except.ok.inj hfound).symm
    cases found with
    | none => exact .agent "not_found" _ (by decide) (.nothing _)
    | some volume =>
        have hpath : w.newPath name volumeId = some (volume.mountpoint ++ "/" ++ name) := by
          rw [newPath, hlookup, Option.map_some]
        apply ensures_ends _ _ (ensures_agent (ensures_create settings.sandboxed _ choices))
        · rintro _ (rfl | ⟨made, rfl⟩ | rfl)
          · exact .nothing _
          · exact .above name volumeId description _ hpath made
          · exact .makes name volumeId description _ hpath
        · rintro _ _ choices rfl
          apply ensures_commit (.creates name volumeId description _ hpath)
          intro _
          exact ⟨_, _, rfl⟩
  · rintro e t ⟨⟨⟩, -⟩

/-- `delete_share`. -/
theorem ensures_deleteShare (settings : SharesSettings) (share : Share) (deleteFiles : Bool)
    (choices : List SharesChoice) :
  (SharesService.deleteShare settings share deleteFiles).run.Ensures serve D
    (w.Ends (.delete share deleteFiles)) (w, choices)
  := by
  cases deleteFiles with
  | false =>
      apply ensures_ends (Eq w) (Eq w)
      · apply ensures_agent
        exact .inl ⟨⟨(), rfl⟩, rfl⟩
      · rintro _ rfl
        exact .nothing _
      · rintro _ _ choices rfl
        apply ensures_commit (.deletes share)
        intro _
        exact ⟨_, _, rfl⟩
  | true =>
      apply ensures_ends (Eq (w.removing share.path fun _ => true))
        (fun w' => ∃ removed, w' = w.removing share.path removed)
      · apply ensures_call
        intro _
        change DoneOrRaised _ _ _ _
        rw [serve, answer]
        cases (choices.headD smooth).fails with
        | none => exact .inl ⟨⟨(), rfl⟩, rfl⟩
        | some message => exact .inr ⟨_, _, _, rfl, by decide, rfl, _, rfl⟩
      · rintro _ ⟨removed, rfl⟩
        exact .removes share removed
      · rintro _ _ choices rfl
        apply ensures_commit (.removes share)
        intro _
        exact ⟨_, _, rfl⟩

/-- The agent's part of `set_share_permissions`: the directory has the entries, or a job is submitted that
gives them to all below it. -/
theorem ensures_submitPermissions {share : Share} (hshare : '/' ∈ share.path.toList)
    {permissions : List SharesService.Permission} {entries : List AclEntry}
    (hentries : permissions.mapM w.entryOf = some entries) (recursive : Bool) (choices : List SharesChoice) :
  (SharesHandlers.submitPermissions ⟨share.path, entries, recursive⟩).run.Ensures serve D
    (DoneOrFailed
      (fun w₁ => w.Does (.setPermissions share permissions recursive) w₁
        (w₁.withPermissions share.id (permissions.map (SharesService.Permission.row share.id))))
      (w.Begins (.setPermissions share permissions recursive))) (w, choices)
  := by
  cases recursive with
  | true =>
      intro _
      exact .inl ⟨⟨_, rfl⟩, .submits share permissions entries hentries⟩
  | false =>
      apply Coroutine.Ensures.exceptT_bind
        (Q := DoneOrFailed (w.Replaced share.path entries) (w.Emptied share.path))
      · apply Coroutine.Ensures.interpret (g := serveAcl) (E := fun s op => D s (.acl op))
        · intro s op hD
          exact ⟨hD, rfl, rfl⟩
        · apply (ensures_replaceAll hshare entries choices).tryCatch
          · rintro a t (⟨-, ht⟩ | ⟨⟨_, ⟨⟩⟩, -⟩)
            exact .inl ⟨⟨a, rfl⟩, ht⟩
          · rintro _ t (⟨⟨⟩, -⟩ | ⟨⟨message, ⟨⟩⟩, ht⟩)
            exact .inr ⟨_, message, by decide, rfl, ht⟩
      · rintro _ ⟨w', t⟩ (⟨-, acl, hacl, ht⟩ | ⟨_, _, -, ⟨⟩, -⟩)
        change w' = _ at ht
        subst w'
        exact .inl ⟨⟨none, rfl⟩, .replaces share permissions entries acl hentries hacl⟩
      · rintro _ ⟨w', t⟩ (⟨⟨_, ⟨⟩⟩, -⟩ | ⟨code, message, hcode, ⟨⟩, ht⟩)
        refine .inr ⟨code, message, hcode, rfl, ?_⟩
        rcases ht with ht | ⟨acl, hacl, ht⟩
        · change w' = w at ht
          subst w'
          exact .nothing _
        · change w' = _ at ht
          subst w'
          exact .empties share permissions acl hacl

/-- `set_share_permissions`. -/
theorem ensures_setSharePermissions (settings : SharesSettings) {share : Share}
    (hshare : '/' ∈ share.path.toList) (permissions : List SharesService.Permission) (recursive : Bool)
    (choices : List SharesChoice) :
  (SharesService.setSharePermissions settings share permissions recursive).run.Ensures serve D
    (w.Ends (.setPermissions share permissions recursive)) (w, choices)
  := by
  apply (ensures_resolve permissions choices).exceptT_bind
  · rintro entries ⟨w', choices⟩ ⟨ht, ⟨_, ⟨⟩, hentries⟩ | ⟨_, ⟨⟩⟩⟩
    change w' = w at ht
    subst w'
    apply ensures_ends _ _ (ensures_agent (ensures_submitPermissions hshare hentries recursive choices))
    · exact fun _ h => h
    · intro _ w₁ choices hdoes
      apply ensures_commit hdoes
      intro _
      exact ⟨_, _, rfl⟩
  · rintro _ t ⟨ht, ⟨_, ⟨⟩, -⟩ | ⟨message, ⟨⟩⟩⟩
    rw [Ends, ht]
    exact .agent "not_found" message (by decide) (.nothing _)

end

section

variable {w : SharesWorld}

/-- An operation that raises leaves the configuration as it was, unless something unexpected was raised:
then it may be that of the tables. -/
theorem Leaves.conf {op : ShareOperation} {e : Exc} {w' : SharesWorld} (h : w.Leaves op e w') :
  w'.conf = w.conf ∨ e = internalError ∧ w'.conf = some w'.rendered
  := by
  have hdoes : ∀ {w₁ w₂ : SharesWorld}, w.Does op w₁ w₂ → w₁.conf = w.conf ∧ w₂.conf = w.conf := by
    intro w₁ w₂ hdoes
    cases hdoes
    all_goals exact ⟨rfl, rfl⟩
  cases h with
  | agent code message hcode hbegins =>
      left
      cases hbegins
      all_goals rfl
  | params message =>
      left
      rfl
  | commit message h =>
      left
      apply (hdoes h).1
  | config code message hcode h =>
      left
      apply (hdoes h).2
  | unexpected h hconf =>
      rcases hconf with rfl | rfl
      · left
        apply (hdoes h).2
      · right
        exact ⟨rfl, rfl⟩

/-- An operation, run alone. -/
def operate (settings : SharesSettings) (w : SharesWorld) (choices : List SharesChoice)
    (op : ShareOperation) : Except Exc Unit × SharesWorld :=
  (((op.program settings).run.execute serve (w, choices)).1,
    ((op.program settings).run.execute serve (w, choices)).2.1)

/-- The operation is not about a path without a slash; every path of a share has one. -/
def ShareOperation.HasSlash : ShareOperation → Prop
  | .setPermissions share _ _ => '/' ∈ share.path.toList
  | _ => True

/-- An operation on a share that returns has gone through all stores, and the configuration is that of the
tables.  One that raises leaves what the steps before the one that failed have done, and the configuration
as it was; where something unexpected was raised on the way to the configuration of the tables or back, it
may be that one. -/
theorem results_of_operate (settings : SharesSettings) (w : SharesWorld) {op : ShareOperation}
    (hop : op.HasSlash) (choices : List SharesChoice) :
  w.Results op (operate settings w choices op).1 (operate settings w choices op).2
    ∧ ∀ e, (operate settings w choices op).1 = .error e →
      (operate settings w choices op).2.conf = w.conf
        ∨ e = internalError
          ∧ (operate settings w choices op).2.conf = some (operate settings w choices op).2.rendered
  := by
  have hresults : w.Results op (operate settings w choices op).1 (operate settings w choices op).2 := by
    have hends : ∀ {α : Type} {c : SharesM α},
        c.run.Ensures serve (fun _ _ => True) (w.Ends op) (w, choices) →
        (do let _ ← c : SharesM Unit).run.Ensures serve (fun _ _ => True)
          (fun r t => w.Results op r t.1) (w, choices) := by
      intro α c hc
      apply hc.exceptT_bind
      · intro a t h
        exact h
      · intro e t h
        exact h
    have hensures : (op.program settings).run.Ensures serve (fun _ _ => True)
        (fun r t => w.Results op r t.1) (w, choices) := by
      cases op with
      | create name volumeId description =>
          apply hends (ensures_createShare settings name volumeId description choices)
      | delete share deleteFiles =>
          apply (ensures_deleteShare settings share deleteFiles choices).mono
          rintro (e | _) t h
          all_goals exact h
      | setPermissions share permissions recursive =>
          apply hends (ensures_setSharePermissions settings hop permissions recursive choices)
    apply hensures.execute (Coroutine.executesAlong_true _ _)
  use hresults
  intro e he
  rw [he] at hresults
  apply hresults.conf

end

/-- Two volumes, and a share on the first. -/
def twoVolumes : SharesWorld where
  users := []
  groups := []
  volumes := [(1, ⟨"media", "/volume1", "xfs", false, none, none, none, .null, .null⟩),
    (2, ⟨"backup", "/volume2", "xfs", false, none, none, none, .null, .null⟩)]
  shares := [⟨1, "photos", 1, "/volume1/photos", none, true⟩]
  permissions := []
  directories := fun _ => none
  conf := none
  jobs := []

/-- A share of the same name on the second volume: the commit fails, and the directory stays. -/
theorem results_secondPhotos :
  (∃ e, twoVolumes.Leaves (.create "photos" 2 "") e
      (operate ⟨true, fun _ => ""⟩ twoVolumes [] (.create "photos" 2 "")).2)
    ∧ ((operate ⟨true, fun _ => ""⟩ twoVolumes [] (.create "photos" 2 "")).2.directories
        (Path.resolve "/volume2/photos")).isSome = true
  := by
  have hraises : ∃ e, (operate ⟨true, fun _ => ""⟩ twoVolumes [] (.create "photos" 2 "")).1 = .error e :=
    ⟨_, rfl⟩
  obtain ⟨e, he⟩ := hraises
  have hslash : (ShareOperation.create "photos" 2 "").HasSlash := trivial
  obtain ⟨hresults, -⟩ := results_of_operate ⟨true, fun _ => ""⟩ twoVolumes hslash []
  rw [he] at hresults
  exact ⟨⟨e, hresults⟩, by decide⟩

end SharesWorld
