import NasOs.Shares.Raised

/-!
# The configuration renders the tables

Whatever went wrong before, a request about a share that succeeds leaves the configuration that the tables
stand for.  From then on the two agree, after any requests, jobs and registrations, as long as no
configuration is refused or cannot be written.  A request whose configuration is refused leaves the tables
ahead of the configuration, until the next request about a share succeeds.
-/

/-- An operation that changes neither the tables of shares nor the configuration. -/
def SharesOp.LeavesConfig : SharesOp → Prop
  | .addShare _ _ _ _ => False
  | .deleteShare _ => False
  | .replacePermissions _ _ => False
  | .config _ => False
  | _ => True

/-- The request is about a share. -/
def SharesRequest.OnShare : SharesRequest → Prop
  | .createShare _ _ => True
  | .deleteShare _ _ _ => True
  | .setPermissions _ _ _ => True
  | _ => False

namespace SharesWorld

variable {w w' w'' : SharesWorld}

/-- The configuration is the one that the tables stand for. -/
def Rendered (w : SharesWorld) : Prop :=
  w.conf = some w.rendered

/-- Two worlds have the same configuration, and the same tables of shares. -/
structure SameConfig (w w' : SharesWorld) : Prop where
  shares : w'.shares = w.shares
  permissions : w'.permissions = w.permissions
  conf : w'.conf = w.conf

theorem SameConfig.refl (w : SharesWorld) :
  w.SameConfig w
  := ⟨rfl, rfl, rfl⟩

theorem SameConfig.trans (h : w.SameConfig w') (h' : w'.SameConfig w'') :
  w.SameConfig w''
  := ⟨h'.shares.trans h.shares, h'.permissions.trans h.permissions, h'.conf.trans h.conf⟩

/-- What is rendered depends on the tables of shares only. -/
theorem Rendered.congr (hw : w.Rendered) (h : w.SameConfig w') :
  w'.Rendered
  := by
  rw [Rendered, h.conf, hw, rendered, rendered, h.shares]
  simp only [permissionsOf, h.permissions]

/-- The configuration that is written is rendered from the tables. -/
theorem rendered_withConf (w : SharesWorld) :
  Rendered { w with conf := some w.rendered }
  := rfl

/-! ### What a request ends in -/

/-- Such an operation leaves the same configuration. -/
theorem SameConfig.changed {op : SharesOp} (hop : SharesOp.LeavesConfig op) (h : w.Changed op w') :
  w.SameConfig w'
  := by
  cases h with
  | addShare => cases hop
  | deleteShare => cases hop
  | replacePermissions => cases hop
  | config => cases hop
  | _ => exact ⟨rfl, rfl, rfl⟩

section

variable {D : SharesWorld × List SharesChoice → SharesOp → Prop}

/-- What awaits only such operations leaves the same configuration. -/
theorem ensures_sameConfig {α : Type} {c : SharesM α} (hc : c.run.Awaits SharesOp.LeavesConfig)
    {s : SharesWorld × List SharesChoice} :
  c.run.Ensures serve D (fun _ t => s.1.SameConfig t.1) s
  := hc.ensures (I := fun t : SharesWorld × List SharesChoice => s.1.SameConfig t.1)
    (fun t op hop h => h.trans (.changed hop (changed_serve t op))) (.refl s.1)

/-- What a request about a share ends in: when it succeeds, the configuration renders the tables, and unless
a step on the configuration can fail, it does so or is as it was. -/
def Answers {α : Type} (D : SharesWorld × List SharesChoice → SharesOp → Prop) (w : SharesWorld)
    (r : Except Exc α) (s : SharesWorld × List SharesChoice) : Prop :=
  ((∃ a, r = .ok a) → s.1.Rendered) ∧ (¬ Refuses D → w.SameConfig s.1 ∨ s.1.Rendered)

/-- What a request that raises ends in. -/
theorem Answers.of_error {α : Type} {s : SharesWorld × List SharesChoice}
    (h : ¬ Refuses D → w.SameConfig s.1 ∨ s.1.Rendered) (e : Exc) :
  Answers D w (.error e : Except Exc α) s
  := by
  refine ⟨?_, h⟩
  rintro ⟨_, ⟨⟩⟩

/-- A request that raises before it has changed the tables. -/
theorem Answers.raised {α : Type} {s : SharesWorld × List SharesChoice} (h : w.SameConfig s.1) (e : Exc) :
  Answers D w (.error e : Except Exc α) s
  := Answers.of_error (fun _ => .inl h) e

/-- A request whose first part changes neither the tables nor the configuration. -/
theorem ensures_answers_bind {α β : Type} {c : SharesM α} {g : α → SharesM β}
    {s : SharesWorld × List SharesChoice}
    (hc : c.run.Ensures serve D (fun _ t => s.1.SameConfig t.1) s)
    (hg : ∀ a t, (g a).run.Ensures serve D (Answers D t.1) t) :
  (c >>= g).run.Ensures serve D (Answers D s.1) s
  := by
  apply hc.exceptT_bind
  · intro a t ht
    apply (hg a t).mono
    intro r u hu
    refine ⟨hu.1, ?_⟩
    intro hD
    rcases hu.2 hD with hsame | hrendered
    · exact .inl (ht.trans hsame)
    · exact .inr hrendered
  · intro e t ht
    apply Answers.raised ht

/-- A request whose errors are made into other errors. -/
theorem ensures_answers_tryCatch {α : Type} {c : SharesM α} {s : SharesWorld × List SharesChoice}
    (hc : c.run.Ensures serve D (Answers D s.1) s) :
  (tryCatch c answer400).run.Ensures serve D (Answers D s.1) s
  := by
  apply hc.tryCatch
  · intro a t ht
    exact ht
  · rintro (_ | _ | _ | _ | _ | _ | _ | _) t ht
    all_goals apply Answers.of_error ht.2

/-- Saving a change of the tables: a commit, and then the configuration. -/
theorem ensures_answers_save {α β : Type} {c : SharesM α} {g : α → β} (settings : SharesSettings)
    {s : SharesWorld × List SharesChoice} {w₂ : SharesWorld}
    (hc : c.run.Ensures serve D (fun r t => ∃ breaks a,
      (r, t.1) = s.1.commit (s.2.headD smooth) breaks a w₂) s) :
  (c >>= fun a => SharesService.applySambaConfig settings >>= fun _ => pure (g a)).run.Ensures serve D
    (Answers D s.1) s
  := by
  apply (ensures_save settings (ensures_of_commit hc)).mono
  rintro r t (⟨message, rfl, ht⟩ | ⟨-, ht⟩ | ⟨code, detail, -, rfl, -, hrefuses⟩ | ⟨⟨e, -, rfl⟩, -, hrefuses⟩)
  · apply Answers.raised
    rw [ht]
    apply SameConfig.refl
  · have hrendered : t.1.Rendered := by
      rw [ht]
      apply rendered_withConf
    exact ⟨fun _ => hrendered, fun _ => .inr hrendered⟩
  · apply Answers.of_error
    intro hD
    exact absurd hrefuses hD
  · apply Answers.of_error
    intro hD
    exact absurd hrefuses hD

/-! ### The requests -/

/-- A call of the agent that changes neither the tables nor the configuration. -/
theorem ensures_sameConfig_call {P α : Type} {validationError : P → Option String} {fn : P → SharesM α}
    {params : P} {s : SharesWorld × List SharesChoice}
    (hfn : (fn params).run.Awaits SharesOp.LeavesConfig) :
  (tryCatch (AgentClient.call validationError fn params) serviceError).run.Ensures serve D
    (fun _ t => s.1.SameConfig t.1) s
  := by
  apply ensures_sameConfig
  apply Coroutine.awaits_tryCatch
  · apply AgentClient.awaits_call
    intro _
    exact hfn
  · apply awaits_serviceError

/-- `create_share`. -/
theorem answers_createShare (settings : SharesSettings) (name : String) (volumeId : ℤ)
    (description : String) (s : SharesWorld × List SharesChoice) :
  (SharesService.createShare settings name volumeId description).run.Ensures serve D (Answers D s.1) s
  := by
  apply ensures_answers_bind
  · apply ensures_sameConfig
    exact ⟨trivial, fun _ => trivial⟩
  · rintro (_ | volume) t
    · apply Answers.raised (.refl _)
    · apply ensures_answers_bind
      · apply (ensures_agent (ensures_create settings.sandboxed _ t.2)).mono
        rintro r u (⟨-, hu⟩ | ⟨_, _, -, -, hu⟩ | ⟨_, -, hu⟩)
        · rw [← hu]
          exact ⟨rfl, rfl, rfl⟩
        · rcases hu with hu | ⟨made, hu⟩ | hu
          all_goals
            rw [hu]
            exact ⟨rfl, rfl, rfl⟩
        · rw [hu]
          apply SameConfig.refl
      · intro _ u
        apply ensures_answers_save settings
        intro _
        exact ⟨_, _, rfl⟩

/-- `delete_share`. -/
theorem answers_deleteShare (settings : SharesSettings) (share : Share) (deleteFiles : Bool)
    (s : SharesWorld × List SharesChoice) :
  (SharesService.deleteShare settings share deleteFiles).run.Ensures serve D (Answers D s.1) s
  := by
  apply ensures_answers_bind
  · apply ensures_sameConfig_call
    rw [SharesHandlers.delete]
    split
    · exact ⟨trivial, fun _ => trivial⟩
    · trivial
  · intro _ t
    apply ensures_answers_save settings
    intro _
    exact ⟨_, _, rfl⟩

/-- `set_share_permissions`. -/
theorem answers_setSharePermissions (settings : SharesSettings) (share : Share)
    (permissions : List SharesService.Permission) (recursive : Bool)
    (s : SharesWorld × List SharesChoice) :
  (SharesService.setSharePermissions settings share permissions recursive).run.Ensures serve D
    (Answers D s.1) s
  := by
  apply ensures_answers_bind
  · apply (ensures_resolve permissions s.2).mono
    rintro r t ⟨ht, -⟩
    rw [ht]
    apply SameConfig.refl
  · intro entries t
    apply ensures_answers_bind
    · apply ensures_sameConfig_call
      rw [SharesHandlers.submitPermissions]
      split
      · exact ⟨trivial, fun _ => trivial⟩
      · apply Coroutine.awaits_exceptT_bind
        · apply awaits_ofAcl (Coroutine.awaits_of_forall (P := fun _ => True) (fun _ => trivial) _)
          intro op _
          trivial
        · intro _
          trivial
    · intro jobId u
      apply ensures_answers_save settings
      intro _
      exact ⟨_, _, rfl⟩

/-- A request about one share, once it is found. -/
theorem answers_onShare {α : Type} (session : Session) (shareId : ℤ) {f : Share → SharesM α}
    (hf : ∀ share s, (f share).run.Ensures serve D (Answers D s.1) s)
    (s : SharesWorld × List SharesChoice) :
  (do
    SharesM.ofUsers (requireAdmin session)
    let share ← getShareOr404 shareId
    tryCatch (f share) answer400).run.Ensures serve D (Answers D s.1) s
  := by
  apply ensures_answers_bind (ensures_sameConfig (awaits_requireAdmin session))
  intro _ t
  apply ensures_answers_bind
  · apply ensures_sameConfig
    constructor
    · trivial
    · rintro (_ | share)
      all_goals trivial
  · intro share u
    apply ensures_answers_tryCatch (hf share u)

/-- What is known of a request about a share, without what it returns. -/
theorem answers_forget {α : Type} {c : SharesM α} {s : SharesWorld × List SharesChoice}
    (hc : c.run.Ensures serve D (Answers D s.1) s) :
  (do let _ ← c : SharesM Unit).run.Ensures serve D (Answers D s.1) s
  := by
  apply hc.exceptT_bind
  · intro a t ht
    exact ⟨fun _ => ht.1 ⟨a, rfl⟩, ht.2⟩
  · intro e t ht
    apply Answers.of_error ht.2

/-- A request about a share. -/
theorem answers_of_onShare (settings : SharesSettings) {r : SharesRequest} (hr : r.OnShare)
    (s : SharesWorld × List SharesChoice) :
  (r.program settings).run.Ensures serve D (Answers D s.1) s
  := by
  cases r with
  | createShare session body =>
      apply answers_forget
      apply ensures_answers_bind (ensures_sameConfig (awaits_requireAdmin session))
      intro _ t
      apply ensures_answers_tryCatch
      apply (answers_createShare settings body.name body.volumeId body.description t).exceptT_bind
      · intro share u hu
        apply (ensures_sameConfig (c := ExceptT.mk (Coroutine.perform SharesOp.ensureSamba))
          ⟨trivial, fun _ => trivial⟩).exceptT_bind
        · intro _ v hv
          have hrendered := (hu.1 ⟨share, rfl⟩).congr hv
          exact ⟨fun _ => hrendered, fun _ => .inr hrendered⟩
        · intro e v hv
          have hrendered := (hu.1 ⟨share, rfl⟩).congr hv
          apply Answers.of_error fun _ => .inr hrendered
      · intro e u hu
        apply Answers.of_error hu.2
  | deleteShare session shareId deleteFiles =>
      apply answers_onShare session shareId
      intro share t
      apply answers_deleteShare
  | setPermissions session shareId body =>
      apply answers_forget
      apply answers_onShare session shareId
      intro share t
      apply answers_setSharePermissions
  | _ => cases hr

/-- A request about an account or a group leaves the same configuration. -/
theorem sameConfig_of_notOnShare (settings : SharesSettings) {r : SharesRequest} (hr : ¬ r.OnShare)
    (s : SharesWorld × List SharesChoice) :
  (r.program settings).run.Ensures serve D (fun _ t => s.1.SameConfig t.1) s
  := by
  have hforget : ∀ {α : Type} {c : SharesM α}, c.run.Awaits SharesOp.LeavesConfig →
      (do let _ ← c : SharesM Unit).run.Awaits SharesOp.LeavesConfig :=
    fun hc => Coroutine.awaits_exceptT_bind hc fun _ => trivial
  have husers : ∀ {α : Type} (c : UsersM α), (SharesM.ofUsers c).run.Awaits SharesOp.LeavesConfig :=
    fun c => awaits_usersPart (Coroutine.awaits_of_forall (P := fun _ => True) (fun _ => trivial) _)
      fun _ _ => trivial
  apply ensures_sameConfig
  cases r with
  | createUser session ip body => apply hforget (husers _)
  | importUser session username description => apply hforget (husers _)
  | deleteUser session uid deleteHome => apply husers
  | createGroup session name description =>
      apply hforget
      apply awaits_createGroup (fun _ _ => trivial) fun _ => trivial
  | deleteGroup session gid =>
      apply awaits_deleteGroup (fun _ _ => trivial) (fun _ => trivial) fun _ => trivial
  | createShare session body => exact absurd trivial hr
  | deleteShare session shareId deleteFiles => exact absurd trivial hr
  | setPermissions session shareId body => exact absurd trivial hr

end

/-! ### Every run -/

/-- Samba accepts the configuration, and it can be written: no step on it fails. -/
def Accepts (s : SharesWorld × List SharesChoice) (op : SharesOp) : Prop :=
  (∃ step, op = .config step) → (s.2.headD smooth).fails = none

/-- Where every configuration is accepted, none is refused. -/
theorem not_refuses_accepts :
  ¬ Refuses Accepts
  := by
  rintro ⟨s, op, haccepts, hfails⟩
  exact hfails (haccepts ⟨op, rfl⟩)

/-- The configurations of a request are accepted. -/
def AcceptsIn (settings : SharesSettings) (w : SharesWorld) : SharesLabel → Prop
  | .request r choices => (r.program settings).run.ExecutesAlong serve Accepts (w, choices)
  | .event _ => True

variable {settings : SharesSettings}

/-- What happens beside the requests leaves the same configuration. -/
theorem SameConfig.happen {e : SharesEvent} (h : w.happen e = some w') :
  w.SameConfig w'
  := by
  cases e with
  | job i choices =>
      obtain ⟨job, -, rfl⟩ := Option.map_eq_some_iff.mp h
      have hjob : (permissionsJob job).run.Awaits SharesOp.LeavesConfig := by
        apply awaits_ofAcl (Coroutine.awaits_of_forall (P := fun _ => True) (fun _ => trivial) _)
        intro op _
        trivial
      have hleft : SameConfig w { w with jobs := w.jobs.eraseIdx i } := ⟨rfl, rfl, rfl⟩
      apply hleft.trans
      exact (ensures_sameConfig hjob (s := ({ w with jobs := w.jobs.eraseIdx i }, choices))).execute
        (Coroutine.executesAlong_true _ _)
  | register id volume =>
      change (if _ then _ else _) = _ at h
      split at h
      · cases h
        exact ⟨rfl, rfl, rfl⟩
      · cases h

/-- The step lemma: the configuration goes on rendering the tables where it is accepted. -/
theorem Rendered.step (hw : w.Rendered) {label : SharesLabel} (haccepts : AcceptsIn settings w label)
    (hstep : (machine settings).step w label = some w') :
  w'.Rendered
  := by
  cases label with
  | event e => apply hw.congr (.happen hstep)
  | request r choices =>
      cases hstep
      by_cases hr : r.OnShare
      · have hanswers := (answers_of_onShare settings hr (w, choices)).execute haccepts
        rcases hanswers.2 not_refuses_accepts with hsame | hrendered
        · apply hw.congr hsame
        · apply hrendered
      · apply hw.congr
        exact (sameConfig_of_notOnShare settings hr (w, choices)).execute haccepts

/-- The answer of a request that runs alone. -/
def answerTo (settings : SharesSettings) (w : SharesWorld) (r : SharesRequest)
    (choices : List SharesChoice) : Except Exc Unit :=
  ((r.program settings).run.execute serve (w, choices)).1

/-- A request of which no step fails. -/
theorem acceptsIn_smooth (w : SharesWorld) (r : SharesRequest) :
  AcceptsIn settings w (.request r [])
  := by
  have hsmooth : ∀ {α : Type} (c : Coroutine SharesOp SharesOp.Answer α) (w : SharesWorld),
      c.ExecutesAlong serve Accepts (w, []) := by
    intro α c
    induction c with
    | done a => exact fun _ => trivial
    | await op resume ih => exact fun w => ⟨fun _ => rfl, ih _ _⟩
  apply hsmooth

end SharesWorld
