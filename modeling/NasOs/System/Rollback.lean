import NasOs.System.ManagedFile

/-!
# Concurrent calls on one managed file

The agent runs its requests concurrently, so that several calls of `write_and_apply` on one file
interleave.  A call that fails restores what it found before it wrote.  That undoes what others wrote
in the meantime, unless they have been rolled back before it.

A write stands until it is rolled back.  When each rollback is that of the last write that stands, and
no other exception leaves a write standing that failed, the writes that stand form a stack over the
original content, and the file holds its top.
-/

/-- What becomes of a step. -/
inductive ConfigChoice where
  | succeeds
  | fails (error : ConfigError)

/-- What a step that succeeds returns, and makes of the file. -/
def ConfigOp.succeed (world : Option (List UInt8)) : (op : ConfigOp) → op.Answer × Option (List UInt8)
  | .replace content => (.ok world, some content)
  | .restorecon => (.ok (), world)
  | .backup _ => (.ok (), world)
  | .validate => (.ok (), world)
  | .apply => (.ok (), world)
  | .unlink => (.ok (), none)
  | .putBack previous => (.ok (), some previous)

/-- The steps on the file: they succeed, or they raise and leave it alone. -/
def configEffects : Effects ConfigOp ConfigOp.Answer (Option (List UInt8)) ConfigChoice Empty where
  perform world op
    | .succeeds => some (op.succeed world)
    | .fails e => some (.error e, world)
  environment _ e := nomatch e

/-- Concurrent calls. -/
abbrev ConfigPool : Type :=
  Pool ConfigOp ConfigOp.Answer (Option (List UInt8)) (Except ConfigError String)

/-- The calls before they started, with the content of the file. -/
def configPool (sha256 : List UInt8 → String) (files : List ManagedFile)
    (original : Option (List UInt8)) : ConfigPool :=
  Pool.start original (files.map fun file => (file.writeAndApply sha256).run)

/-- An answered step of a call. -/
abbrev ConfigEvent : Type :=
  ℕ × Event ConfigOp ConfigOp.Answer

/-- The calls that wrote, in the order of their writes. -/
def writers (history : List ConfigEvent) : List ℕ :=
  history.filterMap fun
    | (i, ⟨.replace _, .ok _⟩) => some i
    | _ => none

/-- The calls whose writes stand, after one more step. -/
def standingAfter (standing : List ℕ) : ConfigEvent → List ℕ
  | (i, ⟨.replace _, .ok _⟩) => standing ++ [i]
  | (i, ⟨.unlink, .ok _⟩) => standing.erase i
  | (i, ⟨.putBack _, .ok _⟩) => standing.erase i
  | _ => standing

/-- The calls whose writes were not rolled back, in the order of their writes. -/
def standing (history : List ConfigEvent) : List ℕ :=
  history.foldl standingAfter []

/-- A step that restores the file. -/
def ConfigOp.isRestore : ConfigOp → Bool
  | .unlink => true
  | .putBack _ => true
  | _ => false

/-- A step may fail by the exception it is documented to raise. -/
def ConfigOp.expects (op : ConfigOp) : ConfigChoice → Bool
  | .succeeds => true
  | .fails (.invalid _) => op = .validate
  | .fails (.applyFailed _) => op = .apply
  | .fails (.other _) => false

namespace ConfigPool

/-- The call returned. -/
def succeeded (p : ConfigPool) (i : ℕ) : Bool :=
  match p.tasks[i]?.bind Coroutine.result with
  | some (.ok _) => true
  | _ => false

/-- The calls that returned, in the order of their writes. -/
def successes (p : ConfigPool) : List ℕ :=
  (writers p.history).filter p.succeeded

/-- A call whose write stands restores the file only if no later write stands, and it raises nothing
but what its validation and its application are expected to raise. -/
def RollsBackLast (p : ConfigPool) : Pool.Label ConfigChoice Empty → Prop
  | .task i choice =>
      i ∈ standing p.history → ∀ op ∈ p.pendingOf i,
        (op.isRestore = true → (standing p.history).getLast? = some i) ∧ op.expects choice = true
  | .environment _ => True

instance decidableRollsBackLast (p : ConfigPool) :
    (label : Pool.Label ConfigChoice Empty) → Decidable (p.RollsBackLast label)
  | .task i choice =>
      inferInstanceAs (Decidable (i ∈ standing p.history → ∀ op ∈ p.pendingOf i,
        (op.isRestore = true → (standing p.history).getLast? = some i) ∧ op.expects choice = true))
  | .environment _ => isTrue trivial

end ConfigPool

/-! ### The stack of the writes that stand -/

/-- What a call found before it wrote, while its write stands. -/
def ConfigStage.found : ConfigStage → Option (Option (List UInt8))
  | .written previous => some previous
  | .failing previous => some previous
  | _ => none

/-- The call wrote. -/
def ConfigStage.wrote : ConfigStage → Bool
  | .fresh => false
  | .unwritten => false
  | _ => true

/-- The calls `l`, the last first, wrote one after the other: each found what the next wrote, and the
last of `l` found the original content. -/
def Stacked (files : List ManagedFile) (original : Option (List UInt8)) (stages : ℕ → ConfigStage) :
    List ℕ → Option (List UInt8) → Prop
  | [], world => world = original
  | i :: l, world =>
      (∃ file, files[i]? = some file ∧ world = some file.content)
      ∧ ∃ previous, (stages i).found = some previous ∧ Stacked files original stages l previous

/-- Only what the calls found matters. -/
theorem Stacked.congr {files : List ManagedFile} {original world : Option (List UInt8)}
    {stages stages' : ℕ → ConfigStage} {l : List ℕ} (h : Stacked files original stages l world)
    (hfound : ∀ i ∈ l, (stages' i).found = (stages i).found) :
  Stacked files original stages' l world
  := by
  induction l generalizing world with
  | nil => apply h
  | cons i l ih =>
      obtain ⟨hcontent, previous, hprevious, hl⟩ := h
      use hcontent, previous
      constructor
      · rw [hfound i List.mem_cons_self, hprevious]
      · apply ih hl
        intro j hj
        apply hfound j (List.mem_cons_of_mem i hj)

/-- The file holds the content of the last write that stands. -/
theorem Stacked.content {files : List ManagedFile} {original world : Option (List UInt8)}
    {stages : ℕ → ConfigStage} {l : List ℕ} (h : Stacked files original stages l world) :
  world = l.head?.elim original fun i => files[i]?.map ManagedFile.content
  := by
  cases l with
  | nil => apply h
  | cons i l =>
      obtain ⟨⟨file, hfile, rfl⟩, -⟩ := h
      simp [hfile]

/-- The writes that stand are those of the calls that wrote and were not rolled back, and they are
stacked. -/
structure RollbackInv (files : List ManagedFile) (original : Option (List UInt8))
    (stages : ℕ → ConfigStage) (p : ConfigPool) : Prop where
  nodup : (writers p.history).Nodup
  bounded : ∀ i ∈ writers p.history, i < files.length
  wrote : ∀ i, i ∈ writers p.history ↔ (stages i).wrote = true
  kept : ∀ i, stages i ≠ .lost
  order : standing p.history = (writers p.history).filter fun i => (stages i).found.isSome
  stacked : Stacked files original stages (standing p.history).reverse p.world

section

variable {files : List ManagedFile} {original world' : Option (List UInt8)} {stages : ℕ → ConfigStage}
  {p : ConfigPool} {i : ℕ}

theorem writers_append (history : List ConfigEvent) (e : ConfigEvent) :
  writers (history ++ [e]) = writers history ++ writers [e]
  := List.filterMap_append

theorem standing_append (history : List ConfigEvent) (e : ConfigEvent) :
  standing (history ++ [e]) = standingAfter (standing history) e
  := by
  rw [standing, List.foldl_append]
  rfl

/-- A step that neither writes nor rolls back, at a stage that finds the same as before. -/
theorem RollbackInv.quiet (h : RollbackInv files original stages p) {op : ConfigOp}
    {resume : op.Answer → Coroutine ConfigOp ConfigOp.Answer (Except ConfigError String)}
    {r : op.Answer} {stage stage' : ConfigStage} (hstage : stages i = stage)
    (hwriters : writers [(i, ⟨op, r⟩)] = [])
    (hstanding : standingAfter (standing p.history) (i, ⟨op, r⟩) = standing p.history)
    (hwrote : stage'.wrote = stage.wrote) (hfound : stage'.found = stage.found)
    (hkept : stage' ≠ .lost) :
  RollbackInv files original (Function.update stages i stage') (p.resumed i op resume r p.world)
  := by
  subst hstage
  have hsame : ∀ j, (Function.update stages i stage' j).found = (stages j).found := by
    intro j
    by_cases hij : j = i
    · subst hij
      rw [Function.update_self, hfound]
    · rw [Function.update_of_ne hij]
  constructor
  · rw [Pool.resumed, writers_append, hwriters, List.append_nil]
    apply h.nodup
  · rw [Pool.resumed, writers_append, hwriters, List.append_nil]
    apply h.bounded
  · intro j
    rw [Pool.resumed, writers_append, hwriters, List.append_nil, h.wrote j]
    by_cases hij : j = i
    · subst hij
      rw [Function.update_self, hwrote]
    · rw [Function.update_of_ne hij]
  · intro j
    by_cases hij : j = i
    · subst hij
      rw [Function.update_self]
      apply hkept
    · rw [Function.update_of_ne hij]
      apply h.kept
  · rw [Pool.resumed, standing_append, hstanding, writers_append, hwriters, List.append_nil, h.order]
    apply List.filter_congr
    intro j _
    rw [hsame]
  · rw [Pool.resumed, standing_append, hstanding]
    apply h.stacked.congr
    intro j _
    apply hsame

/-- A call writes. -/
theorem RollbackInv.write (h : RollbackInv files original stages p) {file : ManagedFile}
    (hfile : files[i]? = some file) (hfresh : stages i = .fresh)
    {resume : (ConfigOp.replace file.content).Answer →
      Coroutine ConfigOp ConfigOp.Answer (Except ConfigError String)} :
  RollbackInv files original (Function.update stages i (.written p.world))
    (p.resumed i (.replace file.content) resume (.ok p.world) (some file.content))
  := by
  have hnew : i ∉ writers p.history := by
    rw [h.wrote i, hfresh]
    rintro ⟨⟩
  have hother : ∀ j ∈ writers p.history, j ≠ i := by
    rintro j hj rfl
    apply hnew hj
  constructor
  · rw [Pool.resumed, writers_append]
    apply List.nodup_append.mpr
    use h.nodup, List.nodup_cons.mpr ⟨List.not_mem_nil, List.nodup_nil⟩
    intro j hj k hk
    rw [List.mem_singleton.mp hk]
    apply hother j hj
  · rw [Pool.resumed, writers_append]
    intro j hj
    rcases List.mem_append.mp hj with hj | hj
    · apply h.bounded j hj
    · rw [List.mem_singleton.mp hj]
      apply (List.getElem?_eq_some_iff.mp hfile).1
  · intro j
    rw [Pool.resumed, writers_append, List.mem_append, h.wrote j]
    change _ ∨ j ∈ [i] ↔ _
    rw [List.mem_singleton]
    by_cases hij : j = i
    · subst hij
      simp [ConfigStage.wrote]
    · rw [Function.update_of_ne hij]
      simp [hij]
  · intro j
    by_cases hij : j = i
    · subst hij
      rw [Function.update_self]
      rintro ⟨⟩
    · rw [Function.update_of_ne hij]
      apply h.kept
  · rw [Pool.resumed, standing_append, writers_append, List.filter_append]
    change standing p.history ++ [i] = _ ++ List.filter _ [i]
    rw [h.order, List.filter_singleton, Function.update_self]
    congr 1
    apply List.filter_congr
    intro j hj
    rw [Function.update_of_ne (hother j hj)]
  · rw [Pool.resumed, standing_append]
    change Stacked _ _ _ (standing p.history ++ [i]).reverse _
    rw [List.reverse_append]
    use ⟨file, hfile, rfl⟩, p.world
    constructor
    · rw [Function.update_self]
      rfl
    · apply h.stacked.congr
      intro j hj
      rw [List.mem_reverse, h.order] at hj
      rw [Function.update_of_ne (hother j (List.mem_of_mem_filter hj))]

/-- A call rolls back the last write that stands, which is its own. -/
theorem RollbackInv.rollBack (h : RollbackInv files original stages p)
    {previous : Option (List UInt8)} (hfailing : stages i = .failing previous)
    (hlast : (standing p.history).getLast? = some i)
    {resume : (ConfigOp.restores previous).Answer →
      Coroutine ConfigOp ConfigOp.Answer (Except ConfigError String)}
    {r : (ConfigOp.restores previous).Answer} (hwriters : writers [(i, ⟨.restores previous, r⟩)] = [])
    (hstanding : standingAfter (standing p.history) (i, ⟨.restores previous, r⟩)
      = (standing p.history).erase i) :
  RollbackInv files original (Function.update stages i .rolledBack)
    (p.resumed i (.restores previous) resume r previous)
  := by
  have hnodup : (standing p.history).Nodup := by
    rw [h.order]
    apply h.nodup.filter
  have hmem : i ∈ standing p.history := List.mem_of_getLast? hlast
  obtain ⟨l, hl⟩ := List.getLast?_eq_some_iff.mp hlast
  have hnotMem : i ∉ l := by
    rw [hl] at hnodup
    intro hi
    obtain ⟨-, -, hdisjoint⟩ := List.nodup_append.mp hnodup
    apply hdisjoint i hi i List.mem_cons_self rfl
  have herase : (standing p.history).erase i = l := by
    rw [hl, List.erase_append_right _ hnotMem, List.erase_cons_head, List.append_nil]
  constructor
  · rw [Pool.resumed, writers_append, hwriters, List.append_nil]
    apply h.nodup
  · rw [Pool.resumed, writers_append, hwriters, List.append_nil]
    apply h.bounded
  · intro j
    rw [Pool.resumed, writers_append, hwriters, List.append_nil, h.wrote j]
    by_cases hij : j = i
    · subst hij
      rw [Function.update_self, hfailing]
      rfl
    · rw [Function.update_of_ne hij]
  · intro j
    by_cases hij : j = i
    · subst hij
      rw [Function.update_self]
      rintro ⟨⟩
    · rw [Function.update_of_ne hij]
      apply h.kept
  · rw [Pool.resumed, standing_append, hstanding, writers_append, hwriters, List.append_nil,
      hnodup.erase_eq_filter, h.order, List.filter_filter]
    apply List.filter_congr
    intro j _
    by_cases hij : j = i
    · subst hij
      simp [ConfigStage.found]
    · rw [Function.update_of_ne hij]
      simp [hij]
  · have hstacked := h.stacked
    rw [hl, List.reverse_append] at hstacked
    obtain ⟨-, previous', hprevious, hrest⟩ := hstacked
    rw [hfailing] at hprevious
    cases hprevious
    rw [Pool.resumed, standing_append, hstanding, herase]
    apply hrest.congr
    intro j hj
    rw [Function.update_of_ne]
    rintro rfl
    apply hnotMem (List.mem_reverse.mp hj)

/-- What a write stands for: the call found something, and has not restored it. -/
theorem RollbackInv.mem_standing (h : RollbackInv files original stages p)
    {previous : Option (List UInt8)} (hfound : (stages i).found = some previous) :
  i ∈ standing p.history
  := by
  rw [h.order, List.mem_filter]
  constructor
  · rw [h.wrote i]
    cases hstage : stages i with
    | written _ => rfl
    | failing _ => rfl
    | _ =>
        rw [hstage] at hfound
        cases hfound
  · rw [hfound]
    rfl

/-- Only a validation and an application are expected to fail. -/
theorem ConfigOp.of_expects_fails {op : ConfigOp} {e : ConfigError}
    (h : op.expects (.fails e) = true) :
  op = .validate ∨ op = .apply
  := by
  cases e with
  | invalid detail =>
      left
      apply of_decide_eq_true h
  | applyFailed detail =>
      right
      apply of_decide_eq_true h
  | other message => cases h

/-- A validation or an application that fails as expected makes the call roll back. -/
theorem next_written_fails {file : ManagedFile} {previous : Option (List UInt8)} {op : ConfigOp}
    {e : ConfigError} (hexpects : op.expects (.fails e) = true) :
  file.protocol.next (.written previous) op (.error e) = .failing previous
  := by
  cases e with
  | invalid detail =>
      cases of_decide_eq_true hexpects
      rfl
  | applyFailed detail =>
      cases of_decide_eq_true hexpects
      rfl
  | other message => cases hexpects

/-- Every step that rolls back last keeps the writes that stand stacked. -/
theorem RollbackInv.step (h : RollbackInv files original stages p) {file : ManagedFile}
    (hfile : files[i]? = some file) {choice : ConfigChoice} {op : ConfigOp}
    {resume : op.Answer → Coroutine ConfigOp ConfigOp.Answer (Except ConfigError String)}
    {r : op.Answer} (hlast : p.RollsBackLast (.task i choice)) (hpending : p.pendingOf i = some op)
    (hallowed : file.protocol.allowed (stages i) op)
    (hperform : configEffects.perform p.world op choice = some (r, world')) :
  RollbackInv files original (Function.update stages i (file.protocol.next (stages i) op r))
    (p.resumed i op resume r world')
  := by
  cases hstage : stages i with
  | fresh =>
      rw [hstage] at hallowed
      cases hallowed
      cases choice with
      | succeeds =>
          cases hperform
          apply h.write hfile hstage
      | fails e =>
          cases hperform
          apply h.quiet hstage
          · rfl
          · rfl
          · rfl
          · rfl
          · rintro ⟨⟩
  | written previous =>
      have hfound : (stages i).found = some previous := by
        rw [hstage]
        rfl
      obtain ⟨-, hraises⟩ := hlast (h.mem_standing hfound) op hpending
      rw [hstage] at hallowed
      cases choice with
      | succeeds =>
          rcases hallowed with rfl | ⟨bytes, rfl⟩ | rfl | rfl
          all_goals
            cases hperform
            apply h.quiet hstage rfl rfl rfl rfl
            rintro ⟨⟩
      | fails e =>
          cases hperform
          apply h.quiet hstage
          · rcases hallowed with rfl | ⟨bytes, rfl⟩ | rfl | rfl
            all_goals rfl
          · rcases hallowed with rfl | ⟨bytes, rfl⟩ | rfl | rfl
            all_goals rfl
          · rw [next_written_fails hraises]
            rfl
          · rw [next_written_fails hraises]
            rfl
          · rw [next_written_fails hraises]
            rintro ⟨⟩
  | failing previous =>
      have hfound : (stages i).found = some previous := by
        rw [hstage]
        rfl
      obtain ⟨htop, hraises⟩ := hlast (h.mem_standing hfound) op hpending
      rw [hstage] at hallowed
      cases hallowed
      cases choice with
      | succeeds =>
          cases previous with
          | none =>
              cases hperform
              apply h.rollBack hstage (htop rfl) rfl rfl
          | some bytes =>
              cases hperform
              apply h.rollBack hstage (htop rfl) rfl rfl
      | fails e =>
          rcases ConfigOp.of_expects_fails hraises with hop | hop
          all_goals
            cases previous
            all_goals cases hop
  | rolledBack =>
      rw [hstage] at hallowed
      cases choice with
      | succeeds =>
          rcases hallowed with rfl | rfl
          all_goals
            cases hperform
            apply h.quiet hstage rfl rfl rfl rfl
            rintro ⟨⟩
      | fails e =>
          rcases hallowed with rfl | rfl
          all_goals
            cases hperform
            apply h.quiet hstage rfl rfl rfl rfl
            rintro ⟨⟩
  | unwritten =>
      rw [hstage] at hallowed
      cases hallowed
  | lost => apply absurd hstage (h.kept i)

end

/-! ### What the file holds when all calls have ended -/

/-- What a call of the pool may await. -/
theorem obeying_configPool (sha256 : List UInt8 → String) (files : List ManagedFile)
    (original : Option (List UInt8)) :
  (configPool sha256 files original).Obeying (fun i => (files.getD i ⟨[], false, false⟩).protocol)
    (fun _ => ManagedFile.ends) fun _ => .fresh
  := by
  intro i c hc
  obtain ⟨file, hfile, rfl⟩ := Option.map_eq_some_iff.mp (List.getElem?_map ▸ hc)
  simp only [List.getD_eq_getElem?_getD, hfile, Option.getD_some]
  apply ManagedFile.obeys_writeAndApply

/-- No call has written yet. -/
theorem rollbackInv_start (sha256 : List UInt8 → String) (files : List ManagedFile)
    (original : Option (List UInt8)) :
  RollbackInv files original (fun _ => .fresh) (configPool sha256 files original)
  := by
  constructor
  · apply List.nodup_nil
  · rintro i ⟨⟩
  · intro i
    constructor
    · rintro ⟨⟩
    · rintro ⟨⟩
  · rintro i ⟨⟩
  · rfl
  · rfl

/-- In every run of concurrent calls that roll back last, once all calls have ended the file holds the
content of the last call that returned, in the order of the writes, or the original content if none
returned. -/
theorem last_success_stays (sha256 : List UInt8 → String) (files : List ManagedFile)
    (original : Option (List UInt8)) {labels : List (Pool.Label ConfigChoice Empty)} {p : ConfigPool}
    (h : (Pool.machine configEffects).Along ConfigPool.RollsBackLast
      (configPool sha256 files original) labels)
    (hrun : (Pool.machine configEffects).run (configPool sha256 files original) labels = some p)
    (hended : ∀ i < files.length, p.pendingOf i = none) :
  p.world = p.successes.getLast?.elim original fun i => files[i]?.map ManagedFile.content
  := by
  obtain ⟨hlength, stages, hobeying, hinv⟩ := Pool.run_obeys
    (P := fun i => (files.getD i ⟨[], false, false⟩).protocol)
    (I := RollbackInv files original) (obeying_configPool sha256 files original)
    (rollbackInv_start sha256 files original)
    (by
      intro p stages i choice op resume r world' hlength _ hI hD htask hallowed hperform
      have hi : i < files.length := by
        obtain ⟨hi, -⟩ := List.getElem?_eq_some_iff.mp htask
        rw [hlength, List.length_map] at hi
        apply hi
      have hfile : files[i]? = some (files.getD i ⟨[], false, false⟩) := by
        rw [List.getD_eq_getElem?_getD, List.getElem?_eq_getElem hi, Option.getD_some]
      apply hI.step hfile hD _ hallowed hperform
      rw [Pool.pendingOf_eq htask]
      rfl)
    (by
      rintro p stages ⟨⟩) h hrun
  have hsuccesses : p.successes = standing p.history := by
    rw [ConfigPool.successes, hinv.order]
    apply List.filter_congr
    intro i hi
    have hi := hinv.bounded i hi
    rw [← List.length_map (f := fun file => (file.writeAndApply sha256).run), ← hlength] at hi
    have htask := List.getElem?_eq_getElem hi
    have hends := hobeying i _ htask
    have hpending := hended i (hinv.bounded i ‹_›)
    rw [Pool.pendingOf_eq htask] at hpending
    rw [ConfigPool.succeeded, htask]
    cases hresult : p.tasks[i] with
    | await op resume =>
        rw [hresult] at hpending
        cases hpending
    | done result =>
        rw [hresult, Coroutine.obeys_done] at hends
        cases hstage : stages i with
        | written previous =>
            rw [hstage] at hends
            obtain ⟨a, rfl⟩ := hends
            rfl
        | fresh =>
            rw [hstage] at hends
            cases hends
        | failing previous =>
            rw [hstage] at hends
            cases hends
        | _ =>
            rw [hstage] at hends
            obtain ⟨e, rfl⟩ := hends
            rfl
  rw [hsuccesses, ← List.head?_reverse]
  apply hinv.stacked.content

/-- Two calls on a file: the second writes after the first and fails its validation, so that it rolls
back, and the first goes on. -/
def nestedCalls : List (Pool.Label ConfigChoice Empty) :=
  [.task 0 .succeeds, .task 0 .succeeds, .task 0 .succeeds, .task 1 .succeeds, .task 1 .succeeds,
    .task 1 .succeeds, .task 1 (.fails (.invalid "Error loading services.")), .task 1 .succeeds,
    .task 1 .succeeds, .task 0 .succeeds, .task 0 .succeeds]

/-- The contents of two calls. -/
def twoCalls : List ManagedFile :=
  [⟨[1], true, true⟩, ⟨[2], true, true⟩]

theorem last_success_stays_nested :
  ∃ p, (Pool.machine configEffects).run (configPool (fun _ => "") twoCalls (some [0])) nestedCalls
      = some p
    ∧ p.world = some [1]
  := by
  have hrun : ((Pool.machine configEffects).run (configPool (fun _ => "") twoCalls (some [0]))
      nestedCalls).any (fun p : ConfigPool => decide (∀ i ∈ List.range 2, p.pendingOf i = none)
        && decide (p.successes = [0])) = true := by decide +kernel
  have halong : (Pool.machine configEffects).Along ConfigPool.RollsBackLast
      (configPool (fun _ => "") twoCalls (some [0])) nestedCalls := by decide +kernel
  obtain ⟨p, hp, hended⟩ := (Option.any_eq_true _ _).mp hrun
  rw [Bool.and_eq_true, decide_eq_true_eq, decide_eq_true_eq] at hended
  use p, hp
  have hworld := last_success_stays (fun _ => "") twoCalls (some [0]) halong hp
    fun i hi => hended.1 i (List.mem_range.mpr hi)
  rw [hworld, hended.2]
  rfl

/-- The second call writes after the first and returns; then the validation of the first fails. -/
def crossedCalls : List (Pool.Label ConfigChoice Empty) :=
  List.replicate 3 (.task 0 .succeeds) ++ List.replicate 5 (.task 1 .succeeds)
    ++ [.task 0 (.fails (.invalid "Error loading services.")), .task 0 .succeeds, .task 0 .succeeds]

/-- The call that returned was undone by the rollback of the other: the original content is back. -/
theorem success_undone :
  ¬ ∀ (sha256 : List UInt8 → String) (files : List ManagedFile) (original : Option (List UInt8))
      (labels : List (Pool.Label ConfigChoice Empty)) (p : ConfigPool),
    (Pool.machine configEffects).run (configPool sha256 files original) labels = some p →
    (∀ i < files.length, p.pendingOf i = none) →
    p.world = p.successes.getLast?.elim original fun i => files[i]?.map ManagedFile.content
  := by
  intro h
  have hrun : ((Pool.machine configEffects).run (configPool (fun _ => "") twoCalls (some [0]))
      crossedCalls).any (fun p : ConfigPool => decide (∀ i ∈ List.range 2, p.pendingOf i = none)
        && decide (p.successes = [1]) && decide (p.world = some [0])) = true := by decide +kernel
  obtain ⟨p, hp, hended⟩ := (Option.any_eq_true _ _).mp hrun
  rw [Bool.and_eq_true, Bool.and_eq_true, decide_eq_true_eq, decide_eq_true_eq, decide_eq_true_eq]
    at hended
  have hworld := h (fun _ => "") twoCalls (some [0]) crossedCalls p hp
    fun i hi => hended.1.1 i (List.mem_range.mpr hi)
  rw [hended.2, hended.1.2] at hworld
  cases hworld
