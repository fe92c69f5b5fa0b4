import Mathlib.Data.Option.Basic

/-!
# Machines and their runs

A machine takes a state and a label to the next state, when the label has a step there.
A run is a list of labels each of which has a step; `M.run s l` is the state it leads to.
`M.Along P s l` says that `P` holds of the state and label of every step the run takes.

An invariant is carried along a run by its step lemma.  The rule `Machine.run_invariant`
allows the step lemma to assume what the run is known to satisfy at each of its steps, so
the same rule serves the invariants of all runs and those of the runs that keep to a
discipline.
-/

universe u v

/-- A machine: the state a label leads to, if the label has a step. -/
structure Machine (σ : Type u) (α : Type v) where
  step : σ → α → Option σ

namespace Machine

variable {σ : Type u} {α : Type v} (M : Machine σ α)

/-- The state the labels `l` lead to from `s`, if each of them has a step. -/
def run (s : σ) : List α → Option σ
  | [] => some s
  | a :: l => (M.step s a).bind fun s' => run s' l

/-- `P` holds at every step of the run of `l` from `s`. -/
def Along (P : σ → α → Prop) (s : σ) : List α → Prop
  | [] => True
  | a :: l => P s a ∧ ∀ s' ∈ M.step s a, Along P s' l

@[simp]
theorem run_nil (s : σ) :
  M.run s [] = some s
  := rfl

@[simp]
theorem run_cons (s : σ) (a : α) (l : List α) :
  M.run s (a :: l) = (M.step s a).bind fun s' => M.run s' l
  := rfl

/-- A run of `a :: l` is a step of `a` followed by a run of `l`. -/
theorem run_cons_eq_some {s t : σ} {a : α} {l : List α} :
  M.run s (a :: l) = some t ↔ ∃ s', M.step s a = some s' ∧ M.run s' l = some t
  := Option.bind_eq_some_iff

/-- A run of `l ++ l'` is a run of `l` followed by a run of `l'`. -/
theorem run_append (s : σ) (l l' : List α) :
  M.run s (l ++ l') = (M.run s l).bind fun s' => M.run s' l'
  := by
  induction l generalizing s with
  | nil => rfl
  | cons a l ih =>
      rw [List.cons_append, run_cons, run_cons, Option.bind_assoc]
      congr 1
      funext s'
      apply ih

@[simp]
theorem along_nil (P : σ → α → Prop) (s : σ) :
  M.Along P s [] ↔ True
  := Iff.rfl

/-- `P` holds along `a :: l` when it holds at the step of `a` and along `l` after it. -/
theorem along_cons {P : σ → α → Prop} {s : σ} {a : α} {l : List α} :
  M.Along P s (a :: l) ↔ P s a ∧ ∀ s', M.step s a = some s' → M.Along P s' l
  := Iff.rfl

/-- Whether a decidable property holds along a run can be computed. -/
instance decidableAlong (P : σ → α → Prop) [∀ s a, Decidable (P s a)] :
    (s : σ) → (l : List α) → Decidable (M.Along P s l)
  | _, [] => isTrue trivial
  | s, a :: l =>
      have := fun s' => decidableAlong P s' l
      inferInstanceAs (Decidable (P s a ∧ ∀ s' ∈ M.step s a, M.Along P s' l))

/-- What every label satisfies at every state is satisfied along every run. -/
theorem along_of_forall {P : σ → α → Prop} (h : ∀ s a, P s a) (s : σ) (l : List α) :
  M.Along P s l
  := by
  induction l generalizing s with
  | nil => trivial
  | cons a l ih => exact ⟨h s a, fun s' _ => ih s'⟩

/-- What the labels of a run satisfy at every state is satisfied along it. -/
theorem along_of_mem {P : σ → α → Prop} {l : List α} (h : ∀ a ∈ l, ∀ s, P s a) (s : σ) :
  M.Along P s l
  := by
  induction l generalizing s with
  | nil => trivial
  | cons a l ih =>
      constructor
      · apply h a List.mem_cons_self
      · intro s' _
        apply ih
        intro b hb
        apply h b (List.mem_cons_of_mem a hb)

/-- Two properties hold along a run when both do. -/
theorem along_and {P Q : σ → α → Prop} {s : σ} {l : List α} (hP : M.Along P s l)
    (hQ : M.Along Q s l) :
  M.Along (fun s a => P s a ∧ Q s a) s l
  := by
  induction l generalizing s with
  | nil => trivial
  | cons a l ih =>
      constructor
      · exact ⟨hP.1, hQ.1⟩
      · intro s' hstep
        apply ih (hP.2 s' hstep) (hQ.2 s' hstep)

/-- A property holds along a run when it holds after each of its beginnings. -/
theorem along_iff {P : σ → α → Prop} {s : σ} {l : List α} :
  M.Along P s l
    ↔ ∀ before a after, l = before ++ a :: after → ∀ s', M.run s before = some s' → P s' a
  := by
  induction l generalizing s with
  | nil => simp
  | cons b l ih =>
      rw [along_cons]
      constructor
      · rintro ⟨hb, hl⟩ before a after heq s' hrun
        cases before with
        | nil =>
            cases heq
            cases hrun
            apply hb
        | cons c before =>
            rw [List.cons_append, List.cons.injEq] at heq
            obtain ⟨rfl, heq⟩ := heq
            obtain ⟨s₁, hstep, hrun⟩ := M.run_cons_eq_some.mp hrun
            apply ih.mp (hl s₁ hstep) before a after heq s' hrun
      · intro h
        constructor
        · apply h [] b l rfl s rfl
        · intro s₁ hstep
          rw [ih]
          rintro before a after rfl s' hrun
          apply h (b :: before) a after rfl
          apply M.run_cons_eq_some.mpr ⟨s₁, hstep, hrun⟩

/-- A property holds along `l ++ l'` when it holds along `l` and then along `l'`. -/
theorem along_append {P : σ → α → Prop} {s : σ} {l l' : List α} :
  M.Along P s (l ++ l') ↔ M.Along P s l ∧ ∀ s', M.run s l = some s' → M.Along P s' l'
  := by
  induction l generalizing s with
  | nil => simp
  | cons a l ih =>
      rw [List.cons_append, along_cons, along_cons, and_assoc]
      apply and_congr_right
      intro _
      simp only [ih, run_cons_eq_some]
      constructor
      · intro h
        constructor
        · intro s₁ hstep
          apply (h s₁ hstep).1
        · rintro s' ⟨s₁, hstep, hrun⟩
          apply (h s₁ hstep).2 s' hrun
      · rintro ⟨hl, hl'⟩ s₁ hstep
        refine ⟨hl s₁ hstep, ?_⟩
        intro s' hrun
        apply hl' s' ⟨s₁, hstep, hrun⟩

/-- The machine that takes only the steps which a condition lets through. -/
def guard (g : σ → α → Bool) : Machine σ α :=
  ⟨fun s a => if g s a then M.step s a else none⟩

/-- A run of a guarded machine is a run along which the condition holds. -/
theorem run_guard {g : σ → α → Bool} {s t : σ} {l : List α} :
  (M.guard g).run s l = some t ↔ M.run s l = some t ∧ M.Along (fun s a => g s a = true) s l
  := by
  induction l generalizing s with
  | nil => simp
  | cons a l ih =>
      rw [run_cons_eq_some, run_cons_eq_some, along_cons]
      constructor
      · rintro ⟨s', hstep, hrun⟩
        rw [guard] at hstep
        dsimp only at hstep
        split at hstep
        · rename_i hg
          obtain ⟨hrun, hl⟩ := ih.mp hrun
          refine ⟨⟨s', hstep, hrun⟩, hg, ?_⟩
          intro s₁ hs₁
          rw [hstep] at hs₁
          cases hs₁
          apply hl
        · cases hstep
      · rintro ⟨⟨s', hstep, hrun⟩, hg, hl⟩
        refine ⟨s', ?_, ih.mpr ⟨hrun, hl s' hstep⟩⟩
        rw [guard]
        dsimp only
        rw [if_pos hg, hstep]

/-- What holds along a run of a guarded machine holds along it with the condition. -/
theorem along_of_guard {g : σ → α → Bool} {P : σ → α → Prop} {s t : σ} {l : List α}
    (h : (M.guard g).Along P s l) (hrun : (M.guard g).run s l = some t) :
  M.Along (fun s a => g s a = true ∧ P s a) s l
  := by
  induction l generalizing s with
  | nil => trivial
  | cons a l ih =>
      obtain ⟨s', hguard, hrest⟩ := (run_cons_eq_some _).mp hrun
      have hl := h.2 s' hguard
      rw [guard] at hguard
      dsimp only at hguard
      split at hguard
      · rename_i hg
        refine ⟨⟨hg, h.1⟩, ?_⟩
        intro s₁ hstep
        obtain rfl : s' = s₁ := by
          rw [← Option.some_inj, ← hguard]
          exact hstep
        apply ih hl hrest
      · cases hguard

variable {M}

/-- Properties that agree at every step hold along the same runs. -/
theorem along_congr {P Q : σ → α → Prop} (h : ∀ s a, P s a ↔ Q s a) (s : σ) (l : List α) :
  M.Along P s l ↔ M.Along Q s l
  := by
  induction l generalizing s with
  | nil => rfl
  | cons a l ih =>
      rw [along_cons, along_cons, h s a]
      apply and_congr_right
      intro _
      apply forall_congr'
      intro s'
      rw [ih s']

/-- What an invariant gives at each step holds along every run whose steps keep the invariant. -/
theorem along_of_invariant {P Q : σ → α → Prop} {I : σ → Prop}
    (keeps : ∀ s a s', I s → P s a → M.step s a = some s' → I s')
    (gives : ∀ s a, I s → P s a → Q s a)
    {s : σ} {l : List α} (hs : I s) (hP : M.Along P s l) :
  M.Along Q s l
  := by
  induction l generalizing s with
  | nil => trivial
  | cons a l ih =>
      constructor
      · apply gives s a hs hP.1
      · intro s' hstep
        apply ih _ (hP.2 s' hstep)
        apply keeps s a s' hs hP.1 hstep

/-- If every step of a run that satisfies `P` keeps `I`, and `P` holds along the run, then
`I` at its first state gives `I` at its last. -/
theorem run_invariant {P : σ → α → Prop} {I : σ → Prop}
    (keeps : ∀ s a s', I s → P s a → M.step s a = some s' → I s')
    {s t : σ} {l : List α} (hs : I s) (hP : M.Along P s l) (hrun : M.run s l = some t) :
  I t
  := by
  induction l generalizing s with
  | nil =>
      cases hrun
      apply hs
  | cons a l ih =>
      obtain ⟨s', hstep, hrest⟩ := M.run_cons_eq_some.mp hrun
      apply ih _ (hP.2 s' hstep) hrest
      apply keeps s a s' hs hP.1 hstep

/-- What every step keeps holds at the last state of every run. -/
theorem run_invariant_of_step {I : σ → Prop}
    (keeps : ∀ s a s', I s → M.step s a = some s' → I s')
    {s t : σ} {l : List α} (hs : I s) (hrun : M.run s l = some t) :
  I t
  := by
  apply run_invariant (P := fun _ _ => True) _ hs (M.along_of_forall (fun _ _ => trivial) s l) hrun
  intro s a s' hI _ hstep
  apply keeps s a s' hI hstep

end Machine
