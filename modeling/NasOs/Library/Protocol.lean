import Mathlib.Logic.Function.Basic
import NasOs.Library.Pool

/-!
# Protocols of coroutines

A protocol has stages.  It says which operations may be awaited at a stage, and to which
stage the answer to one leads.  A coroutine obeys a protocol from a stage when every operation
it awaits is allowed at the stage it is awaited at, and a relation between stages and results
holds where it is done.

When every task of a pool obeys a protocol, an invariant of a run may speak of the world and the
stages of the tasks only: `Pool.run_obeys` carries it along the run.
-/

universe u v w x

/-- What may be awaited at each stage, and the stage that an answer leads to. -/
structure Protocol (Op : Type u) (Res : Op → Type u) (S : Type x) where
  allowed : S → Op → Prop
  next : S → (op : Op) → Res op → S

/-- The protocol that moreover allows an operation at a stage only where `R` holds of them. -/
def Protocol.restrict {Op : Type u} {Res : Op → Type u} {S : Type x} (P : Protocol Op Res S)
    (R : S → Op → Prop) : Protocol Op Res S where
  allowed s op := P.allowed s op ∧ R s op
  next := P.next

namespace Coroutine

variable {Op : Type u} {Res : Op → Type u} {S : Type x} {α β : Type u}
  {P : Protocol Op Res S}

/-- From the stage `s` on, the coroutine awaits only what the protocol allows, and ends with a
stage and a result that satisfy `Q`. -/
def Obeys (P : Protocol Op Res S) (Q : S → α → Prop) : S → Coroutine Op Res α → Prop
  | s, .done a => Q s a
  | s, .await op resume => P.allowed s op ∧ ∀ r, (resume r).Obeys P Q (P.next s op r)

@[simp]
theorem obeys_done {Q : S → α → Prop} {s : S} {a : α} :
  (done a : Coroutine Op Res α).Obeys P Q s ↔ Q s a
  := Iff.rfl

@[simp]
theorem obeys_await {Q : S → α → Prop} {s : S} {op : Op} {resume : Res op → Coroutine Op Res α} :
  (await op resume).Obeys P Q s
    ↔ P.allowed s op ∧ ∀ r, (resume r).Obeys P Q (P.next s op r)
  := Iff.rfl

/-- What follows obeys the protocol from every stage at which the first part may end. -/
theorem Obeys.bind {Q : S → α → Prop} {Q' : S → β → Prop} {s : S} {c : Coroutine Op Res α}
    {f : α → Coroutine Op Res β} (hc : c.Obeys P Q s)
    (hf : ∀ s' a, Q s' a → (f a).Obeys P Q' s') :
  (c >>= f).Obeys P Q' s
  := by
  induction c generalizing s with
  | done a => apply hf s a hc
  | await op resume ih =>
      use hc.1
      intro r
      apply ih r (hc.2 r)

/-- What holds where a coroutine ends may be weakened. -/
theorem Obeys.mono {Q Q' : S → α → Prop} {s : S} {c : Coroutine Op Res α} (hc : c.Obeys P Q s)
    (h : ∀ s a, Q s a → Q' s a) :
  c.Obeys P Q' s
  := by
  induction c generalizing s with
  | done a => apply h s a hc
  | await op resume ih =>
      use hc.1
      intro r
      apply ih r (hc.2 r)

/-- What obeys a restricted protocol obeys the protocol. -/
theorem Obeys.of_restrict {R : S → Op → Prop} {Q : S → α → Prop} {s : S} {c : Coroutine Op Res α}
    (hc : c.Obeys (P.restrict R) Q s) :
  c.Obeys P Q s
  := by
  induction c generalizing s with
  | done a => apply hc
  | await op resume ih =>
      use hc.1.1
      intro r
      apply ih r (hc.2 r)

/-- A coroutine that awaits only operations which are allowed at a stage and stay at it stays at it. -/
theorem Obeys.of_awaits {A : Op → Prop} {s : S} {c : Coroutine Op Res α} (hc : c.Awaits A)
    (hA : ∀ op, A op → P.allowed s op ∧ ∀ r, P.next s op r = s) :
  c.Obeys P (fun s' _ => s' = s) s
  := by
  induction c with
  | done a => rfl
  | await op resume ih =>
      obtain ⟨hop, hrest⟩ := hc
      use (hA op hop).1
      intro r
      rw [(hA op hop).2 r]
      apply ih r (hrest r)

/-- An interpreted coroutine obeys a protocol when the coroutine obeys another, along which the
interpretation of each operation goes. -/
theorem Obeys.interpret {Op' : Type u} {Res' : Op' → Type u} {P' : Protocol Op' Res' S}
    {h : (op : Op) → Coroutine Op' Res' (Res op)} {Q : S → α → Prop} {s : S} {c : Coroutine Op Res α}
    (hc : c.Obeys P Q s)
    (hh : ∀ s op, P.allowed s op → (h op).Obeys P' (fun s' r => s' = P.next s op r) s) :
  (c.interpret h).Obeys P' Q s
  := by
  induction c generalizing s with
  | done a => apply hc
  | await op resume ih =>
      apply (hh s op hc.1).bind
      rintro s' r rfl
      apply ih r (hc.2 r)

/-- The rule of `Obeys` for a bind that lets exceptions through. -/
theorem Obeys.exceptT_bind {ε : Type u} {Q : S → Except ε α → Prop} {Q' : S → Except ε β → Prop}
    {s : S} {c : ExceptT ε (Coroutine Op Res) α} {f : α → ExceptT ε (Coroutine Op Res) β}
    (hc : c.run.Obeys P Q s) (hok : ∀ s' a, Q s' (.ok a) → (f a).run.Obeys P Q' s')
    (herror : ∀ s' e, Q s' (.error e) → Q' s' (.error e)) :
  (c >>= f).run.Obeys P Q' s
  := by
  rw [ExceptT.run_bind]
  apply hc.bind
  rintro s' (e | a) h
  · apply herror s' e h
  · apply hok s' a h

/-- The rule of `Obeys` for a handler of exceptions. -/
theorem Obeys.tryCatch {ε : Type u} {Q Q' : S → Except ε α → Prop} {s : S}
    {c : ExceptT ε (Coroutine Op Res) α} {f : ε → ExceptT ε (Coroutine Op Res) α}
    (hc : c.run.Obeys P Q s) (hok : ∀ s' a, Q s' (.ok a) → Q' s' (.ok a))
    (herror : ∀ s' e, Q s' (.error e) → (f e).run.Obeys P Q' s') :
  (MonadExcept.tryCatch c f).run.Obeys P Q' s
  := by
  apply hc.bind
  rintro s' (e | a) h
  · apply herror s' e h
  · apply hok s' a h

end Coroutine

namespace Pool

variable {Op : Type u} {Res : Op → Type u} {σ : Type v} {χ ε : Type w} {S : Type x} {α : Type u}
  {E : Effects Op Res σ χ ε}

/-- Every task obeys its protocol from its stage. -/
def Obeying (P : ℕ → Protocol Op Res S) (Q : ℕ → S → α → Prop) (stages : ℕ → S)
    (p : Pool Op Res σ α) : Prop :=
  ∀ (i : ℕ) (c : Coroutine Op Res α), p.tasks[i]? = some c → c.Obeys (P i) (Q i) (stages i)

/-- What a task awaits is allowed at its stage. -/
theorem Obeying.allowed {P : ℕ → Protocol Op Res S} {Q : ℕ → S → α → Prop} {stages : ℕ → S}
    {p : Pool Op Res σ α} (h : p.Obeying P Q stages) {i : ℕ} {op : Op}
    (hpending : p.pendingOf i = some op) :
  (P i).allowed (stages i) op
  := by
  obtain ⟨c, hc, hop⟩ := Option.bind_eq_some_iff.mp hpending
  have hobeys := h i c hc
  cases c with
  | done a => cases hop
  | await op' resume =>
      cases hop
      apply hobeys.1

/-- A task that is answered obeys its protocol from the next stage. -/
theorem Obeying.resumed {P : ℕ → Protocol Op Res S} {Q : ℕ → S → α → Prop} {stages : ℕ → S}
    {p : Pool Op Res σ α} (h : p.Obeying P Q stages) {i : ℕ} {op : Op}
    {resume : Res op → Coroutine Op Res α} (htask : p.tasks[i]? = some (.await op resume))
    (r : Res op) (world : σ) :
  (p.resumed i op resume r world).Obeying P Q
    (Function.update stages i ((P i).next (stages i) op r))
  := by
  intro j c hj
  by_cases hij : i = j
  · subst hij
    rw [tasks_resumed_self htask] at hj
    cases hj
    rw [Function.update_self]
    apply (h i _ htask).2
  · rw [tasks_resumed_of_ne hij] at hj
    rw [Function.update_of_ne (Ne.symm hij)]
    apply h j c hj

/-- The rule for pools of tasks that obey protocols: an invariant `I` of the stages and the pool
that every answer keeps, where `D` holds, and every change of the world keeps, holds in every run
along which `D` holds. -/
theorem run_obeys {P : ℕ → Protocol Op Res S} {Q : ℕ → S → α → Prop} {init : ℕ → S}
    {D : Pool Op Res σ α → Label χ ε → Prop} {I : (ℕ → S) → Pool Op Res σ α → Prop}
    {tasks : List (Coroutine Op Res α)} {world : σ} {l : List (Label χ ε)} {p : Pool Op Res σ α}
    (htasks : (start world tasks : Pool Op Res σ α).Obeying P Q init)
    (hstart : I init (start world tasks))
    (htask : ∀ (p : Pool Op Res σ α) stages i choice op resume r world',
      p.tasks.length = tasks.length → p.Obeying P Q stages → I stages p → D p (.task i choice) →
      p.tasks[i]? = some (.await op resume) → (P i).allowed (stages i) op →
      E.perform p.world op choice = some (r, world') →
      I (Function.update stages i ((P i).next (stages i) op r)) (p.resumed i op resume r world'))
    (henvironment : ∀ (p : Pool Op Res σ α) stages e world', I stages p →
      D p (.environment e) → E.environment p.world e = some world' →
      I stages { p with world := world' })
    (hD : (machine E).Along D (start world tasks) l)
    (hrun : (machine E).run (start world tasks) l = some p) :
  p.tasks.length = tasks.length ∧ ∃ stages, p.Obeying P Q stages ∧ I stages p
  := by
  apply Machine.run_invariant
    (I := fun p => p.tasks.length = tasks.length ∧ ∃ stages, p.Obeying P Q stages
      ∧ I stages p) _ _ hD hrun
  · rintro p (⟨i, choice⟩ | e) p' ⟨hlength, stages, hobeying, hI⟩ hDp hstep
    · obtain ⟨op, resume, r, world', hi, hperform, rfl⟩ := step_task.mp hstep
      constructor
      · apply Eq.trans List.length_set hlength
      · use Function.update stages i ((P i).next (stages i) op r), hobeying.resumed hi r world'
        apply htask p stages i choice op resume r world' hlength hobeying hI hDp hi
          (hobeying i _ hi).1 hperform
    · obtain ⟨world', hworld, rfl⟩ := step_environment.mp hstep
      use hlength, stages, hobeying
      apply henvironment p stages e world' hI hDp hworld
  · exact ⟨rfl, init, htasks, hstart⟩

end Pool
