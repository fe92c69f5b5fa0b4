import NasOs.Library.Coroutine

/-!
# Coroutines that stop at the first failure

`c.Traces F R` says of a coroutine that may raise that it raises as soon as an answer is a failure, `F`
saying which answers are, and that if no answer is one it returns, with a result and a trace of answers
that satisfy `R`.  The rules follow the ways coroutines are put together: in `Traces.bind` what comes
after is specified by the trace that came before.
-/

universe u

namespace Coroutine

variable {Op : Type u} {Res : Op → Type u} {α β ε : Type u} {F : Event Op Res → Prop}

/-- Raise at the first failure, and without one return with a result and a trace that satisfy `R`; `t` is
the trace so far. -/
def TracesFrom (F : Event Op Res → Prop) (R : α → List (Event Op Res) → Prop) :
    List (Event Op Res) → Coroutine Op Res (Except ε α) → Prop
  | t, .done (.ok a) => R a t
  | _, .done (.error _) => False
  | t, .await op resume => ∀ r, (F ⟨op, r⟩ → ∃ e, resume r = .done (.error e))
      ∧ (¬ F ⟨op, r⟩ → (resume r).TracesFrom F R (t ++ [⟨op, r⟩]))

/-- Raise at the first failure, and without one return with a result and a trace that satisfy `R`. -/
def Traces (F : Event Op Res → Prop) (R : α → List (Event Op Res) → Prop)
    (c : ExceptT ε (Coroutine Op Res) α) : Prop :=
  c.run.TracesFrom F R []

/-- A trace that began earlier. -/
theorem TracesFrom.append {R : α → List (Event Op Res) → Prop} {c : Coroutine Op Res (Except ε α)}
    {t u : List (Event Op Res)} (hc : c.TracesFrom F (fun a u => R a (t ++ u)) u) :
  c.TracesFrom F R (t ++ u)
  := by
  induction c generalizing u with
  | done a =>
      cases a with
      | ok a => apply hc
      | error e => apply hc
  | await op resume ih =>
      intro r
      constructor
      · apply (hc r).1
      · intro hr
        rw [List.append_assoc]
        apply ih r ((hc r).2 hr)

/-- What is said of a result and its trace may be weakened. -/
theorem TracesFrom.mono {R R' : α → List (Event Op Res) → Prop} {c : Coroutine Op Res (Except ε α)}
    {t : List (Event Op Res)} (hc : c.TracesFrom F R t) (h : ∀ a u, R a u → R' a u) :
  c.TracesFrom F R' t
  := by
  induction c generalizing t with
  | done a =>
      cases a with
      | ok a => apply h a t hc
      | error e => apply hc
  | await op resume ih =>
      intro r
      constructor
      · apply (hc r).1
      · intro hr
        apply ih r ((hc r).2 hr)

/-- A value that is returned without a trace. -/
theorem traces_pure {R : α → List (Event Op Res) → Prop} {a : α} (h : R a []) :
  Traces F R (pure a : ExceptT ε (Coroutine Op Res) α)
  := h

/-- What follows is specified by the result and the trace of the first part. -/
theorem Traces.bind {R : α → List (Event Op Res) → Prop} {R' : β → List (Event Op Res) → Prop}
    {c : ExceptT ε (Coroutine Op Res) α} {f : α → ExceptT ε (Coroutine Op Res) β} (hc : Traces F R c)
    (hf : ∀ a t, R a t → Traces F (fun b u => R' b (t ++ u)) (f a)) :
  Traces F R' (c >>= f)
  := by
  have hbind : ∀ (d : Coroutine Op Res (Except ε α)) (t : List (Event Op Res)), d.TracesFrom F R t →
      (ExceptT.mk d >>= f).run.TracesFrom F R' t := by
    intro d
    induction d with
    | done a =>
        intro t hd
        cases a with
        | ok a =>
            rw [← List.append_nil t]
            apply (hf a t hd).append
        | error e => cases hd
    | await op resume ih =>
        intro t hd r
        obtain ⟨hfails, hgoes⟩ := hd r
        constructor
        · intro hr
          obtain ⟨e, he⟩ := hfails hr
          use e
          change (ExceptT.mk (resume r) >>= f).run = _
          rw [he]
          rfl
        · intro hr
          apply ih r _ (hgoes hr)
  apply hbind c.run [] hc

/-- What is said of a result and its trace may be weakened. -/
theorem Traces.mono {R R' : α → List (Event Op Res) → Prop} {c : ExceptT ε (Coroutine Op Res) α}
    (hc : Traces F R c) (h : ∀ a u, R a u → R' a u) :
  Traces F R' c
  := TracesFrom.mono hc h

/-- A coroutine that has ended returned without a failure, or raised at its only one. -/
theorem Traces.of_follows {R : α → List (Event Op Res) → Prop} {c : ExceptT ε (Coroutine Op Res) α}
    {h : List (Event Op Res)} {a : Except ε α} (hc : Traces F R c)
    (hf : c.run.Follows h (.done a)) :
  (∃ b, a = .ok b ∧ (∀ e ∈ h, ¬ F e) ∧ R b h)
    ∨ ∃ e before last, a = .error e ∧ h = before ++ [last] ∧ F last ∧ ∀ e ∈ before, ¬ F e
  := by
  have hfollows : ∀ (d : Coroutine Op Res (Except ε α)) (t h : List (Event Op Res)),
      d.TracesFrom F R t → d.Follows h (.done a) →
      (∃ b, a = .ok b ∧ (∀ e ∈ h, ¬ F e) ∧ R b (t ++ h))
        ∨ ∃ e before last, a = .error e ∧ h = before ++ [last] ∧ F last ∧ ∀ e ∈ before, ¬ F e := by
    intro d
    induction d with
    | done b =>
        intro t h hd hf
        obtain ⟨rfl, heq⟩ := follows_done.mp hf
        cases heq
        left
        cases a with
        | ok b =>
            use b, rfl, by simp
            rw [List.append_nil]
            apply hd
        | error e => cases hd
    | await op resume ih =>
        intro t h hd hf
        rcases follows_await.mp hf with ⟨-, ⟨⟩⟩ | ⟨r, h', rfl, hrest⟩
        obtain ⟨hfails, hgoes⟩ := hd r
        by_cases hr : F ⟨op, r⟩
        · right
          obtain ⟨e, he⟩ := hfails hr
          rw [he] at hrest
          obtain ⟨rfl, heq⟩ := follows_done.mp hrest
          cases heq
          exact ⟨e, [], ⟨op, r⟩, rfl, rfl, hr, by simp⟩
        · rcases ih r _ h' (hgoes hr) hrest with
            ⟨b, rfl, hclean, hR⟩ | ⟨e, before, last, rfl, rfl, hlast, hclean⟩
          · left
            refine ⟨b, rfl, List.forall_mem_cons.mpr ⟨hr, hclean⟩, ?_⟩
            rw [List.append_cons]
            apply hR
          · right
            exact ⟨e, ⟨op, r⟩ :: before, last, rfl, rfl, hlast, List.forall_mem_cons.mpr ⟨hr, hclean⟩⟩
  apply hfollows c.run [] h hc hf

end Coroutine
