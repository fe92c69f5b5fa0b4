import NasOs.Library.Coroutine

/-!
# Coroutines that run alone

`c.Ensures f D Q s` says what a coroutine does when it runs alone from the state `s`, `f` answering
each operation: if `D` holds at every operation that it awaits, it ends with a result and a state that
satisfy `Q`.  The rules follow the ways coroutines are put together, so that each part is
specified once and the whole is proved from the parts.
-/

universe u v

namespace Coroutine

variable {Op : Type u} {Res : Op → Type u} {σ : Type v} {α β ε : Type u}
  {f : σ → (op : Op) → Res op × σ} {D : σ → Op → Prop}

/-- `D` holds at every operation that the coroutine awaits when it runs alone. -/
def ExecutesAlong (f : σ → (op : Op) → Res op × σ) (D : σ → Op → Prop) :
    Coroutine Op Res α → σ → Prop
  | .done _, _ => True
  | .await op resume, s => D s op ∧ (resume (f s op).1).ExecutesAlong f D (f s op).2

/-- Where `D` holds at every operation, the coroutine ends with a result and a state that satisfy
`Q`. -/
def Ensures (f : σ → (op : Op) → Res op × σ) (D : σ → Op → Prop) (Q : α → σ → Prop) :
    Coroutine Op Res α → σ → Prop
  | .done a, s => Q a s
  | .await op resume, s => D s op → (resume (f s op).1).Ensures f D Q (f s op).2

@[simp]
theorem ensures_done {Q : α → σ → Prop} {a : α} {s : σ} :
  (done a : Coroutine Op Res α).Ensures f D Q s ↔ Q a s
  := Iff.rfl

@[simp]
theorem ensures_await {Q : α → σ → Prop} {op : Op} {resume : Res op → Coroutine Op Res α} {s : σ} :
  (await op resume).Ensures f D Q s ↔ (D s op → (resume (f s op).1).Ensures f D Q (f s op).2)
  := Iff.rfl

/-- What is ensured holds at the end of a run along which `D` holds. -/
theorem Ensures.execute {Q : α → σ → Prop} {c : Coroutine Op Res α} {s : σ}
    (hc : c.Ensures f D Q s) (hD : c.ExecutesAlong f D s) :
  Q (c.execute f s).1 (c.execute f s).2
  := by
  induction c generalizing s with
  | done a => apply hc
  | await op resume ih => apply ih _ (hc hD.1) hD.2

/-- What always holds, holds along every run. -/
theorem executesAlong_true (c : Coroutine Op Res α) (s : σ) :
  c.ExecutesAlong f (fun _ _ => True) s
  := by
  induction c generalizing s with
  | done a => trivial
  | await op resume ih => exact ⟨trivial, ih _ _⟩

/-- What two properties imply at each operation holds along a run where they do. -/
theorem ExecutesAlong.imp {D' D'' : σ → Op → Prop} {c : Coroutine Op Res α} {s : σ}
    (hD : c.ExecutesAlong f D s) (hD' : c.ExecutesAlong f D' s)
    (h : ∀ t op, D t op → D' t op → D'' t op) :
  c.ExecutesAlong f D'' s
  := by
  induction c generalizing s with
  | done a => trivial
  | await op resume ih => exact ⟨h s op hD.1 hD'.1, ih _ hD.2 hD'.2⟩

/-- What every operation that a coroutine may await keeps holds at its end. -/
theorem Awaits.ensures {P : Op → Prop} {I : σ → Prop} {c : Coroutine Op Res α} {s : σ} (hc : c.Awaits P)
    (keeps : ∀ s op, P op → I s → I (f s op).2) (hs : I s) :
  c.Ensures f D (fun _ => I) s
  := by
  induction c generalizing s with
  | done a => apply hs
  | await op resume ih =>
      intro _
      apply ih _ (hc.2 _)
      apply keeps s op hc.1 hs

/-- What follows ensures its part from every result and state of the first part. -/
theorem Ensures.bind {Q : α → σ → Prop} {Q' : β → σ → Prop} {c : Coroutine Op Res α}
    {g : α → Coroutine Op Res β} {s : σ} (hc : c.Ensures f D Q s)
    (hg : ∀ a t, Q a t → (g a).Ensures f D Q' t) :
  (c >>= g).Ensures f D Q' s
  := by
  induction c generalizing s with
  | done a => apply hg a s hc
  | await op resume ih =>
      intro hD
      apply ih _ (hc hD)

/-- What is ensured may be weakened. -/
theorem Ensures.mono {Q Q' : α → σ → Prop} {c : Coroutine Op Res α} {s : σ}
    (hc : c.Ensures f D Q s) (h : ∀ a t, Q a t → Q' a t) :
  c.Ensures f D Q' s
  := by
  induction c generalizing s with
  | done a => apply h a s hc
  | await op resume ih =>
      intro hD
      apply ih _ (hc hD)

/-- What is ensured in two ways. -/
theorem Ensures.and {Q Q' : α → σ → Prop} {c : Coroutine Op Res α} {s : σ} (hc : c.Ensures f D Q s)
    (hc' : c.Ensures f D Q' s) :
  c.Ensures f D (fun a t => Q a t ∧ Q' a t) s
  := by
  induction c generalizing s with
  | done a => exact ⟨hc, hc'⟩
  | await op resume ih =>
      intro hD
      apply ih _ (hc hD) (hc' hD)

/-- The rule of `Ensures` for an interpretation that answers each operation as `g` does. -/
theorem Ensures.interpret {Op' : Type u} {Res' : Op' → Type u} {g : σ → (op : Op') → Res' op × σ}
    {E : σ → Op' → Prop} {h : (op : Op') → Coroutine Op Res (Res' op)} {Q : α → σ → Prop}
    {c : Coroutine Op' Res' α} {s : σ}
    (hh : ∀ s op, (h op).Ensures f D (fun r t => E s op ∧ r = (g s op).1 ∧ t = (g s op).2) s)
    (hc : c.Ensures g E Q s) :
  (c.interpret h).Ensures f D Q s
  := by
  induction c generalizing s with
  | done a => apply hc
  | await op resume ih =>
      apply (hh s op).bind
      rintro _ _ ⟨hD, rfl, rfl⟩
      apply ih _ (hc hD)

/-- The rule of `Ensures` for a bind that lets exceptions through. -/
theorem Ensures.exceptT_bind {Q : Except ε α → σ → Prop} {Q' : Except ε β → σ → Prop}
    {c : ExceptT ε (Coroutine Op Res) α} {g : α → ExceptT ε (Coroutine Op Res) β} {s : σ}
    (hc : c.run.Ensures f D Q s) (hok : ∀ a t, Q (.ok a) t → (g a).run.Ensures f D Q' t)
    (herror : ∀ e t, Q (.error e) t → Q' (.error e) t) :
  (c >>= g).run.Ensures f D Q' s
  := by
  rw [ExceptT.run_bind]
  apply hc.bind
  rintro (e | a) t h
  · apply herror e t h
  · apply hok a t h

/-- The rule of `Ensures` for a handler of exceptions. -/
theorem Ensures.tryCatch {Q Q' : Except ε α → σ → Prop} {c : ExceptT ε (Coroutine Op Res) α}
    {g : ε → ExceptT ε (Coroutine Op Res) α} {s : σ} (hc : c.run.Ensures f D Q s)
    (hok : ∀ a t, Q (.ok a) t → Q' (.ok a) t)
    (herror : ∀ e t, Q (.error e) t → (g e).run.Ensures f D Q' t) :
  (MonadExcept.tryCatch c g).run.Ensures f D Q' s
  := by
  apply hc.bind
  rintro (e | a) t h
  · apply herror e t h
  · apply hok a t h

end Coroutine
