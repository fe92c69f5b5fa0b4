import Mathlib.Data.List.Basic

/-!
# Coroutines

A coroutine over operations `Op` is either done with a value or awaits the answer to an
operation and resumes with it; `Res op` is the type of the answers to `op`.  Everything a
coroutine does between two awaits is in its resumption, so that an operation is the unit
at which coroutines interleave.

`c.Follows h c'` says that answering the operations of `c` as the history `h` records
leads to `c'`.  `c.execute f s` runs `c` alone against a state, `f` answering each
operation.
-/

universe u v

/-- A coroutine with result in `α`: it is done, or it awaits an answer to `op` and resumes
with it. -/
inductive Coroutine (Op : Type u) (Res : Op → Type u) (α : Type u) : Type u where
  | done (a : α)
  | await (op : Op) (resume : Res op → Coroutine Op Res α)

/-- An operation together with the answer it was given. -/
abbrev Event (Op : Type u) (Res : Op → Type u) : Type u :=
  (op : Op) × Res op

namespace Coroutine

variable {Op : Type u} {Res : Op → Type u} {α β : Type u}

/-- Run `c`, then the coroutine its result gives. -/
protected def bind : Coroutine Op Res α → (α → Coroutine Op Res β) → Coroutine Op Res β
  | .done a, f => f a
  | .await op resume, f => .await op fun r => (resume r).bind f

instance : Monad (Coroutine Op Res) where
  pure := .done
  bind := .bind

/-- Await an operation and return its answer. -/
def perform (op : Op) : Coroutine Op Res (Res op) :=
  .await op .done

@[simp]
theorem pure_eq_done (a : α) :
  (pure a : Coroutine Op Res α) = .done a
  := rfl

@[simp]
theorem done_bind (a : α) (f : α → Coroutine Op Res β) :
  Coroutine.done a >>= f = f a
  := rfl

@[simp]
theorem await_bind {op : Op} (resume : Res op → Coroutine Op Res α)
    (f : α → Coroutine Op Res β) :
  Coroutine.await op resume >>= f = .await op fun r => resume r >>= f
  := rfl

@[simp]
theorem perform_bind (op : Op) (f : Res op → Coroutine Op Res β) :
  (perform op : Coroutine Op Res (Res op)) >>= f = .await op f
  := rfl

instance : LawfulMonad (Coroutine Op Res) := LawfulMonad.mk' _
  (by
    intro α c
    induction c with
    | done a => rfl
    | await op resume ih => apply congrArg (Coroutine.await op) (funext ih))
  (by
    intros
    rfl)
  (by
    intro α β γ c f g
    induction c with
    | done a => rfl
    | await op resume ih => apply congrArg (Coroutine.await op) (funext ih))

/-- The operation a coroutine awaits, if it is not done. -/
def pending : Coroutine Op Res α → Option Op
  | .done _ => none
  | .await op _ => some op

/-- The result of a coroutine that is done. -/
def result : Coroutine Op Res α → Option α
  | .done a => some a
  | .await _ _ => none

@[simp]
theorem pending_done (a : α) :
  (done a : Coroutine Op Res α).pending = none
  := rfl

@[simp]
theorem pending_await (op : Op) (resume : Res op → Coroutine Op Res α) :
  (await op resume).pending = some op
  := rfl

@[simp]
theorem result_done (a : α) :
  (done a : Coroutine Op Res α).result = some a
  := rfl

@[simp]
theorem result_await (op : Op) (resume : Res op → Coroutine Op Res α) :
  (await op resume).result = none
  := rfl

/-- A coroutine has the result `a` exactly when it is done with `a`. -/
theorem result_eq_some {c : Coroutine Op Res α} {a : α} :
  c.result = some a ↔ c = .done a
  := by
  cases c with
  | done b => simp
  | await op resume => simp

/-! ### Histories -/

/-- `c.Follows h c'`: answering the operations `c` awaits as `h` records leads to `c'`. -/
inductive Follows : Coroutine Op Res α → List (Event Op Res) → Coroutine Op Res α → Prop where
  | nil (c : Coroutine Op Res α) : Follows c [] c
  | cons {op : Op} {resume : Res op → Coroutine Op Res α} {r : Res op}
      {h : List (Event Op Res)} {c' : Coroutine Op Res α} :
      Follows (resume r) h c' → Follows (.await op resume) (⟨op, r⟩ :: h) c'

/-- A coroutine that is done answers nothing more. -/
@[simp]
theorem follows_done {a : α} {h : List (Event Op Res)} {c' : Coroutine Op Res α} :
  (done a).Follows h c' ↔ h = [] ∧ c' = .done a
  := by
  constructor
  · intro hf
    cases hf
    exact ⟨rfl, rfl⟩
  · rintro ⟨rfl, rfl⟩
    apply Follows.nil

/-- A coroutine awaiting `op` has not moved, or it was given an answer and went on. -/
theorem follows_await {op : Op} {resume : Res op → Coroutine Op Res α}
    {h : List (Event Op Res)} {c' : Coroutine Op Res α} :
  (await op resume).Follows h c'
    ↔ (h = [] ∧ c' = .await op resume)
      ∨ ∃ r h', h = ⟨op, r⟩ :: h' ∧ (resume r).Follows h' c'
  := by
  constructor
  · intro hf
    cases hf with
    | nil =>
        left
        exact ⟨rfl, rfl⟩
    | cons hf =>
        right
        exact ⟨_, _, rfl, hf⟩
  · rintro (⟨rfl, rfl⟩ | ⟨r, h', rfl, hf⟩)
    · apply Follows.nil
    · apply Follows.cons hf

/-- One more answer extends a history. -/
theorem Follows.snoc {c : Coroutine Op Res α} {h : List (Event Op Res)} {op : Op}
    {resume : Res op → Coroutine Op Res α} (hf : c.Follows h (.await op resume)) (r : Res op) :
  c.Follows (h ++ [⟨op, r⟩]) (resume r)
  := by
  generalize hc : Coroutine.await op resume = c' at hf
  induction hf with
  | nil c =>
      subst hc
      apply Follows.cons (Follows.nil _)
  | cons _ ih => apply Follows.cons (ih hc)

/-- A history of `c >>= f` is one of `c`, or one of `c` to its result followed by one of
what `f` gives on it. -/
theorem follows_bind {c : Coroutine Op Res α} {f : α → Coroutine Op Res β}
    {h : List (Event Op Res)} {d : Coroutine Op Res β} :
  (c >>= f).Follows h d
    ↔ (∃ c', c.Follows h c' ∧ d = c' >>= f)
      ∨ ∃ h₁ a h₂, h = h₁ ++ h₂ ∧ c.Follows h₁ (.done a) ∧ (f a).Follows h₂ d
  := by
  induction c generalizing h with
  | done a =>
      rw [done_bind]
      constructor
      · intro hf
        right
        exact ⟨[], a, h, rfl, Follows.nil _, hf⟩
      · rintro (⟨c', hf, rfl⟩ | ⟨h₁, b, h₂, rfl, hf, hg⟩)
        · obtain ⟨rfl, rfl⟩ := follows_done.mp hf
          apply Follows.nil
        · obtain ⟨rfl, hb⟩ := follows_done.mp hf
          cases hb
          apply hg
  | await op resume ih =>
      rw [await_bind]
      constructor
      · intro hf
        rcases follows_await.mp hf with ⟨rfl, rfl⟩ | ⟨r, h', rfl, hr⟩
        · left
          exact ⟨_, Follows.nil _, rfl⟩
        · rcases (ih r).mp hr with ⟨c', hc', rfl⟩ | ⟨h₁, a, h₂, rfl, h₁a, hg⟩
          · left
            exact ⟨c', Follows.cons hc', rfl⟩
          · right
            exact ⟨_, a, h₂, rfl, Follows.cons h₁a, hg⟩
      · rintro (⟨c', hf, rfl⟩ | ⟨h₁, a, h₂, rfl, hf, hg⟩)
        · rcases follows_await.mp hf with ⟨rfl, rfl⟩ | ⟨r, h', rfl, hr⟩
          · apply Follows.nil
          · apply Follows.cons ((ih r).mpr (Or.inl ⟨c', hr, rfl⟩))
        · rcases follows_await.mp hf with ⟨rfl, ha⟩ | ⟨r, h', rfl, hr⟩
          · cases ha
          · apply Follows.cons ((ih r).mpr (Or.inr ⟨h', a, h₂, rfl, hr, hg⟩))

/-- Where answering the operations of a coroutine as a history records leads, if it awaits
those operations. -/
def replay [DecidableEq Op] :
    Coroutine Op Res α → List (Event Op Res) → Option (Coroutine Op Res α)
  | c, [] => some c
  | .done _, _ :: _ => none
  | .await op resume, e :: h =>
      if heq : e.1 = op then (resume (heq ▸ e.2)).replay h else none

/-- A coroutine follows the histories that can be replayed on it. -/
theorem follows_of_replay [DecidableEq Op] {c : Coroutine Op Res α} {h : List (Event Op Res)}
    (hreplay : (c.replay h).isSome) :
  ∃ c', c.Follows h c'
  := by
  induction h generalizing c with
  | nil => use c, Follows.nil c
  | cons e h ih =>
      cases c with
      | done a => cases hreplay
      | await op resume =>
          rw [replay] at hreplay
          split at hreplay
          · obtain ⟨op', r⟩ := e
            rename_i heq
            cases heq
            obtain ⟨c', hf⟩ := ih hreplay
            use c', Follows.cons hf
          · cases hreplay

/-! ### What a coroutine may await -/

/-- Every operation the coroutine can ever await, whatever it is answered, satisfies `P`. -/
def Awaits (P : Op → Prop) : Coroutine Op Res α → Prop
  | .done _ => True
  | .await op resume => P op ∧ ∀ r, (resume r).Awaits P

@[simp]
theorem awaits_done (P : Op → Prop) (a : α) :
  (done a : Coroutine Op Res α).Awaits P
  := trivial

@[simp]
theorem awaits_await {P : Op → Prop} {op : Op} {resume : Res op → Coroutine Op Res α} :
  (await op resume).Awaits P ↔ P op ∧ ∀ r, (resume r).Awaits P
  := Iff.rfl

/-- What every operation satisfies is satisfied by what a coroutine awaits. -/
theorem awaits_of_forall {P : Op → Prop} (h : ∀ op, P op) (c : Coroutine Op Res α) :
  c.Awaits P
  := by
  induction c with
  | done a => trivial
  | await op resume ih => exact ⟨h op, ih⟩

/-- What `c` and every coroutine its result gives awaits is what `c >>= f` awaits. -/
theorem Awaits.bind {P : Op → Prop} {c : Coroutine Op Res α} {f : α → Coroutine Op Res β}
    (hc : c.Awaits P) (hf : ∀ a, (f a).Awaits P) :
  (c >>= f).Awaits P
  := by
  induction c with
  | done a => apply hf
  | await op resume ih =>
      constructor
      · apply hc.1
      · intro r
        apply ih r (hc.2 r)

/-- Every operation of a history of a coroutine is one it may await, and it goes on
awaiting such operations. -/
theorem Follows.awaits {P : Op → Prop} {c c' : Coroutine Op Res α} {h : List (Event Op Res)}
    (hf : c.Follows h c') (hc : c.Awaits P) :
  (∀ e ∈ h, P e.1) ∧ c'.Awaits P
  := by
  induction hf with
  | nil c =>
      use by simp
  | @cons op resume r h c' _ ih =>
      obtain ⟨hh, hc'⟩ := ih (hc.2 r)
      constructor
      · intro e he
        rcases List.mem_cons.mp he with rfl | he
        · apply hc.1
        · apply hh e he
      · apply hc'

/-- On every way to a result that satisfies `Q`, the coroutine awaits an operation that
satisfies `P`. -/
def Visits (P : Op → Prop) (Q : α → Prop) : Coroutine Op Res α → Prop
  | .done a => ¬ Q a
  | .await op resume => P op ∨ ∀ r, (resume r).Visits P Q

@[simp]
theorem visits_done {P : Op → Prop} {Q : α → Prop} {a : α} :
  (done a : Coroutine Op Res α).Visits P Q ↔ ¬ Q a
  := Iff.rfl

@[simp]
theorem visits_await {P : Op → Prop} {Q : α → Prop} {op : Op}
    {resume : Res op → Coroutine Op Res α} :
  (await op resume).Visits P Q ↔ P op ∨ ∀ r, (resume r).Visits P Q
  := Iff.rfl

/-- What every coroutine after `c` visits is visited after `c`, whatever `c` does. -/
theorem visits_bind_right {P : Op → Prop} {Q : β → Prop} (c : Coroutine Op Res α)
    {f : α → Coroutine Op Res β} (hf : ∀ a, (f a).Visits P Q) :
  (c >>= f).Visits P Q
  := by
  induction c with
  | done a => apply hf
  | await op resume ih =>
      right
      intro r
      apply ih r

/-- If `c` visits `P` on the way to every result after which the rest may still end in `Q`,
then so does `c` followed by the rest. -/
theorem Visits.bind {P : Op → Prop} {Q : β → Prop} {R : α → Prop} {c : Coroutine Op Res α}
    {f : α → Coroutine Op Res β} (hc : c.Visits P R) (hf : ∀ a, R a ∨ (f a).Visits P Q) :
  (c >>= f).Visits P Q
  := by
  induction c with
  | done a => apply (hf a).resolve_left hc
  | await op resume ih =>
      rcases hc with hop | hc
      · left
        apply hop
      · right
        intro r
        apply ih r (hc r)

/-- A history that leads to a result satisfying `Q` has an operation that satisfies `P`. -/
theorem Follows.visits {P : Op → Prop} {Q : α → Prop} {c : Coroutine Op Res α} {a : α}
    {h : List (Event Op Res)} (hf : c.Follows h (.done a)) (ha : Q a) (hc : c.Visits P Q) :
  ∃ e ∈ h, P e.1
  := by
  generalize hd : (.done a : Coroutine Op Res α) = d at hf
  induction hf with
  | nil c =>
      subst hd
      apply absurd ha hc
  | @cons op resume r h d _ ih =>
      rcases hc with hop | hc
      · use ⟨op, r⟩, List.mem_cons_self
      · obtain ⟨e, he, hP⟩ := ih (hc r) hd
        use e, List.mem_cons_of_mem _ he

/-! ### Coroutines that raise exceptions -/

section Exceptions

variable {ε : Type u}

/-- The result is a value and not an exception. -/
def Returned : Except ε α → Prop
  | .ok _ => True
  | .error _ => False

@[simp]
theorem returned_ok (a : α) :
  Returned (.ok a : Except ε α)
  := trivial

@[simp]
theorem not_returned_error (e : ε) :
  ¬ Returned (.error e : Except ε α)
  := id

/-- A history of `c >>= f` to a value is one of `c` to a value, followed by one of what `f` gives on
it. -/
theorem follows_exceptT_bind_ok {c : ExceptT ε (Coroutine Op Res) α}
    {f : α → ExceptT ε (Coroutine Op Res) β} {h : List (Event Op Res)} {b : β} :
  (c >>= f).run.Follows h (.done (.ok b))
    ↔ ∃ h₁ a h₂, h = h₁ ++ h₂ ∧ c.run.Follows h₁ (.done (.ok a))
        ∧ (f a).run.Follows h₂ (.done (.ok b))
  := by
  rw [ExceptT.run_bind, follows_bind]
  constructor
  · rintro (⟨c', hc, hd⟩ | ⟨h₁, a | a, h₂, rfl, hc, hf⟩)
    · cases c' with
      | await op resume => cases hd
      | done a =>
          cases a with
          | error e => cases hd
          | ok a =>
              refine ⟨h, a, [], (List.append_nil h).symm, hc, ?_⟩
              rw [done_bind] at hd
              rw [hd]
              apply Follows.nil
    · obtain ⟨-, ⟨⟩⟩ := follows_done.mp hf
    · exact ⟨h₁, a, h₂, rfl, hc, hf⟩
  · rintro ⟨h₁, a, h₂, rfl, hc, hf⟩
    right
    exact ⟨h₁, .ok a, h₂, rfl, hc, hf⟩

/-- An operation has one answer. -/
theorem follows_perform {op : Op} {h : List (Event Op Res)} {r : Res op} :
  (perform op : Coroutine Op Res (Res op)).Follows h (.done r) ↔ h = [⟨op, r⟩]
  := by
  rw [perform, follows_await]
  constructor
  · rintro (⟨-, ⟨⟩⟩ | ⟨r', h', rfl, hr⟩)
    obtain ⟨rfl, heq⟩ := follows_done.mp hr
    cases heq
    rfl
  · rintro rfl
    right
    exact ⟨r, [], rfl, Follows.nil _⟩

variable {P : Op → Prop} {c : ExceptT ε (Coroutine Op Res) α}

@[simp]
theorem awaits_pure (a : α) :
  (pure a : ExceptT ε (Coroutine Op Res) α).run.Awaits P
  := trivial

@[simp]
theorem awaits_throw (e : ε) :
  (throw e : ExceptT ε (Coroutine Op Res) α).run.Awaits P
  := trivial

/-- The rule of `Awaits` for a bind that lets exceptions through. -/
theorem awaits_exceptT_bind {f : α → ExceptT ε (Coroutine Op Res) β}
    (hc : c.run.Awaits P) (hf : ∀ a, (f a).run.Awaits P) :
  (c >>= f).run.Awaits P
  := by
  rw [ExceptT.run_bind]
  apply hc.bind
  rintro (e | a)
  · trivial
  · apply hf

/-- The rule of `Awaits` for a handler of exceptions. -/
theorem awaits_tryCatch {f : ε → ExceptT ε (Coroutine Op Res) α}
    (hc : c.run.Awaits P) (hf : ∀ e, (f e).run.Awaits P) :
  (tryCatch c f).run.Awaits P
  := by
  apply Awaits.bind hc
  rintro (e | a)
  · apply hf
  · trivial

/-- A coroutine visits what its first part visits on the way to a value. -/
theorem visits_exceptT_bind_left {f : α → ExceptT ε (Coroutine Op Res) β}
    (hc : c.run.Visits P Returned) :
  (c >>= f).run.Visits P Returned
  := by
  rw [ExceptT.run_bind]
  apply hc.bind
  rintro (e | a)
  · right
    apply not_returned_error
  · left
    apply returned_ok

/-- A coroutine visits what its second part visits, whatever value the first gives. -/
theorem visits_exceptT_bind_right {f : α → ExceptT ε (Coroutine Op Res) β}
    (hf : ∀ a, (f a).run.Visits P Returned) :
  (c >>= f).run.Visits P Returned
  := by
  rw [ExceptT.run_bind]
  apply visits_bind_right
  rintro (e | a)
  · apply not_returned_error
  · apply hf

/-- What is visited on the way to a value is visited when every exception is handled by
raising another. -/
theorem visits_tryCatch {f : ε → ExceptT ε (Coroutine Op Res) α}
    (hc : c.run.Visits P Returned) (hf : ∀ e, (f e).run.Visits P Returned) :
  (tryCatch c f).run.Visits P Returned
  := by
  apply Visits.bind hc
  rintro (e | a)
  · right
    apply hf
  · left
    apply returned_ok

end Exceptions

/-! ### Running alone -/

/-- Run a coroutine alone from the state `s`, `f` answering each operation. -/
def execute {σ : Type v} (f : σ → (op : Op) → Res op × σ) :
    Coroutine Op Res α → σ → α × σ
  | .done a, s => (a, s)
  | .await op resume, s => (resume (f s op).1).execute f (f s op).2

@[simp]
theorem execute_done {σ : Type v} (f : σ → (op : Op) → Res op × σ) (a : α) (s : σ) :
  (done a : Coroutine Op Res α).execute f s = (a, s)
  := rfl

@[simp]
theorem execute_await {σ : Type v} (f : σ → (op : Op) → Res op × σ) (op : Op)
    (resume : Res op → Coroutine Op Res α) (s : σ) :
  (await op resume).execute f s = (resume (f s op).1).execute f (f s op).2
  := rfl

/-- The history of a coroutine that runs alone, each operation having an answer of its own. -/
def transcript (f : (op : Op) → Res op) : Coroutine Op Res α → List (Event Op Res)
  | .done _ => []
  | .await op resume => ⟨op, f op⟩ :: (resume (f op)).transcript f

/-- A coroutine follows its transcript. -/
theorem follows_transcript (f : (op : Op) → Res op) (c : Coroutine Op Res α) :
  c.Follows (c.transcript f) (.done (c.execute (fun _ op => (f op, ())) ()).1)
  := by
  induction c with
  | done a => apply Follows.nil
  | await op resume ih => apply Follows.cons (ih (f op))

/-- Running `c >>= g` is running `c` and then what `g` gives on its result. -/
theorem execute_bind {σ : Type v} (f : σ → (op : Op) → Res op × σ) (c : Coroutine Op Res α)
    (g : α → Coroutine Op Res β) (s : σ) :
  (c >>= g).execute f s = (g (c.execute f s).1).execute f (c.execute f s).2
  := by
  induction c generalizing s with
  | done a => rfl
  | await op resume ih => apply ih

/-- Answer each operation by a coroutine over other operations. -/
def interpret {Op' : Type u} {Res' : Op' → Type u} (h : (op : Op) → Coroutine Op' Res' (Res op)) :
    Coroutine Op Res α → Coroutine Op' Res' α
  | .done a => .done a
  | .await op resume => h op >>= fun r => (resume r).interpret h

/-- An interpreted coroutine awaits what the interpretation of its operations awaits. -/
theorem Awaits.interpret {Op' : Type u} {Res' : Op' → Type u}
    {h : (op : Op) → Coroutine Op' Res' (Res op)} {P : Op → Prop} {P' : Op' → Prop}
    {c : Coroutine Op Res α} (hc : c.Awaits P) (hh : ∀ op, P op → (h op).Awaits P') :
  (c.interpret h).Awaits P'
  := by
  induction c with
  | done a => trivial
  | await op resume ih =>
      apply (hh op hc.1).bind
      intro r
      apply ih r (hc.2 r)

/-- What every operation that a coroutine may await keeps is kept by running it. -/
theorem Awaits.execute {σ : Type v} {P : Op → Prop} {I : σ → Prop} {f : σ → (op : Op) → Res op × σ}
    {c : Coroutine Op Res α} {s : σ} (hc : c.Awaits P) (keeps : ∀ s op, P op → I s → I (f s op).2)
    (hs : I s) :
  I (c.execute f s).2
  := by
  induction c generalizing s with
  | done a => apply hs
  | await op resume ih =>
      apply ih _ (hc.2 _)
      apply keeps s op hc.1 hs

/-- What every operation keeps is kept by running a coroutine. -/
theorem execute_keeps {σ : Type v} {I : σ → Prop} {f : σ → (op : Op) → Res op × σ}
    (keeps : ∀ s op, I s → I (f s op).2) (c : Coroutine Op Res α) {s : σ} (hs : I s) :
  I (c.execute f s).2
  := by
  induction c generalizing s with
  | done a => apply hs
  | await op resume ih =>
      apply ih
      apply keeps s op hs

/-- Running `c >>= g` gives a value when running `c` does and then running what `g` gives on it
does. -/
theorem execute_exceptT_bind_eq_ok {ε : Type u} {σ : Type v}
    {f : σ → (op : Op) → Res op × σ} {c : ExceptT ε (Coroutine Op Res) α}
    {g : α → ExceptT ε (Coroutine Op Res) β} {s t : σ} {b : β} :
  (c >>= g).run.execute f s = (.ok b, t)
    ↔ ∃ a s', c.run.execute f s = (.ok a, s') ∧ (g a).run.execute f s' = (.ok b, t)
  := by
  rw [ExceptT.run_bind, execute_bind]
  rcases h : c.run.execute f s with ⟨e | a, s'⟩
  · simp
  · simp

/-- Running `c >>= g` is running `c`, and then what `g` gives on its value unless it raised. -/
theorem execute_exceptT_bind {ε : Type u} {σ : Type v} (f : σ → (op : Op) → Res op × σ)
    (c : ExceptT ε (Coroutine Op Res) α) (g : α → ExceptT ε (Coroutine Op Res) β) (s : σ) :
  (c >>= g).run.execute f s
    = match c.run.execute f s with
      | (.ok a, t) => (g a).run.execute f t
      | (.error e, t) => (.error e, t)
  := by
  rw [ExceptT.run_bind, execute_bind]
  rcases c.run.execute f s with ⟨e | a, t⟩
  · rfl
  · rfl

/-- Running a coroutine with a handler is running it, and then the handler if it raised. -/
theorem execute_tryCatch {ε : Type u} {σ : Type v} (f : σ → (op : Op) → Res op × σ)
    (c : ExceptT ε (Coroutine Op Res) α) (g : ε → ExceptT ε (Coroutine Op Res) α) (s : σ) :
  (tryCatch c g).run.execute f s
    = match c.run.execute f s with
      | (.ok a, t) => (.ok a, t)
      | (.error e, t) => (g e).run.execute f t
  := by
  change (Coroutine.bind c.run _).execute f s = _
  rw [show Coroutine.bind c.run _ = c.run >>= _ from rfl, execute_bind]
  rcases c.run.execute f s with ⟨e | a, t⟩
  · rfl
  · rfl

end Coroutine
