import Mathlib.Data.List.Forall2

/-!
# Mapping over a list with exceptions

Mapping a function that may raise over a list gives the list of its values, if it raises
nowhere.  Likewise a function that may have no value.  A loop that is left once it has collected enough
returns the first values, also when it is a loop in a loop.
-/

universe u v

/-- A sequence of two computations gives what the second makes of what the first gives. -/
theorem Except.bind_eq_ok_iff {ε α β : Type u} {x : Except ε α} {f : α → Except ε β} {b : β} :
  (x >>= f) = .ok b ↔ ∃ a, x = .ok a ∧ f a = .ok b
  := by
  cases x with
  | error e => simp [Bind.bind, Except.bind]
  | ok a => simp [Bind.bind, Except.bind]

namespace List

variable {ε α β : Type u} {f : α → Except ε β} {l : List α}

/-- Mapping succeeds with the values at the elements. -/
theorem mapM_except_eq_ok_iff {bs : List β} :
  l.mapM f = .ok bs ↔ List.Forall₂ (fun a b => f a = .ok b) l bs
  := by
  induction l generalizing bs with
  | nil =>
      rw [List.mapM_nil, List.forall₂_nil_left_iff]
      constructor
      · intro h
        cases h
        rfl
      · rintro rfl
        rfl
  | cons a l ih =>
      rw [List.mapM_cons, List.forall₂_cons_left_iff]
      simp only [← ih]
      cases f a with
      | error e => simp [Bind.bind, Except.bind]
      | ok b =>
          cases l.mapM f with
          | error e => simp [Bind.bind, Except.bind]
          | ok bs' => simp [Bind.bind, Except.bind, pure, Except.pure, eq_comm]

/-- Mapping has a value with the values at the elements. -/
theorem mapM_option_eq_some_iff {α β : Type u} {f : α → Option β} {l : List α} {bs : List β} :
  l.mapM f = some bs ↔ List.Forall₂ (fun a b => f a = some b) l bs
  := by
  induction l generalizing bs with
  | nil =>
      rw [List.mapM_nil, List.forall₂_nil_left_iff]
      constructor
      · intro h
        cases h
        rfl
      · rintro rfl
        rfl
  | cons a l ih =>
      rw [List.mapM_cons, List.forall₂_cons_left_iff]
      simp only [← ih]
      cases f a with
      | none => simp
      | some b =>
          cases l.mapM f with
          | none => simp
          | some bs' => simp [eq_comm]

/-- What a list has on the one side of a relation has something on the other side. -/
theorem exists_of_mem_forall₂ {α : Type u} {β : Type v} {R : α → β → Prop} {l : List α} {bs : List β}
    (h : List.Forall₂ R l bs) {b : β} (hb : b ∈ bs) :
  ∃ a ∈ l, R a b
  := by
  induction h with
  | nil => cases hb
  | @cons a b' l bs hab _ ih =>
      rcases List.mem_cons.mp hb with rfl | hb
      · use a, List.mem_cons_self
      · obtain ⟨a', ha', hR⟩ := ih hb
        use a', List.mem_cons_of_mem _ ha'

/-- A relation can be followed along a list when it can at each element. -/
theorem exists_forall₂_iff {α : Type u} {β : Type v} {R : α → β → Prop} {l : List α} :
  (∃ bs, List.Forall₂ R l bs) ↔ ∀ a ∈ l, ∃ b, R a b
  := by
  induction l with
  | nil => simp
  | cons a l ih =>
      simp only [List.forall₂_cons_left_iff, List.mem_cons, forall_eq_or_imp]
      rw [← ih]
      constructor
      · rintro ⟨_, b, bs, hb, hbs, rfl⟩
        exact ⟨⟨b, hb⟩, ⟨bs, hbs⟩⟩
      · rintro ⟨⟨b, hb⟩, ⟨bs, hbs⟩⟩
        exact ⟨b :: bs, b, bs, hb, hbs, rfl⟩

/-- Something holds somewhere on the one side of a relation when it does on the other side. -/
theorem exists_mem_iff_of_forall₂ {α : Type u} {β : Type v} {R : α → β → Prop} {P : α → Prop}
    {Q : β → Prop} {l : List α} {bs : List β} (h : List.Forall₂ R l bs)
    (hiff : ∀ a, ∀ b ∈ bs, R a b → (P a ↔ Q b)) :
  (∃ a ∈ l, P a) ↔ ∃ b ∈ bs, Q b
  := by
  induction h with
  | nil => simp
  | @cons a b l bs hab _ ih =>
      have htail := ih fun a' b' hb' => hiff a' b' (List.mem_cons_of_mem b hb')
      simp only [List.mem_cons, exists_eq_or_imp]
      rw [hiff a b List.mem_cons_self hab, htail]

/-- Two lists that are related elementwise to related lists are related. -/
theorem forall₂_of_forall₂ {α α' : Type u} {β β' : Type v} {R : α → β → Prop} {S : α → α' → Prop}
    {R' : α' → β' → Prop} {T : β → β' → Prop} {l : List α} {l' : List α'} {bs : List β}
    {bs' : List β'} (hR : List.Forall₂ R l bs) (hS : List.Forall₂ S l l')
    (hR' : List.Forall₂ R' l' bs') (hT : ∀ a a' b b', R a b → S a a' → R' a' b' → T b b') :
  List.Forall₂ T bs bs'
  := by
  induction hR generalizing l' bs' with
  | nil =>
      cases hS
      cases hR'
      exact List.Forall₂.nil
  | cons hab _ ih =>
      cases hS with
      | cons haa' hS =>
          cases hR' with
          | cons ha'b' hR' => exact List.Forall₂.cons (hT _ _ _ _ hab haa' ha'b') (ih hS hR')

/-- A relation along two lists gives another one that it implies for the members of the second. -/
theorem forall₂_imp_of_mem {α : Type u} {β : Type v} {R S : α → β → Prop} {l : List α} {bs : List β}
    (h : List.Forall₂ R l bs) (himp : ∀ a, ∀ b ∈ bs, R a b → S a b) :
  List.Forall₂ S l bs
  := by
  induction h with
  | nil => exact List.Forall₂.nil
  | cons hab _ ih =>
      apply List.Forall₂.cons (himp _ _ List.mem_cons_self hab)
      apply ih
      intro a b hb
      apply himp a b (List.mem_cons_of_mem _ hb)

/-! ### Loops that return early -/

/-- What a loop has collected when it is done: the values of the elements that have one.  Once there are
`limit` of them the loop is left, which is raised. -/
def collectUntil {α : Type u} {β : Type v} (limit : ℕ) (f : α → Option β) :
    List β → List α → Except (List β) (List β)
  | acc, [] => .ok acc
  | acc, a :: l =>
      match f a with
      | none => collectUntil limit f acc l
      | some b =>
          if limit ≤ acc.length + 1 then .error (acc ++ [b]) else collectUntil limit f (acc ++ [b]) l

/-- What a loop returns, early or not. -/
def collected {β : Type v} : Except (List β) (List β) → List β
  | .ok acc => acc
  | .error acc => acc

/-- A loop over two lists is a loop over the first and, unless it is left there, one over the second. -/
theorem collectUntil_append {α : Type u} {β : Type v} (limit : ℕ) (f : α → Option β) (l l' : List α)
    (acc : List β) :
  collectUntil limit f acc (l ++ l')
    = (collectUntil limit f acc l).bind fun acc => collectUntil limit f acc l'
  := by
  induction l generalizing acc with
  | nil => rfl
  | cons a l ih =>
      rw [List.cons_append, collectUntil, collectUntil]
      cases f a with
      | none => apply ih
      | some b =>
          dsimp only
          split
          · rfl
          · apply ih

/-- A loop that is left once there is enough returns the first values, as many as are asked for. -/
theorem collected_collectUntil {α : Type u} {β : Type v} {limit : ℕ} (f : α → Option β) (l : List α)
    {acc : List β} (hacc : acc.length < limit) :
  collected (collectUntil limit f acc l) = (acc ++ l.filterMap f).take limit
  := by
  induction l generalizing acc with
  | nil =>
      rw [collectUntil, collected, List.filterMap_nil, List.append_nil,
        List.take_of_length_le (Nat.le_of_lt hacc)]
  | cons a l ih =>
      rw [collectUntil, List.filterMap_cons]
      cases hf : f a with
      | none => apply ih hacc
      | some b =>
          dsimp only
          have hlength : (acc ++ [b]).length = acc.length + 1 := by
            rw [List.length_append, List.length_singleton]
          split
          · rename_i hfull
            have hlimit : limit = (acc ++ [b]).length := by
              rw [hlength]
              omega
            rw [collected, List.append_cons acc b (l.filterMap f), List.take_left' hlimit.symm]
          · rename_i hfull
            rw [ih (by omega), List.append_assoc, List.singleton_append]

/-- A loop in a loop that is left with it is one loop. -/
theorem foldlM_collectUntil {α : Type u} {β : Type v} {γ : Type u} (limit : ℕ) (f : α → Option β)
    (inner : γ → List α) (l : List γ) (acc : List β) :
  l.foldlM (fun acc c => collectUntil limit f acc (inner c)) acc
    = collectUntil limit f acc (l.flatMap inner)
  := by
  induction l generalizing acc with
  | nil => rfl
  | cons c l ih =>
      rw [List.foldlM_cons, List.flatMap_cons, collectUntil_append]
      cases collectUntil limit f acc (inner c) with
      | error acc' => rfl
      | ok acc' => apply ih

end List
