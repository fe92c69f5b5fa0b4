import Mathlib.Data.List.Basic

/-!
# Data flow in a list of steps

A step takes some things and makes others.  A list of steps is supplied when each of its steps takes only
what was there at first and what the steps before it make.
-/

namespace DataFlow

variable {α β : Type} (takes makes : α → List β)

/-- Each step takes what was made before it; `made` is what is there at first. -/
def Supplied : List β → List α → Prop
  | _, [] => True
  | made, a :: l => (∀ x ∈ takes a, x ∈ made) ∧ Supplied (made ++ makes a) l

variable {takes makes} {made made' : List β} {l l' : List α}

/-- Steps remain supplied when there is more at first. -/
theorem Supplied.mono (h : Supplied takes makes made l) (hmade : made ⊆ made') :
  Supplied takes makes made' l
  := by
  induction l generalizing made made' with
  | nil => trivial
  | cons a l ih =>
      constructor
      · intro x hx
        apply hmade (h.1 x hx)
      · apply ih h.2
        apply List.append_subset.mpr
        constructor
        · apply List.subset_append_of_subset_left _ hmade
        · apply List.subset_append_right

/-- Steps after others are supplied by them. -/
theorem Supplied.append (h : Supplied takes makes made l)
    (h' : Supplied takes makes (made ++ l.flatMap makes) l') :
  Supplied takes makes made (l ++ l')
  := by
  induction l generalizing made with
  | nil =>
      rw [List.flatMap_nil, List.append_nil] at h'
      apply h'
  | cons a l ih =>
      constructor
      · apply h.1
      · apply ih h.2
        rw [List.append_assoc]
        apply h'

/-- Steps that take nothing are supplied. -/
theorem supplied_of_takes_nil (h : ∀ a ∈ l, takes a = []) :
  Supplied takes makes made l
  := by
  induction l generalizing made with
  | nil => trivial
  | cons a l ih =>
      obtain ⟨ha, hl⟩ := List.forall_mem_cons.mp h
      constructor
      · rw [ha]
        rintro x ⟨⟩
      · apply ih hl

/-- What a step takes was there at first or is made by an earlier step. -/
theorem Supplied.exists_maker (h : Supplied takes makes made l) {before after : List α} {a : α}
    (hl : l = before ++ a :: after) {x : β} (hx : x ∈ takes a) :
  x ∈ made ∨ ∃ b ∈ before, x ∈ makes b
  := by
  induction before generalizing made l with
  | nil =>
      subst hl
      left
      apply h.1 x hx
  | cons b before ih =>
      subst hl
      rcases ih h.2 rfl with hmade | ⟨b', hb', hmakes⟩
      · rcases List.mem_append.mp hmade with hmade | hmakes
        · left
          apply hmade
        · right
          use b, List.mem_cons_self
      · right
        use b', List.mem_cons_of_mem b hb'

end DataFlow
