import Mathlib.Data.List.Basic
import Mathlib.Data.Option.Basic

/-!
# Rose trees

A rose tree has a value at its root and any number of trees below it.  `subtrees` lists a
tree and everything below it, parents first; `firstSome f` is the first value that `f`
finds in that order; `map g` replaces the value at every node by what `g` makes of it, and
`annotate g` by what `g` makes of the tree that hangs there.
-/

universe u v

/-- A tree with a value at its root and a list of trees below it. -/
inductive RoseTree (α : Type u) : Type u where
  | node (value : α) (children : List (RoseTree α))

namespace RoseTree

variable {α : Type u} {β : Type v}

/-- The value at the root. -/
def value : RoseTree α → α
  | node a _ => a

/-- The trees below the root. -/
def children : RoseTree α → List (RoseTree α)
  | node _ ts => ts

mutual

/-- The tree and all trees below it, parents first. -/
def subtrees : RoseTree α → List (RoseTree α)
  | node a ts => node a ts :: subtreesOf ts

/-- The subtrees of the trees of a list. -/
def subtreesOf : List (RoseTree α) → List (RoseTree α)
  | [] => []
  | t :: ts => subtrees t ++ subtreesOf ts

end

mutual

/-- The first value that `f` finds, at the root or else in the trees below it. -/
def firstSome (f : α → Option β) : RoseTree α → Option β
  | node a ts => (f a).or (firstSomeOf f ts)

/-- The first value that `f` finds in the trees of a list. -/
def firstSomeOf (f : α → Option β) : List (RoseTree α) → Option β
  | [] => none
  | t :: ts => (firstSome f t).or (firstSomeOf f ts)

end

mutual

/-- Replace the value at every node by what `g` makes of the tree there. -/
def annotate (g : RoseTree α → α) : RoseTree α → RoseTree α
  | node a ts => node (g (node a ts)) (annotateAll g ts)

/-- Annotate the trees of a list. -/
def annotateAll (g : RoseTree α → α) : List (RoseTree α) → List (RoseTree α)
  | [] => []
  | t :: ts => annotate g t :: annotateAll g ts

end

mutual

/-- Replace the value at every node by what `g` makes of it. -/
def map (g : α → β) : RoseTree α → RoseTree β
  | node a ts => node (g a) (mapAll g ts)

/-- Replace the values in the trees of a list. -/
def mapAll (g : α → β) : List (RoseTree α) → List (RoseTree β)
  | [] => []
  | t :: ts => map g t :: mapAll g ts

end

/-- Induction over a tree with the hypothesis for each of the trees below its root. -/
theorem induction {P : RoseTree α → Prop} (h : ∀ a ts, (∀ t ∈ ts, P t) → P (node a ts)) :
    ∀ t, P t
  | node a ts => h a ts (below ts)
where
  below : ∀ (ts : List (RoseTree α)), ∀ t ∈ ts, P t
  | [], _, ht => absurd ht List.not_mem_nil
  | s :: ts, t, ht => by
      rcases List.mem_cons.mp ht with hts | hts
      · rw [hts]
        apply induction h s
      · apply below ts t hts

@[simp]
theorem value_node (a : α) (ts : List (RoseTree α)) :
  (node a ts).value = a
  := rfl

/-- The subtrees of a list of trees are those of its members. -/
theorem mem_subtreesOf {s : RoseTree α} {ts : List (RoseTree α)} :
  s ∈ subtreesOf ts ↔ ∃ t ∈ ts, s ∈ t.subtrees
  := by
  induction ts with
  | nil => simp [subtreesOf]
  | cons t ts ih => simp [subtreesOf, ih]

/-- A subtree is the tree itself or lies in one of the trees below its root. -/
theorem mem_subtrees_node {s : RoseTree α} {a : α} {ts : List (RoseTree α)} :
  s ∈ (node a ts).subtrees ↔ s = node a ts ∨ ∃ t ∈ ts, s ∈ t.subtrees
  := by
  rw [subtrees, List.mem_cons, mem_subtreesOf]

/-- A tree is one of its subtrees. -/
theorem self_mem_subtrees (t : RoseTree α) :
  t ∈ t.subtrees
  := by
  cases t with
  | node a ts => apply List.mem_cons_self

/-- A subtree of a subtree is a subtree. -/
theorem mem_subtrees_trans {r s : RoseTree α} (hrs : r ∈ s.subtrees) :
    ∀ {t : RoseTree α}, s ∈ t.subtrees → r ∈ t.subtrees
  := by
  intro t
  induction t using induction with
  | h a ts ih =>
      intro hst
      rcases mem_subtrees_node.mp hst with rfl | ⟨t, ht, hst⟩
      · apply hrs
      · apply mem_subtrees_node.mpr
        right
        use t, ht
        apply ih t ht hst

/-- Something is found in a list of trees when it is found in one of them. -/
theorem firstSomeOf_isSome {f : α → Option β} {ts : List (RoseTree α)} :
  (firstSomeOf f ts).isSome ↔ ∃ t ∈ ts, (t.firstSome f).isSome
  := by
  induction ts with
  | nil => simp [firstSomeOf]
  | cons t ts ih => simp [firstSomeOf, ih]

/-- Something is found in a tree exactly when it is found at one of its subtrees. -/
theorem firstSome_isSome {f : α → Option β} {t : RoseTree α} :
  (t.firstSome f).isSome ↔ ∃ s ∈ t.subtrees, (f s.value).isSome
  := by
  induction t using induction with
  | h a ts ih =>
      rw [firstSome, Option.isSome_or, Bool.or_eq_true, firstSomeOf_isSome]
      constructor
      · rintro (ha | ⟨t, ht, hsome⟩)
        · use node a ts, self_mem_subtrees _, ha
        · obtain ⟨s, hs, hf⟩ := (ih t ht).mp hsome
          use s, mem_subtrees_node.mpr (Or.inr ⟨t, ht, hs⟩), hf
      · rintro ⟨s, hs, hf⟩
        rcases mem_subtrees_node.mp hs with rfl | ⟨t, ht, hs⟩
        · left
          apply hf
        · right
          use t, ht
          apply (ih t ht).mpr ⟨s, hs, hf⟩

theorem mapAll_eq_map (g : α → β) (ts : List (RoseTree α)) :
  mapAll g ts = ts.map (map g)
  := by
  induction ts with
  | nil => rfl
  | cons t ts ih => rw [mapAll, ih, List.map_cons]

theorem annotateAll_eq_map (g : RoseTree α → α) (ts : List (RoseTree α)) :
  annotateAll g ts = ts.map (annotate g)
  := by
  induction ts with
  | nil => rfl
  | cons t ts ih => rw [annotateAll, ih, List.map_cons]

/-- Annotating a list of trees annotates each of their subtrees. -/
theorem subtreesOf_map_annotate {g : RoseTree α → α} {ts : List (RoseTree α)}
    (h : ∀ t ∈ ts, (annotate g t).subtrees = t.subtrees.map (annotate g)) :
  subtreesOf (ts.map (annotate g)) = (subtreesOf ts).map (annotate g)
  := by
  induction ts with
  | nil => rfl
  | cons t ts ih =>
      rw [List.map_cons, subtreesOf, subtreesOf, List.map_append]
      rw [h t List.mem_cons_self, ih fun t ht => h t (List.mem_cons_of_mem _ ht)]

/-- The subtrees of an annotated tree are the annotated subtrees. -/
theorem subtrees_annotate (g : RoseTree α → α) (t : RoseTree α) :
  (annotate g t).subtrees = t.subtrees.map (annotate g)
  := by
  induction t using induction with
  | h a ts ih =>
      rw [annotate, subtrees, subtrees, List.map_cons, annotate, annotateAll_eq_map]
      rw [subtreesOf_map_annotate ih]

@[simp]
theorem value_annotate (g : RoseTree α → α) (t : RoseTree α) :
  (annotate g t).value = g t
  := by
  cases t with
  | node a ts => rfl

end RoseTree
