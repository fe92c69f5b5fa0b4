import Mathlib.Data.List.Basic

/-!
# Paths

Paths as strings, put together and taken apart as on a system whose separator is `/`.  A path leads
from place to place by its components, of which `..` leads to the directory above.
-/

namespace Path

/-- A path followed by another, which replaces it if it is absolute. -/
def join (path other : String) : String :=
  if other.toList.head? = some '/' ∨ path = "" then other
  else if path.toList.getLast? = some '/' then path ++ other
  else path ++ "/" ++ other

/-- A path ends as what is put after it does. -/
theorem getLast?_join (path : String) {other : String} (hother : other.toList ≠ []) :
  (join path other).toList.getLast? = other.toList.getLast?
  := by
  rw [join]
  split
  · rfl
  · split
    · rw [String.toList_append, List.getLast?_append_of_ne_nil _ hother]
    · rw [String.toList_append, List.getLast?_append_of_ne_nil _ hother]

/-- The characters up to and with the last separator, and those after it. -/
def splitLast (l : List Char) : List Char × List Char :=
  ((l.reverse.dropWhile (· ≠ '/')).reverse, (l.reverse.takeWhile (· ≠ '/')).reverse)

/-- The part of a path after the last separator. -/
def basename (path : String) : String :=
  String.ofList (splitLast path.toList).2

/-- The characters without the separators at their end. -/
def stripEnd (l : List Char) : List Char :=
  (l.reverse.dropWhile (· = '/')).reverse

/-- The part of a path before the last separator, without the separators at its end unless
it is made of nothing else. -/
def dirname (path : String) : String :=
  let head := (splitLast path.toList).1
  String.ofList (if stripEnd head = [] then head else stripEnd head)

/-- What comes up to the last separator ends with it. -/
theorem getLast?_splitLast (l : List Char) :
  (splitLast l).1 = [] ∨ (splitLast l).1.getLast? = some '/'
  := by
  have hhead := List.head?_dropWhile_not (fun c => decide (c ≠ '/')) l.reverse
  simp only [splitLast, List.getLast?_reverse]
  cases h : l.reverse.dropWhile fun c => decide (c ≠ '/') with
  | nil =>
      left
      rfl
  | cons c m =>
      right
      rw [h] at hhead
      simpa using hhead

/-- What comes up to the last separator is found again before a name without separators. -/
theorem splitLast_append {l name : List Char} (hl : l = [] ∨ l.getLast? = some '/')
    (hname : '/' ∉ name) :
  (splitLast (l ++ name)).1 = l
  := by
  have hdrop : ∀ m : List Char, '/' ∉ m → (m ++ l.reverse).dropWhile (· ≠ '/') = l.reverse := by
    intro m
    induction m with
    | nil =>
        intro _
        rcases hl with rfl | hlast
        · rfl
        · rw [← List.head?_reverse] at hlast
          obtain ⟨l', hl'⟩ := List.head?_eq_some_iff.mp hlast
          rw [hl']
          rfl
    | cons c m ih =>
        intro hm
        have hc : c ≠ '/' := fun h => hm (h ▸ List.mem_cons_self)
        rw [List.cons_append, List.dropWhile_cons, if_pos (by simpa using hc)]
        apply ih fun h => hm (List.mem_cons_of_mem _ h)
  have h := hdrop name.reverse (fun h => hname (List.mem_reverse.mp h))
  simp only [splitLast, List.reverse_append]
  rw [h, List.reverse_reverse]

/-- What comes up to the last separator and what comes after it make up the whole. -/
theorem splitLast_fst_append_snd (l : List Char) :
  (splitLast l).1 ++ (splitLast l).2 = l
  := by
  rw [splitLast, ← List.reverse_append, List.takeWhile_append_dropWhile, List.reverse_reverse]

/-- A name without separators is the last part of every path that it is put after. -/
theorem basename_join (path : String) {name : String} (hname : '/' ∉ name.toList) :
  basename (join path name) = name
  := by
  have hsplit : ∀ l : List Char, l = [] ∨ l.getLast? = some '/' →
      (splitLast (l ++ name.toList)).2 = name.toList := by
    intro l hl
    have hwhole := splitLast_fst_append_snd (l ++ name.toList)
    rw [splitLast_append hl hname] at hwhole
    apply List.append_cancel_left hwhole
  rw [basename, ← String.toList_inj, String.toList_ofList, join]
  split
  · apply hsplit [] (Or.inl rfl)
  · split
    · rename_i hlast
      rw [String.toList_append]
      apply hsplit _ (Or.inr hlast)
    · rw [String.toList_append, String.toList_append]
      apply hsplit
      right
      simp

/-- Characters without separators at their end do not end with one. -/
theorem getLast?_stripEnd (l : List Char) :
  (stripEnd l).getLast? ≠ some '/'
  := by
  have hhead := List.head?_dropWhile_not (fun c => decide (c = '/')) l.reverse
  rw [stripEnd, List.getLast?_reverse]
  intro h
  rw [h] at hhead
  simp at hhead

/-- Characters that do not end with a separator are left as they are. -/
theorem stripEnd_eq_self {l : List Char} (h : l.getLast? ≠ some '/') :
  stripEnd l = l
  := by
  have hdrop : l.reverse.dropWhile (fun c => decide (c = '/')) = l.reverse := by
    rw [← List.head?_reverse] at h
    cases hl : l.reverse with
    | nil => rfl
    | cons c m =>
        rw [hl] at h
        apply List.dropWhile_cons_of_neg
        simpa using h
  rw [stripEnd, hdrop, List.reverse_reverse]

/-- Taking the separators away from the end takes one more away. -/
theorem stripEnd_concat {l : List Char} (h : l.getLast? ≠ some '/') :
  stripEnd (l ++ ['/']) = l
  := by
  have hself := stripEnd_eq_self h
  rw [stripEnd] at hself ⊢
  rw [List.reverse_append, List.reverse_singleton, List.singleton_append,
    List.dropWhile_cons_of_pos (by simp), hself]

/-- A name without separators, put after the directory of a path, is in that directory. -/
theorem dirname_join_dirname (path : String) {name : String} (hname : '/' ∉ name.toList) :
  dirname (join (dirname path) name) = dirname path
  := by
  have hhead : name.toList.head? ≠ some '/' := fun h => hname (List.mem_of_mem_head? h)
  let head := (splitLast path.toList).1
  have hdirname : (dirname path).toList = if stripEnd head = [] then head else stripEnd head := by
    rw [dirname, String.toList_ofList]
  by_cases hstrip : stripEnd head = []
  · -- the directory is the root or there is none
    rw [if_pos hstrip] at hdirname
    have hjoin : (join (dirname path) name).toList = head ++ name.toList := by
      rcases getLast?_splitLast path.toList with hnil | hlast
      · have hempty : dirname path = "" := by
          rw [← String.toList_inj, hdirname]
          apply hnil
        rw [join, if_pos (Or.inr hempty)]
        change _ = (splitLast path.toList).1 ++ _
        rw [hnil, List.nil_append]
      · have hne : dirname path ≠ "" := by
          intro hempty
          rw [hempty] at hdirname
          change (splitLast path.toList).1.getLast? = some '/' at hlast
          rw [show (splitLast path.toList).1 = [] from hdirname.symm] at hlast
          cases hlast
        rw [join, if_neg (by simp [hhead, hne]), hdirname, if_pos hlast, String.toList_append, hdirname]
    have hsplit : (splitLast (join (dirname path) name).toList).1 = head := by
      rw [hjoin]
      apply splitLast_append (getLast?_splitLast path.toList) hname
    rw [← String.toList_inj, hdirname, dirname, String.toList_ofList, hsplit, if_pos hstrip]
  · rw [if_neg hstrip] at hdirname
    have hne : dirname path ≠ "" := by
      intro hempty
      rw [hempty] at hdirname
      apply hstrip hdirname.symm
    have hjoin : (join (dirname path) name).toList = stripEnd head ++ ['/'] ++ name.toList := by
      rw [join, if_neg (by simp [hhead, hne]), if_neg (by rw [hdirname]; apply getLast?_stripEnd),
        String.toList_append, String.toList_append, hdirname]
      rfl
    have hsplit : (splitLast (join (dirname path) name).toList).1 = stripEnd head ++ ['/'] := by
      rw [hjoin]
      apply splitLast_append (Or.inr (by simp)) hname
    rw [← String.toList_inj, hdirname, dirname, String.toList_ofList, hsplit,
      stripEnd_concat (getLast?_stripEnd head), if_neg hstrip]

/-! ### Components -/

/-- The components of a path that lead anywhere. -/
def steps (path : String) : List (List Char) :=
  (path.toList.splitOn '/').filter fun step => step ≠ [] ∧ step ≠ ['.']

/-- The component that leads to the directory above. -/
def up : List Char :=
  ['.', '.']

/-- `path` is one component below `directory`. -/
def DirectChild (directory path : String) : Prop :=
  ∃ step, step ≠ up ∧ steps path = steps directory ++ [step]

/-- The name is one component, which does not lead up. -/
def IsComponent (name : String) : Prop :=
  ∃ step, step ≠ up ∧ steps name = [step]

instance (name : String) : Decidable (IsComponent name) :=
  decidable_of_iff ((steps name).length = 1 ∧ up ∉ steps name)
    (by
      rw [IsComponent, List.length_eq_one_iff]
      constructor
      · rintro ⟨⟨step, hstep⟩, hup⟩
        rw [hstep, List.mem_singleton] at hup
        exact ⟨step, fun h => hup h.symm, hstep⟩
      · rintro ⟨step, hup, hstep⟩
        rw [hstep, List.mem_singleton]
        exact ⟨⟨step, rfl⟩, fun h => hup h.symm⟩)

/-- The components of a name below a directory. -/
theorem steps_below (directory name : String) :
  steps (directory ++ "/" ++ name) = steps directory ++ steps name
  := by
  have htext : (directory ++ "/" ++ name).toList = directory.toList ++ '/' :: name.toList := by
    simp
  rw [steps, htext, List.splitOn_append_cons_of_beq _ _ (beq_self_eq_true '/'), List.filter_append]
  rfl

/-- What is below a directory under a name is one component below it exactly when the name is one
component. -/
theorem directChild_iff {directory name : String} :
  DirectChild directory (directory ++ "/" ++ name) ↔ IsComponent name
  := by
  rw [DirectChild, IsComponent, steps_below]
  simp only [List.append_cancel_left_eq]

/-- Where a component leads from a place. -/
def move (location : List (List Char)) (step : List Char) : List (List Char) :=
  if step = up then location.dropLast else location ++ [step]

/-- The place that a path leads to. -/
def resolve (path : String) : List (List Char) :=
  (steps path).foldl move []

example : dirname "/volume1/media/a.txt" = "/volume1/media" := by decide

example : join (dirname "/a.txt") (basename "/a.txt") = "/a.txt" := by decide

example : resolve "/volume1/../etc/./x" = ["etc".toList, ['x']] := by decide

end Path
