import NasOs.Library.Text

/-!
# Words

The words of a text are its parts between whitespace of any kind.  A file that is opened as text has its
lines ended by newlines, whatever ends them in the file.
-/

namespace Text

/-- The words of a text that starts in the middle of a word. -/
def wordsAfter (word : List Char) : List Char → List (List Char)
  | [] => if word = [] then [] else [word]
  | c :: l =>
      if isSpace c then (if word = [] then wordsAfter [] l else word :: wordsAfter [] l)
      else wordsAfter (word ++ [c]) l

/-- `split` without a separator: the words of a text. -/
def words (l : List Char) : List (List Char) :=
  wordsAfter [] l

/-- A text as it is read from a file that is opened as text. -/
def universalNewlines : List Char → List Char
  | [] => []
  | '\r' :: '\n' :: l => '\n' :: universalNewlines l
  | c :: l => (if c = '\r' then '\n' else c) :: universalNewlines l

/-- There is no whitespace in a word. -/
theorem of_mem_words {l word : List Char} (h : word ∈ words l) :
  ∀ c ∈ word, isSpace c = false
  := by
  have hafter : ∀ (l before : List Char), (∀ c ∈ before, isSpace c = false) →
      ∀ word ∈ wordsAfter before l, ∀ c ∈ word, isSpace c = false := by
    intro l
    induction l with
    | nil =>
        intro before hbefore word hword
        rw [wordsAfter] at hword
        split at hword
        · cases hword
        · rw [List.mem_singleton.mp hword]
          exact hbefore
    | cons c l ih =>
        intro before hbefore word hword
        rw [wordsAfter] at hword
        split at hword
        · split at hword
          · exact ih [] (by simp) word hword
          · rcases List.mem_cons.mp hword with rfl | hword
            · exact hbefore
            · exact ih [] (by simp) word hword
        · rename_i hc
          apply ih (before ++ [c]) _ word hword
          intro d hd
          rcases List.mem_append.mp hd with hd | hd
          · exact hbefore d hd
          · rw [List.mem_singleton.mp hd]
            exact Bool.eq_false_iff.mpr hc
  exact hafter l [] (by simp) word h

/-- A word that is ended by a space is the first. -/
theorem words_append_space {word : List Char} (hne : word ≠ []) (h : ∀ c ∈ word, isSpace c = false)
    (l : List Char) :
  words (word ++ ' ' :: l) = word :: words l
  := by
  have hafter : ∀ (word before : List Char), before ++ word ≠ [] → (∀ c ∈ word, isSpace c = false) →
      wordsAfter before (word ++ ' ' :: l) = (before ++ word) :: words l := by
    intro word
    induction word with
    | nil =>
        intro before hne _
        rw [List.append_nil] at hne
        rw [List.nil_append, wordsAfter, if_pos (by decide), if_neg hne, List.append_nil]
        rfl
    | cons c word ih =>
        intro before _ hword
        rw [List.cons_append, wordsAfter, if_neg (by simp [hword c List.mem_cons_self]),
          ih (before ++ [c]) (by simp) fun d hd => hword d (List.mem_cons_of_mem _ hd)]
        simp
  exact hafter word [] hne h

/-- Without carriage returns, the lines are ended by newlines already. -/
theorem universalNewlines_eq_self {l : List Char} (h : '\r' ∉ l) :
  universalNewlines l = l
  := by
  induction l using universalNewlines.induct with
  | case1 => rfl
  | case2 l ih => simp at h
  | case3 c l _ ih =>
      rw [List.mem_cons, not_or] at h
      rw [universalNewlines, if_neg (fun heq => h.1 heq.symm), ih h.2]
      assumption

/-- The records of pieces that are each ended by a separator are these pieces. -/
theorem records_flatMap {α : Type*} [DecidableEq α] {sep : α} {ls : List (List α)}
    (h : ∀ l ∈ ls, sep ∉ l) :
  records sep (ls.flatMap fun l => l ++ [sep]) = ls
  := by
  rw [records, splitOn_flatMap h]
  simp

end Text
