import Mathlib.Data.Int.Notation
import Mathlib.Data.List.Basic
import Mathlib.Data.List.TakeWhile
import Mathlib.Tactic.IntervalCases

/-!
# Text as lists of characters

The operations on text that line-oriented formats are read with: splitting at a separator
is `List.splitOn`; `splitFirst` splits at the first separator only; `records` reads text
whose records are each ended by a separator; `splitlines` splits at every kind of line
boundary and not only the newline; `strip` trims whitespace and `int` reads a decimal
integer.
-/

namespace Text

variable {α : Type*} [DecidableEq α]

/-- The parts of a list before and after the first separator, if there is one. -/
def splitFirst (sep : α) : List α → Option (List α × List α)
  | [] => none
  | a :: l => if a = sep then some ([], l) else (splitFirst sep l).map fun p => (a :: p.1, p.2)

/-- A separator right after a part without one is the first. -/
theorem splitFirst_append {sep : α} {a : List α} (h : sep ∉ a) (b : List α) :
  splitFirst sep (a ++ sep :: b) = some (a, b)
  := by
  induction a with
  | nil => simp [splitFirst]
  | cons c a ih =>
      have hc : c ≠ sep := fun e => h (e ▸ List.mem_cons_self)
      have ha : sep ∉ a := fun m => h (List.mem_cons_of_mem _ m)
      simp [splitFirst, hc, ih ha]

/-- The two parts of a list around its first separator make it up again. -/
theorem eq_of_splitFirst {sep : α} {l a b : List α} (h : splitFirst sep l = some (a, b)) :
  l = a ++ sep :: b
  := by
  induction l generalizing a with
  | nil => cases h
  | cons c l ih =>
      rw [splitFirst] at h
      split at h
      · cases h
        subst c
        rfl
      · obtain ⟨⟨a', b'⟩, hl, hp⟩ := Option.map_eq_some_iff.mp h
        cases hp
        rw [ih hl, List.cons_append]

/-- There is no separator before the first. -/
theorem not_mem_of_splitFirst {sep : α} {l a b : List α} (h : splitFirst sep l = some (a, b)) :
  sep ∉ a
  := by
  induction l generalizing a with
  | nil => cases h
  | cons c l ih =>
      rw [splitFirst] at h
      split at h
      · cases h
        apply List.not_mem_nil
      · rename_i hc
        obtain ⟨⟨a', b'⟩, hl, hp⟩ := Option.map_eq_some_iff.mp h
        cases hp
        rw [List.mem_cons]
        rintro (hmem | hmem)
        · apply hc hmem.symm
        · apply ih hl hmem

/-- Splitting at a separator that does not occur splits nothing; otherwise it gives
several pieces. -/
theorem splitOn_length_eq_one_iff {sep : α} {l : List α} :
  (l.splitOn sep).length = 1 ↔ sep ∉ l
  := by
  constructor
  · intro h hmem
    obtain ⟨a, b, rfl⟩ := List.append_of_mem hmem
    rw [List.splitOn_append_cons_of_beq a b (beq_self_eq_true sep), List.length_append] at h
    have ha := List.length_pos_of_ne_nil (List.splitOn_ne_nil sep a)
    have hb := List.length_pos_of_ne_nil (List.splitOn_ne_nil sep b)
    omega
  · intro h
    rw [List.splitOn_eq_singleton h]
    rfl

/-- Splitting pieces that the separator joins splits each of the pieces. -/
theorem splitOn_intercalate {sep : α} {ls : List (List α)} (h : ls ≠ []) :
  ([sep].intercalate ls).splitOn sep = ls.flatMap fun l => l.splitOn sep
  := by
  induction ls with
  | nil => contradiction
  | cons l ls ih =>
      rw [List.flatMap_cons]
      by_cases hls : ls = []
      · subst hls
        simp
      · rw [List.intercalate_cons_of_ne_nil hls, ← ih hls, List.append_assoc]
        apply List.splitOn_append_cons_of_beq _ _ (beq_self_eq_true sep)

/-- Pieces without the separator, each ended by it, are split into themselves and an empty piece after
the last. -/
theorem splitOn_flatMap {sep : α} {ls : List (List α)} (h : ∀ l ∈ ls, sep ∉ l) :
  (ls.flatMap fun l => l ++ [sep]).splitOn sep = ls ++ [[]]
  := by
  induction ls with
  | nil => rfl
  | cons l ls ih =>
      have hl := List.splitOn_eq_singleton (h l List.mem_cons_self)
      rw [List.flatMap_cons, List.append_assoc, List.singleton_append,
        List.splitOn_append_cons_of_beq _ _ (beq_self_eq_true sep), hl,
        ih fun l' hl' => h l' (List.mem_cons_of_mem _ hl')]
      rfl

/-- The pieces have no separators in them. -/
theorem not_mem_of_mem_splitOn {sep : α} {l piece : List α} (h : piece ∈ l.splitOn sep) :
  sep ∉ piece
  := by
  induction hn : l.length using Nat.strong_induction_on generalizing l with
  | _ n ih =>
      by_cases hsep : sep ∈ l
      · obtain ⟨a, b, rfl⟩ := List.append_of_mem hsep
        rw [List.splitOn_append_cons_of_beq a b (beq_self_eq_true sep), List.mem_append] at h
        rw [List.length_append, List.length_cons] at hn
        rcases h with h | h
        · apply ih _ (by omega) h rfl
        · apply ih _ (by omega) h rfl
      · rw [List.splitOn_eq_singleton hsep, List.mem_singleton] at h
        rw [h]
        apply hsep

omit [DecidableEq α] in
/-- What is in joined pieces is the separator or in one of the pieces. -/
theorem mem_intercalate {sep a : α} {ls : List (List α)} (h : a ∈ [sep].intercalate ls) :
  a = sep ∨ ∃ l ∈ ls, a ∈ l
  := by
  induction ls with
  | nil => cases h
  | cons l ls ih =>
      by_cases hls : ls = []
      · subst hls
        rw [List.intercalate_singleton] at h
        right
        use l, List.mem_cons_self
      · rw [List.intercalate_cons_of_ne_nil hls, List.append_assoc, List.mem_append,
          List.mem_append, List.mem_singleton] at h
        rcases h with h | rfl | h
        · right
          use l, List.mem_cons_self
        · left
          rfl
        · rcases ih h with h | ⟨l', hl', h⟩
          · left
            apply h
          · right
            use l', List.mem_cons_of_mem _ hl'

/-- The records of a text in which each record is ended by `sep`; what follows the last
separator counts as a record only if there is something there. -/
def records (sep : α) (l : List α) : List (List α) :=
  if (l.splitOn sep).getLast? = some [] then (l.splitOn sep).dropLast else l.splitOn sep

/-- The records of a text ended by a separator are the pieces before it. -/
theorem records_append_sep (sep : α) (l : List α) :
  records sep (l ++ [sep]) = l.splitOn sep
  := by
  have h : (l ++ [sep]).splitOn sep = l.splitOn sep ++ [[]] := by
    rw [List.splitOn_append_cons_of_beq l [] (beq_self_eq_true sep), List.splitOn_nil]
  rw [records, h]
  simp

/-- A text ended by a separator has a single record exactly when the separator does not
occur before the end. -/
theorem records_append_sep_length {sep : α} {l : List α} :
  (records sep (l ++ [sep])).length = 1 ↔ sep ∉ l
  := by
  rw [records_append_sep]
  apply splitOn_length_eq_one_iff

/-! ### Characters -/

/-- The characters that count as whitespace when text is trimmed. -/
def isSpace (c : Char) : Bool :=
  (0x09 ≤ c.val && c.val ≤ 0x0d) || (0x1c ≤ c.val && c.val ≤ 0x20) || c.val == 0x85
    || c.val == 0xa0 || c.val == 0x1680 || (0x2000 ≤ c.val && c.val ≤ 0x200a)
    || c.val == 0x2028 || c.val == 0x2029 || c.val == 0x202f || c.val == 0x205f
    || c.val == 0x3000

/-- The text without the whitespace at its two ends. -/
def strip (l : List Char) : List Char :=
  ((l.dropWhile isSpace).reverse.dropWhile isSpace).reverse

/-- Trimming adds no character. -/
theorem mem_of_mem_strip {c : Char} {l : List Char} (h : c ∈ strip l) :
  c ∈ l
  := by
  rw [strip, List.mem_reverse] at h
  apply (List.dropWhile_sublist _).subset
  apply List.mem_reverse.mp
  apply (List.dropWhile_sublist _).subset h

/-- Nothing is left of a text exactly if it is made of whitespace. -/
theorem strip_eq_nil_iff {l : List Char} :
  strip l = [] ↔ ∀ c ∈ l, isSpace c = true
  := by
  rw [strip, List.reverse_eq_nil_iff, List.dropWhile_eq_nil_iff]
  simp only [List.mem_reverse]
  constructor
  · intro h c hc
    cases hdrop : l.dropWhile isSpace with
    | nil => exact List.dropWhile_eq_nil_iff.mp hdrop c hc
    | cons d rest =>
        have hhead := List.head?_dropWhile_not isSpace l
        rw [hdrop] at h hhead
        simp [h d List.mem_cons_self] at hhead
  · intro h c hc
    exact h c ((List.dropWhile_sublist _).subset hc)

/-- The characters that end a line. -/
def isLineBreak (c : Char) : Bool :=
  (0x0a ≤ c.val && c.val ≤ 0x0d) || (0x1c ≤ c.val && c.val ≤ 0x1e) || c.val == 0x85
    || c.val == 0x2028 || c.val == 0x2029

/-- The lines of a text that starts in the middle of a line. -/
def linesAfter (line : List Char) : List Char → List (List Char)
  | [] => if line = [] then [] else [line]
  | '\r' :: '\n' :: l => line :: linesAfter [] l
  | c :: l => if isLineBreak c then line :: linesAfter [] l else linesAfter (line ++ [c]) l

/-- The lines of a text, without their ends. -/
def splitlines (l : List Char) : List (List Char) :=
  linesAfter [] l

/-- The number that digits denote when read after those that make up `n`; a single
underscore may stand before a digit. -/
def intDigits (n : ℕ) : List Char → Option ℕ
  | [] => some n
  | '_' :: c :: l => if c.isDigit then intDigits (10 * n + (c.toNat - '0'.toNat)) l else none
  | c :: l => if c.isDigit then intDigits (10 * n + (c.toNat - '0'.toNat)) l else none

/-- The number an unsigned decimal numeral denotes, if the text is one. -/
def intNat : List Char → Option ℕ
  | c :: l => if c.isDigit then intDigits 0 (c :: l) else none
  | [] => none

/-- The integer a decimal numeral denotes, with whitespace around it and a sign before
it allowed.  Only the ASCII digits are digits here, and a numeral may have any number of them. -/
def int (l : List Char) : Option ℤ :=
  match strip l with
  | '-' :: l => (intNat l).map fun n : ℕ => -(n : ℤ)
  | '+' :: l => (intNat l).map fun n : ℕ => (n : ℤ)
  | l => (intNat l).map fun n : ℕ => (n : ℤ)

/-- Digits denote the number they are the digits of. -/
theorem intDigits_of_isDigit {l : List Char} (h : ∀ c ∈ l, c.isDigit = true) (n : ℕ) :
  intDigits n l = some (Nat.ofDigitChars 10 l n)
  := by
  induction l generalizing n with
  | nil => simp [intDigits]
  | cons c l ih =>
      have hc : c.isDigit = true := h c List.mem_cons_self
      have hl : ∀ d ∈ l, d.isDigit = true := fun d hd => h d (List.mem_cons_of_mem _ hd)
      have hne : c ≠ '_' := by
        rintro rfl
        cases hc
      rw [intDigits.eq_def]
      split
      · contradiction
      · rename_i heq
        cases heq
        contradiction
      · rename_i heq
        cases heq
        rw [if_pos hc, ih hl, Nat.ofDigitChars_cons]

/-- The decimal numeral of a natural number denotes it. -/
theorem intNat_toDigits (n : ℕ) :
  intNat (Nat.toDigits 10 n) = some n
  := by
  have hdigits : ∀ c ∈ Nat.toDigits 10 n, c.isDigit = true := fun c hc =>
    Nat.isDigit_of_mem_toDigits (by decide) (by decide) hc
  have hint := intDigits_of_isDigit hdigits 0
  rw [Nat.ofDigitChars_ten_toDigits] at hint
  cases h : Nat.toDigits 10 n with
  | nil => apply absurd h Nat.toDigits_ne_nil
  | cons c l =>
      rw [h] at hdigits hint
      rw [intNat, if_pos (hdigits c List.mem_cons_self), hint]

/-- The number that digits and nothing else denote. -/
def decimal (l : List Char) : Option ℕ :=
  if l ≠ [] ∧ l.all Char.isDigit then some (Nat.ofDigitChars 10 l 0) else none

/-- The decimal numeral of a natural number is digits and nothing else. -/
theorem decimal_toDigits (n : ℕ) :
  decimal (Nat.toDigits 10 n) = some n
  := by
  have hdigits : (Nat.toDigits 10 n).all Char.isDigit = true := by
    rw [List.all_eq_true]
    intro c hc
    apply Nat.isDigit_of_mem_toDigits (by decide) (by decide) hc
  rw [decimal, if_pos ⟨Nat.toDigits_ne_nil, hdigits⟩, Nat.ofDigitChars_ten_toDigits]

/-- Text that neither starts nor ends with whitespace is left as it is. -/
theorem strip_eq_self {l : List Char} (hhead : ∀ c ∈ l.head?, isSpace c = false)
    (hlast : ∀ c ∈ l.getLast?, isSpace c = false) :
  strip l = l
  := by
  have hdrop : ∀ l : List Char, (∀ c ∈ l.head?, isSpace c = false) → l.dropWhile isSpace = l := by
    intro l h
    cases l with
    | nil => rfl
    | cons c l => simp [h c rfl]
  rw [strip, hdrop l hhead, hdrop, List.reverse_reverse]
  intro c hc
  rw [List.head?_reverse] at hc
  apply hlast c hc

theorem isSpace_of_isDigit {c : Char} (h : c.isDigit = true) :
  isSpace c = false
  := by
  have hall : ∀ n, 48 ≤ n → n ≤ 57 → isSpace (Char.ofNat n) = false := by
    intro n h₁ h₂
    interval_cases n
    all_goals decide
  simp only [Char.isDigit, Bool.and_eq_true, decide_eq_true_eq] at h
  have hc := hall c.toNat h.1 h.2
  rw [Char.ofNat_toNat] at hc
  apply hc

/-- The decimal numeral of a natural number is read as it. -/
theorem int_toDigits (n : ℕ) :
  int (Nat.toDigits 10 n) = some n
  := by
  have hdigits : ∀ c ∈ Nat.toDigits 10 n, c.isDigit = true := fun c hc =>
    Nat.isDigit_of_mem_toDigits (by decide) (by decide) hc
  have hstrip := strip_eq_self
    (fun c hc => isSpace_of_isDigit (hdigits c (List.mem_of_mem_head? hc)))
    (fun c hc => isSpace_of_isDigit (hdigits c (List.mem_of_mem_getLast? hc)))
  have hint := intNat_toDigits n
  rw [int, hstrip]
  cases h : Nat.toDigits 10 n with
  | nil => apply absurd h Nat.toDigits_ne_nil
  | cons c l =>
      have hc := hdigits c (h ▸ List.mem_cons_self)
      rw [h] at hint
      split
      · rename_i heq
        cases heq
        cases hc
      · rename_i heq
        cases heq
        cases hc
      · rw [hint]
        rfl

/-- What `str` gives on a natural number is read as it. -/
theorem int_toString (n : ℕ) :
  int (toString n).toList = some (n : ℤ)
  := by
  have hdigits : (toString n).toList = Nat.toDigits 10 n := String.toList_ofList
  rw [hdigits, int_toDigits]
  rfl

/-- Lines without line boundaries in them, each ended by a newline, are split into
themselves. -/
theorem splitlines_flatMap {ls : List (List Char)}
    (h : ∀ l ∈ ls, ∀ c ∈ l, isLineBreak c = false) :
  splitlines (ls.flatMap fun l => l ++ ['\n']) = ls
  := by
  have hline : ∀ (l line rest : List Char), (∀ c ∈ l, isLineBreak c = false) →
      linesAfter line (l ++ '\n' :: rest) = (line ++ l) :: linesAfter [] rest := by
    intro l
    induction l with
    | nil =>
        intro line rest _
        rw [List.nil_append, List.append_nil]
        rfl
    | cons c l ih =>
        intro line rest hl
        have hc := hl c List.mem_cons_self
        have hne : c ≠ '\r' := by
          rintro rfl
          cases hc
        have hl' : ∀ d ∈ l, isLineBreak d = false := fun d hd =>
          hl d (List.mem_cons_of_mem _ hd)
        rw [List.cons_append, linesAfter.eq_def]
        split
        · contradiction
        · rename_i heq
          apply absurd (List.cons.inj heq).1 hne
        · rename_i heq
          obtain ⟨rfl, rfl⟩ := List.cons.inj heq
          rw [if_neg (by simp [hc]), ih _ _ hl', List.append_assoc]
          rfl
  induction ls with
  | nil => rfl
  | cons l ls ih =>
      rw [splitlines, List.flatMap_cons, List.append_assoc]
      apply Eq.trans (hline l [] _ (h l List.mem_cons_self))
      rw [List.nil_append]
      congr 1
      apply ih fun l' hl' => h l' (List.mem_cons_of_mem _ hl')

/-! ### Quoted texts -/

/-- A character of a quoted text; a character beyond ASCII is taken to be printable. -/
def reprChar (quote c : Char) : List Char :=
  if c = quote ∨ c = '\\' then ['\\', c]
  else if c = '\n' then ['\\', 'n']
  else if c = '\r' then ['\\', 'r']
  else if c = '\t' then ['\\', 't']
  else if c.toNat < 0x20 ∨ c.toNat = 0x7f then
    ['\\', 'x', Nat.digitChar (c.toNat / 16), Nat.digitChar (c.toNat % 16)]
  else [c]

/-- What `repr` gives on a text: it is quoted by apostrophes, unless only apostrophes are in it. -/
def repr (l : List Char) : List Char :=
  let apostrophe := Char.ofNat 39
  let quote := if apostrophe ∈ l ∧ '"' ∉ l then '"' else apostrophe
  quote :: l.flatMap (reprChar quote) ++ [quote]

end Text

namespace String

/-- `Text.strip` on strings. -/
def strip (s : String) : String :=
  String.ofList (Text.strip s.toList)

/-- A string, or another where it is empty. -/
def orElse (s t : String) : String :=
  if s = "" then t else s

end String

