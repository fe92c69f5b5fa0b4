import Mathlib.Data.List.Nodup
import NasOs.Library.Text
import NasOs.Rpc.Dispatcher

/-!
# The progress of an array

`resync_percent` scans the lines of `/proc/mdstat` for the line of an array, and from there on for a
percentage, until a line that is blank or not indented.  It looks for the percentage in that last
line too, which is the first line of the next array if no empty line is between them; it does not look
in the line with the name of the array itself.

Hence what it tells is the percentage of the array if and only if the first numeral that it comes upon is
a number, and the lines that it does not look at, and the one after the block, do not tell otherwise.
-/

/-- What the language leaves open about numbers: the characters that count as decimal digits, and `float` of
a text, if it does not raise. -/
structure PythonNumbers (F : Type) where
  isDecimal : Char → Bool
  float : List Char → Option F

namespace Mdadm

variable {F : Type} (py : PythonNumbers F)

/-- The numeral of `resync\s*=\s*([\d.]+)%` where it matches the beginning of a text. -/
def resyncAt (l : List Char) : Option (List Char) :=
  if "resync".toList <+: l then
    match (l.drop "resync".toList.length).dropWhile Text.isSpace with
    | '=' :: l =>
        let l := l.dropWhile Text.isSpace
        let numeral := l.takeWhile fun c => py.isDecimal c || c == '.'
        if numeral ≠ [] ∧ (l.drop numeral.length).head? = some '%' then some numeral else none
    | _ => none
  else none

/-- `_RESYNC_RE.search`: the numeral of the first match. -/
def resyncSearch : List Char → Option (List Char)
  | [] => none
  | c :: l => (resyncAt py (c :: l)).or (resyncSearch l)

/-- The line is that of the array. -/
def isLineOf (arrayName line : List Char) : Bool :=
  (arrayName ++ [' ']).isPrefixOf line || (arrayName ++ [':']).isPrefixOf line

/-- The loop of `resync_percent`. -/
def resyncLoop (arrayName : List Char) : Bool → List (List Char) → Except Exc (Option F)
  | _, [] => .ok none
  | inArray, line :: lines =>
      if isLineOf arrayName line then resyncLoop arrayName true lines
      else if inArray then
        match resyncSearch py line with
        | some numeral =>
            match py.float numeral with
            | some percent => .ok (some percent)
            | none => .error (.other "could not convert string to float")
        | none =>
            if Text.strip line = [] ∨ line.head? ≠ some ' ' then .ok none
            else resyncLoop arrayName true lines
      else resyncLoop arrayName false lines

/-- `resync_percent`. -/
def resyncPercent (mdstatText arrayName : List Char) : Except Exc (Option F) :=
  resyncLoop py arrayName false (Text.splitlines mdstatText)

end Mdadm

/-! ### The text -/

/-- A word without white space and colons, as the kernel names arrays. -/
def IsMdName (name : List Char) : Prop :=
  name ≠ [] ∧ (∀ c ∈ name, Text.isSpace c = false) ∧ ':' ∉ name

instance (name : List Char) : Decidable (IsMdName name) :=
  decidable_of_iff (name ≠ [] ∧ name.all (fun c => !Text.isSpace c) ∧ ':' ∉ name) (by simp [IsMdName])

/-- The name of an array. -/
abbrev MdName : Type :=
  { name : List Char // IsMdName name }

/-- A line of nothing but white space. -/
def IsBlank (line : List Char) : Prop :=
  Text.strip line = []

instance : DecidablePred IsBlank :=
  fun line => inferInstanceAs (Decidable (Text.strip line = []))

/-- A part of the text: a line that begins with a word, some indented lines, of which any may be blank, and
some blank lines. -/
structure MdstatSection where
  name : MdName
  rest : List Char
  lines : List (List Char)
  blanks : List (List Char)
  rest_head : rest.head? = some ' ' ∨ rest.head? = some ':'
  indented : ∀ line ∈ lines, line.head? = some ' '
  blank : ∀ line ∈ blanks, IsBlank line
  unbroken : ∀ line ∈ (name.1 ++ rest) :: lines ++ blanks, ∀ c ∈ line, Text.isLineBreak c = false

namespace MdstatSection

/-- The first line of a part. -/
def firstLine (s : MdstatSection) : List Char :=
  s.name.1 ++ s.rest

/-- All lines of a part. -/
def allLines (s : MdstatSection) : List (List Char) :=
  s.firstLine :: s.lines ++ s.blanks

/-- The indented lines up to the first blank one. -/
def seen (s : MdstatSection) : List (List Char) :=
  s.lines.takeWhile fun line => ¬ IsBlank line

/-- The indented lines from the first blank one on. -/
def unseen (s : MdstatSection) : List (List Char) :=
  s.lines.dropWhile fun line => ¬ IsBlank line

end MdstatSection

/-- The text of `/proc/mdstat`: a header, the blocks of the arrays, and a trailer, told apart by the words
they begin with; header and trailer have no indented lines. -/
structure Mdstat where
  header : MdstatSection
  blocks : List MdstatSection
  trailer : MdstatSection
  header_lines : header.lines = []
  trailer_lines : trailer.lines = []
  names_nodup : ((header :: blocks ++ [trailer]).map MdstatSection.name).Nodup

namespace Mdstat

variable {F : Type} (py : PythonNumbers F)

/-- The parts of the text. -/
def sections (m : Mdstat) : List MdstatSection :=
  m.header :: m.blocks ++ [m.trailer]

/-- The characters of the text. -/
def text (m : Mdstat) : List Char :=
  (m.sections.flatMap MdstatSection.allLines).flatMap fun line => line ++ ['\n']

/-- The percentage in a line, if there is one. -/
def percentOf (line : List Char) : Option F :=
  (Mdadm.resyncSearch py line).bind py.float

/-- The block of an array. -/
def block (m : Mdstat) (name : List Char) : Option MdstatSection :=
  m.blocks.find? fun s => s.name.1 = name

/-- The percentage of the first line with one in the block of an array. -/
def progress (m : Mdstat) (name : List Char) : Option F :=
  (m.block name).bind fun s => (s.firstLine :: s.lines).findSome? (percentOf py)

end Mdstat

/-! ### What is told -/

namespace Mdadm

variable {F : Type} {py : PythonNumbers F}

/-- A word and a separator begin a text exactly where the text begins with that word and separator. -/
theorem prefix_word_iff {α : Type*} {sep : α → Prop} {a b r : List α} {c d : α}
    (ha : ∀ x ∈ a, ¬ sep x) (hb : ∀ x ∈ b, ¬ sep x) (hc : sep c) (hd : sep d) :
  a ++ [c] <+: b ++ d :: r ↔ a = b ∧ c = d
  := by
  induction a generalizing b with
  | nil =>
      cases b with
      | nil => simp
      | cons y b =>
          have hne : c ≠ y := by
            rintro rfl
            exact hb c List.mem_cons_self hc
          simp [hne]
  | cons x a ih =>
      cases b with
      | nil =>
          have hne : x ≠ d := by
            rintro rfl
            exact ha x List.mem_cons_self hd
          simp [hne]
      | cons y b =>
          rw [List.cons_append, List.cons_append, List.cons_prefix_cons, List.cons.injEq, and_assoc,
            ih (fun z hz => ha z (List.mem_cons_of_mem _ hz)) fun z hz => hb z (List.mem_cons_of_mem _ hz)]

/-- A word with a blank or a colon begins the first line of the part of that name. -/
theorem prefix_firstLine_iff {name : MdName} {s : MdstatSection} {c : Char} (hc : c = ' ' ∨ c = ':') :
  name.1 ++ [c] <+: s.firstLine ↔ name = s.name ∧ s.rest.head? = some c
  := by
  have hword : ∀ name : MdName, ∀ x ∈ name.1, ¬ (x = ' ' ∨ x = ':') := by
    rintro name x hx (rfl | rfl)
    · have hspace := name.2.2.1 ' ' hx
      revert hspace
      decide
    · exact name.2.2.2 hx
  rw [MdstatSection.firstLine]
  have hrest := s.rest_head
  cases hs : s.rest with
  | nil => simp [hs] at hrest
  | cons d r =>
      have hd : d = ' ' ∨ d = ':' := by simpa [hs] using hrest
      rw [prefix_word_iff (hword name) (hword s.name) hc hd, Subtype.ext_iff, List.head?_cons,
        Option.some_inj, eq_comm (a := c)]

/-- Among the first lines of the parts, that of the array begins with its name. -/
theorem isLineOf_firstLine {name : MdName} {s : MdstatSection} :
  isLineOf name.1 s.firstLine = true ↔ name = s.name
  := by
  rw [isLineOf, Bool.or_eq_true, List.isPrefixOf_iff_prefix, List.isPrefixOf_iff_prefix,
    prefix_firstLine_iff (.inl rfl), prefix_firstLine_iff (.inr rfl), ← and_or_left]
  exact and_iff_left s.rest_head

/-- No indented line, and no blank one, begins with the name of an array. -/
theorem isLineOf_of_head {name : MdName} {line : List Char}
    (h : line.head? = some ' ' ∨ IsBlank line) :
  isLineOf name.1 line = false
  := by
  obtain ⟨name, hne, hword, -⟩ := name
  cases name with
  | nil => contradiction
  | cons c name =>
      have hc := hword c List.mem_cons_self
      cases line with
      | nil => rfl
      | cons d line =>
          have hd : Text.isSpace d = true := by
            rcases h with h | h
            · cases h
              decide
            · exact Text.strip_eq_nil_iff.mp h d List.mem_cons_self
          have hne : c ≠ d := by
            rintro rfl
            rw [hc] at hd
            cases hd
          simp [isLineOf, List.isPrefixOf, hne]

/-- There is no numeral in a blank line. -/
theorem resyncSearch_of_isBlank {line : List Char} (h : IsBlank line) :
  resyncSearch py line = none
  := by
  have hspaces := Text.strip_eq_nil_iff.mp h
  clear h
  induction line with
  | nil => rfl
  | cons c line ih =>
      have hc := hspaces c List.mem_cons_self
      have hresync : ¬ "resync".toList <+: c :: line := by
        intro hprefix
        have hr : 'r' = c := (List.cons_prefix_cons.mp hprefix).1
        subst hr
        revert hc
        decide
      rw [resyncSearch, resyncAt, if_neg hresync, Option.none_or]
      apply ih
      intro d hd
      exact hspaces d (List.mem_cons_of_mem _ hd)

/-- The loop skips the parts of other arrays. -/
theorem resyncLoop_skip {name : MdName} {sections : List MdstatSection}
    (h : ∀ s ∈ sections, name ≠ s.name) (tail : List (List Char)) :
  resyncLoop py name.1 false (sections.flatMap MdstatSection.allLines ++ tail)
    = resyncLoop py name.1 false tail
  := by
  have hlines : ∀ lines : List (List Char), (∀ line ∈ lines, isLineOf name.1 line = false) →
      ∀ tail, resyncLoop py name.1 false (lines ++ tail) = resyncLoop py name.1 false tail := by
    intro lines
    induction lines with
    | nil =>
        intro _ tail
        rfl
    | cons line lines ih =>
        intro hlines tail
        rw [List.cons_append, resyncLoop, if_neg (by simp [hlines line List.mem_cons_self]),
          if_neg Bool.false_ne_true]
        apply ih
        intro line' hline'
        apply hlines line' (List.mem_cons_of_mem _ hline')
  apply hlines
  intro line hline
  obtain ⟨s, hs, hline⟩ := List.mem_flatMap.mp hline
  rcases List.mem_append.mp hline with hline | hline
  · rcases List.mem_cons.mp hline with rfl | hline
    · rw [Bool.eq_false_iff, ne_eq, isLineOf_firstLine]
      apply h s hs
    · apply isLineOf_of_head
      left
      exact s.indented line hline
  · apply isLineOf_of_head
    right
    exact s.blank line hline

/-- What is told of a line, where a numeral is found or not. -/
def told (py : PythonNumbers F) (numeral : Option (List Char)) : Except Exc (Option F) :=
  match numeral with
  | none => .ok none
  | some numeral =>
      match py.float numeral with
      | some percent => .ok (some percent)
      | none => .error (.other "could not convert string to float")

/-- The loop tells the first numeral of some indented lines before a blank one; if there is none, it goes on
after them, unless one is blank. -/
theorem resyncLoop_lines {name : MdName} {lines : List (List Char)}
    (h : ∀ line ∈ lines, line.head? = some ' ') (tail : List (List Char)) :
  resyncLoop py name.1 true (lines ++ tail)
    = match (lines.takeWhile fun line => ¬ IsBlank line).findSome? (resyncSearch py) with
      | some numeral => told py (some numeral)
      | none =>
          if (lines.dropWhile fun line => ¬ IsBlank line) = [] then resyncLoop py name.1 true tail else .ok none
  := by
  induction lines with
  | nil => rfl
  | cons line lines ih =>
      have hhead := h line List.mem_cons_self
      rw [List.cons_append, resyncLoop, if_neg (by simp [isLineOf_of_head (.inl hhead)]), if_pos rfl]
      by_cases hblank : IsBlank line
      · rw [resyncSearch_of_isBlank hblank, List.takeWhile_cons_of_neg (by simpa using hblank),
          List.dropWhile_cons_of_neg (by simpa using hblank)]
        exact if_pos (.inl hblank)
      · rw [List.takeWhile_cons_of_pos (by simpa using hblank),
          List.dropWhile_cons_of_pos (by simpa using hblank), List.findSome?_cons]
        cases hsearch : resyncSearch py line with
        | none =>
            have hgoes : ¬ (Text.strip line = [] ∨ line.head? ≠ some ' ') := by
              rintro (hstrip | hother)
              · exact hblank hstrip
              · exact hother hhead
            simp only [if_neg hgoes]
            apply ih
            intro line' hline'
            apply h line' (List.mem_cons_of_mem _ hline')
        | some numeral => rfl

/-- After a block without a percentage, the loop looks for one in the next line, unless that is blank. -/
theorem resyncLoop_after {name : MdName} {blanks : List (List Char)} (hblank : ∀ line ∈ blanks, IsBlank line)
    {sections : List MdstatSection} (h : ∀ s ∈ sections, name ≠ s.name) :
  resyncLoop py name.1 true (blanks ++ sections.flatMap MdstatSection.allLines)
    = told py (if blanks = [] then sections.head?.bind fun next => resyncSearch py next.firstLine else none)
  := by
  cases blanks with
  | cons line blanks =>
      have hline := hblank line List.mem_cons_self
      rw [List.cons_append, resyncLoop, if_neg (by simp [isLineOf_of_head (.inr hline)]), if_pos rfl,
        resyncSearch_of_isBlank hline, if_neg (List.cons_ne_nil line blanks)]
      exact if_pos (.inl hline)
  | nil =>
      rw [List.nil_append, if_pos rfl]
      cases sections with
      | nil => rfl
      | cons next sections =>
          have hline : ¬ isLineOf name.1 next.firstLine = true := by
            rw [isLineOf_firstLine]
            apply h next List.mem_cons_self
          have hhead : next.firstLine.head? ≠ some ' ' := by
            obtain ⟨c, l, hword⟩ := List.exists_cons_of_ne_nil next.name.2.1
            rw [MdstatSection.firstLine, hword, List.cons_append, List.head?_cons]
            rintro ⟨⟩
            have hspace := next.name.2.2.1 ' ' (by rw [hword]; exact List.mem_cons_self)
            revert hspace
            decide
          rw [List.flatMap_cons, MdstatSection.allLines, List.cons_append, List.cons_append, resyncLoop,
            if_neg hline, if_pos rfl, List.head?_cons, Option.bind_some]
          cases resyncSearch py next.firstLine with
          | none => exact if_pos (.inr hhead)
          | some numeral => rfl

end Mdadm

namespace Mdstat

open Mdadm

variable {F : Type} {py : PythonNumbers F}

/-- The percentage in the line with the name of an array, which is not looked at. -/
def nameLine (py : PythonNumbers F) (m : Mdstat) (name : List Char) : Option F :=
  (m.block name).bind fun s => percentOf py s.firstLine

/-- The numeral in the line that directly follows the indented ones of a part, if no blank line does. -/
def nextNumeral (py : PythonNumbers F) (own : MdstatSection) (after : List MdstatSection) :
    Option (List Char) :=
  if own.unseen = [] ∧ own.blanks = [] then after.head?.bind fun next => resyncSearch py next.firstLine
  else none

/-- The other lines of an array tell nothing else than the indented ones before the first blank line: if
those have a numeral, the first is a number, and the percentage in the line with the name, if there is one; if
they have none, then there is no percentage after the first blank line, and the line directly after the block
tells what the line with the name does, which usually is nothing. -/
def Separate (py : PythonNumbers F) (m : Mdstat) (name : List Char) : Prop :=
  ∀ before own after, m.sections = before ++ own :: after → name = own.name.1 →
    match own.seen.findSome? (resyncSearch py) with
    | some numeral => ∃ percent, py.float numeral = some percent
        ∧ ∀ other ∈ m.nameLine py name, other = percent
    | none => match nextNumeral py own after with
        | some numeral => ∃ percent, py.float numeral = some percent
            ∧ m.nameLine py name = some percent
        | none => m.nameLine py name = none ∧ ∀ line ∈ own.unseen, percentOf py line = none

/-- The lines of the text. -/
theorem splitlines_text (m : Mdstat) :
  Text.splitlines m.text = m.sections.flatMap MdstatSection.allLines
  := by
  apply Text.splitlines_flatMap
  intro line hline
  obtain ⟨s, -, hline⟩ := List.mem_flatMap.mp hline
  exact s.unbroken line hline

/-- The block of an array is a part of its name. -/
theorem mem_of_block {m : Mdstat} {name : List Char} {s : MdstatSection} (h : m.block name = some s) :
  s ∈ m.sections ∧ name = s.name.1
  := by
  constructor
  · exact List.mem_append_left _ (List.mem_cons_of_mem _ (List.mem_of_find?_eq_some h))
  · have hname := List.find?_some h
    simpa [eq_comm] using hname

/-- There are no two parts of one name. -/
theorem eq_of_name {m : Mdstat} {s t : MdstatSection} (hs : s ∈ m.sections) (ht : t ∈ m.sections)
    (h : s.name = t.name) :
  s = t
  := by
  apply List.inj_on_of_nodup_map m.names_nodup hs ht h

/-- The percentages in the indented lines of a part are those of the block of its name: what is no block
has no indented lines. -/
theorem inside_of_mem {m : Mdstat} {s : MdstatSection} (h : s ∈ m.sections) :
  ((m.block s.name.1).bind fun b => b.lines.findSome? (percentOf py)) = s.lines.findSome? (percentOf py)
  := by
  cases hblock : m.block s.name.1 with
  | some b =>
      obtain ⟨hmem, hname⟩ := mem_of_block hblock
      rw [Option.bind_some, eq_of_name hmem h (Subtype.ext hname.symm)]
  | none =>
      have hlines : s.lines = [] := by
        rcases List.mem_append.mp h with h | h
        · rcases List.mem_cons.mp h with rfl | h
          · exact m.header_lines
          · have hnone := List.find?_eq_none.mp hblock s h
            simp at hnone
        · rw [List.mem_singleton.mp h]
          exact m.trailer_lines
      rw [hlines]
      rfl

/-- The progress is the percentage in the line with the name, or else the first in the indented lines. -/
theorem progress_eq (m : Mdstat) (name : List Char) :
  m.progress py name
    = (m.nameLine py name).or ((m.block name).bind fun s => s.lines.findSome? (percentOf py))
  := by
  rw [progress, nameLine]
  cases m.block name with
  | none => rfl
  | some s =>
      rw [Option.bind_some, Option.bind_some, Option.bind_some, List.findSome?_cons]
      cases percentOf py s.firstLine with
      | none => rfl
      | some percent => rfl

/-- An array that has no part has no block. -/
theorem block_of_notMem {m : Mdstat} {name : List Char} (h : ∀ s ∈ m.sections, name ≠ s.name.1) :
  m.block name = none
  := by
  rw [Option.eq_none_iff_forall_ne_some]
  intro s hs
  obtain ⟨hmem, hname⟩ := mem_of_block hs
  exact h s hmem hname

/-- The numerals before the first are none, so that it tells the first percentage if it is a number. -/
theorem findSome?_percentOf {lines : List (List Char)} {numeral : List Char} {percent : F}
    (h : lines.findSome? (resyncSearch py) = some numeral) (hfloat : py.float numeral = some percent) :
  lines.findSome? (percentOf py) = some percent
  := by
  induction lines with
  | nil => cases h
  | cons line lines ih =>
      rw [List.findSome?_cons] at h ⊢
      rw [percentOf]
      cases hsearch : resyncSearch py line with
      | none =>
          rw [hsearch] at h
          exact ih h
      | some first =>
          rw [hsearch] at h
          cases h
          rw [Option.bind_some, hfloat]

/-- Where there are no numerals, there is no percentage. -/
theorem findSome?_percentOf_eq_none {lines : List (List Char)}
    (h : lines.findSome? (resyncSearch py) = none) :
  lines.findSome? (percentOf py) = none
  := by
  rw [List.findSome?_eq_none_iff] at h ⊢
  intro line hline
  rw [percentOf, h line hline, Option.bind_none]

/-- The first percentage in the indented lines is one before the first blank line, or one after it. -/
theorem findSome?_lines (s : MdstatSection) :
  s.lines.findSome? (percentOf py) = (s.seen.findSome? (percentOf py)).or (s.unseen.findSome? (percentOf py))
  := by
  rw [← List.findSome?_append, MdstatSection.seen, MdstatSection.unseen, List.takeWhile_append_dropWhile]

/-- The loop, for an array that has a part. -/
theorem resyncLoop_sections {m : Mdstat} {before after : List MdstatSection} {own : MdstatSection}
    (h : m.sections = before ++ own :: after) :
  resyncLoop py own.name.1 false (m.sections.flatMap MdstatSection.allLines)
    = told py ((own.seen.findSome? (resyncSearch py)).or (nextNumeral py own after))
  := by
  have hnodup : ((before ++ own :: after).map MdstatSection.name).Nodup := by
    rw [← h]
    exact m.names_nodup
  rw [List.map_append, List.map_cons, List.nodup_append, List.nodup_cons] at hnodup
  obtain ⟨-, ⟨hafter, -⟩, hbefore⟩ := hnodup
  have hskip : ∀ s ∈ before, own.name ≠ s.name := by
    intro s hs heq
    exact hbefore s.name (List.mem_map_of_mem hs) own.name List.mem_cons_self heq.symm
  have hother : ∀ s ∈ after, own.name ≠ s.name := by
    intro s hs heq
    apply hafter
    rw [heq]
    exact List.mem_map_of_mem hs
  rw [h, List.flatMap_append, resyncLoop_skip hskip, List.flatMap_cons, MdstatSection.allLines,
    List.cons_append, List.cons_append, resyncLoop, if_pos (isLineOf_firstLine.mpr rfl), List.append_assoc,
    resyncLoop_lines own.indented, resyncLoop_after own.blank hother, nextNumeral, ← MdstatSection.seen,
    ← MdstatSection.unseen]
  cases own.seen.findSome? (resyncSearch py) with
  | some numeral => rfl
  | none =>
      by_cases hunseen : own.unseen = []
      · simp only [hunseen, if_true, true_and, Option.none_or]
      · simp only [hunseen, if_false, false_and, Option.none_or]
        rfl

/-- The parts around that of an array are determined. -/
theorem separate_iff {m : Mdstat} {before after : List MdstatSection} {own : MdstatSection}
    (h : m.sections = before ++ own :: after) :
  m.Separate py own.name.1 ↔
    match own.seen.findSome? (resyncSearch py) with
    | some numeral => ∃ percent, py.float numeral = some percent
        ∧ ∀ other ∈ m.nameLine py own.name.1, other = percent
    | none => match nextNumeral py own after with
        | some numeral => ∃ percent, py.float numeral = some percent
            ∧ m.nameLine py own.name.1 = some percent
        | none => m.nameLine py own.name.1 = none ∧ ∀ line ∈ own.unseen, percentOf py line = none
  := by
  constructor
  · intro hseparate
    exact hseparate before own after h rfl
  · intro hown before' own' after' h' hname
    have hmem : own' ∈ m.sections := by
      rw [h']
      exact List.mem_append_right _ List.mem_cons_self
    have hmem' : own ∈ m.sections := by
      rw [h]
      exact List.mem_append_right _ List.mem_cons_self
    cases eq_of_name hmem' hmem (Subtype.ext hname)
    have hnodup : m.sections.Nodup := List.Nodup.of_map _ m.names_nodup
    rw [h] at h' hnodup
    obtain ⟨-, hafter, hdisjoint⟩ := List.nodup_append.mp hnodup
    obtain ⟨-, -, rfl⟩ := (List.append_cons_inj_of_notMem (fun hmem => hdisjoint own hmem own
      List.mem_cons_self rfl) (List.nodup_cons.mp hafter).1).mp h'
    exact hown

/-- The loop tells the progress of the array exactly if the other lines tell nothing else. -/
theorem resyncLoop_iff (m : Mdstat) (name : MdName) :
  resyncLoop py name.1 false (Text.splitlines m.text) = .ok (m.progress py name.1) ↔ m.Separate py name.1
  := by
  rw [splitlines_text]
  by_cases hown : ∃ s ∈ m.sections, name = s.name
  · obtain ⟨own, hmem, rfl⟩ := hown
    obtain ⟨before, after, hsections⟩ := List.append_of_mem hmem
    have hseparate : m.Separate py own.name.1 ↔ _ := separate_iff hsections
    rw [resyncLoop_sections hsections, progress_eq, inside_of_mem hmem, findSome?_lines, hseparate]
    cases hseen : own.seen.findSome? (resyncSearch py) with
    | some numeral =>
        rw [Option.some_or, told]
        cases hfloat : py.float numeral with
        | none => simp [hfloat]
        | some percent =>
            rw [findSome?_percentOf hseen hfloat, Option.some_or]
            cases m.nameLine py own.name.1 with
            | none => simp [hfloat]
            | some other => simp [hfloat, eq_comm]
    | none =>
        rw [Option.none_or, findSome?_percentOf_eq_none hseen, Option.none_or]
        cases hnext : nextNumeral py own after with
        | none =>
            simp only [told, Except.ok.injEq]
            rw [eq_comm, Option.or_eq_none_iff, List.findSome?_eq_none_iff]
        | some numeral =>
            have hunseen : own.unseen = [] := by
              by_contra hunseen
              rw [nextNumeral, if_neg (fun h => hunseen h.1)] at hnext
              cases hnext
            rw [hunseen, List.findSome?_nil, Option.or_none]
            cases hfloat : py.float numeral with
            | none => simp [told, hfloat]
            | some percent => simp [told, hfloat, eq_comm]
  · have hskip : ∀ s ∈ m.sections, name ≠ s.name := by
      intro s hs heq
      exact hown ⟨s, hs, heq⟩
    have hloop := @resyncLoop_skip _ py _ _ hskip []
    rw [List.append_nil] at hloop
    rw [hloop, progress, block_of_notMem fun s hs heq => hskip s hs (Subtype.ext heq)]
    apply iff_of_true rfl
    intro before own after hsections hname
    refine absurd (Subtype.ext hname) (hskip own ?_)
    rw [hsections]
    exact List.mem_append_right _ List.mem_cons_self

/-- The progress that is told is that of the array exactly if the other lines tell nothing else. -/
theorem resyncPercent_iff (m : Mdstat) (name : MdName) :
  resyncPercent py m.text name.1 = .ok (m.progress py name.1) ↔ m.Separate py name.1
  := resyncLoop_iff m name

/-- Lines without ends of lines, told by looking at them. -/
theorem unbroken_of_all {lines : List (List Char)}
    (h : (lines.all fun line => line.all fun c => !Text.isLineBreak c) = true) :
  ∀ line ∈ lines, ∀ c ∈ line, Text.isLineBreak c = false
  := by
  simpa only [List.all_eq_true, Bool.not_eq_true'] using h

/-- An array that is at thirteen per cent, and a line of blanks after it. -/
def syncing : Mdstat where
  header := ⟨⟨"Personalities".toList, by decide⟩, " : [raid1] ".toList, [], [],
    by decide, by decide, by decide, unbroken_of_all rfl⟩
  blocks := [⟨⟨"md127".toList, by decide⟩, " : active raid1 sdb[1] sda[0]".toList,
    ["      1000 blocks super 1.2 [2/2] [UU]".toList, "      [==>....]  resync = 13% (130/1000)".toList,
      "      ".toList], [],
    by decide, by decide, by decide, unbroken_of_all rfl⟩]
  trailer := ⟨⟨"unused".toList, by decide⟩, " devices: <none>".toList, [], [],
    by decide, by decide, by decide, unbroken_of_all rfl⟩
  header_lines := rfl
  trailer_lines := rfl
  names_nodup := by decide

example : syncing.progress ⟨Char.isDigit, Text.int⟩ "md127".toList = some 13 := by decide

/-- A block of an array, and one directly below that is at five per cent. -/
def adjoining : Mdstat where
  header := ⟨⟨"Personalities".toList, by decide⟩, " : [raid1]".toList, [], [],
    by decide, by decide, by decide, unbroken_of_all rfl⟩
  blocks := [⟨⟨"md1".toList, by decide⟩, " : active raid1".toList, ["  1000 blocks".toList], [],
      by decide, by decide, by decide, unbroken_of_all rfl⟩,
    ⟨⟨"md2".toList, by decide⟩, " : resync = 5%".toList, [], [],
      by decide, by decide, by decide, unbroken_of_all rfl⟩]
  trailer := ⟨⟨"unused".toList, by decide⟩, " devices: <none>".toList, [], [],
    by decide, by decide, by decide, unbroken_of_all rfl⟩
  header_lines := rfl
  trailer_lines := rfl
  names_nodup := by decide

/-- The progress of the array directly below is told as that of an array that has none. -/
theorem not_resyncPercent_adjoining :
  ¬ resyncPercent ⟨Char.isDigit, Text.int⟩ adjoining.text "md1".toList
      = .ok (adjoining.progress ⟨Char.isDigit, Text.int⟩ "md1".toList)
  := by
  have htold : resyncPercent ⟨Char.isDigit, Text.int⟩ adjoining.text "md1".toList = .ok (some 5) := by
    rfl
  have hprogress : adjoining.progress ⟨Char.isDigit, Text.int⟩ "md1".toList = none := by
    decide
  rw [htold, hprogress]
  rintro ⟨⟩

end Mdstat
