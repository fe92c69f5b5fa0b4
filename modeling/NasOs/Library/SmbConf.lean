import Mathlib.Data.List.DropRight
import NasOs.Library.Text
import NasOs.Library.Traverse

/-!
# Configuration files of sections

The grammar of `smb.conf`: a line is blank, a comment after `#`, the header of a section in brackets,
or a parameter `key = value`.  Blanks around names, keys and values do not count.  The parameters
before the first header belong to no section.

A header ends with the first closing bracket, so that not every name of a section can be written:
`IsName` holds of the names that can be read.
-/

namespace SmbConf

/-! ### Trimming -/

/-- The characters that do not count around names, keys and values. -/
def isBlank (c : Char) : Bool :=
  c.val == 0x20 || (0x09 ≤ c.val && c.val ≤ 0x0d)

/-- The text without the blanks at its two ends. -/
def trim (l : List Char) : List Char :=
  (l.dropWhile isBlank).rdropWhile isBlank

/-- Trimming adds no character. -/
theorem mem_of_mem_trim {c : Char} {l : List Char} (h : c ∈ trim l) :
  c ∈ l
  := by
  apply (List.dropWhile_sublist isBlank).subset
  apply (List.rdropWhile_prefix isBlank _).subset h

/-- Nothing is trimmed of a text whose first and last characters are not blank. -/
theorem trim_eq_self {l : List Char} (hhead : ∀ c ∈ l.head?, isBlank c = false)
    (hlast : ∀ c ∈ l.getLast?, isBlank c = false) :
  trim l = l
  := by
  have hfront : l.dropWhile isBlank = l := by
    cases l with
    | nil => rfl
    | cons c l =>
        have hc := hhead c rfl
        rw [List.dropWhile_cons_of_neg (by simp [hc])]
  rw [trim, hfront, List.rdropWhile_eq_self_iff]
  intro hl
  have hc := hlast (l.getLast hl) (List.getLast?_eq_getLast_of_ne_nil hl)
  simp [hc]

/-- The first character that is left is not blank. -/
theorem head?_trim {l : List Char} :
  ∀ c ∈ (trim l).head?, isBlank c = false
  := by
  intro c hc
  obtain ⟨rest, hrest⟩ := List.rdropWhile_prefix isBlank (l.dropWhile isBlank)
  have hc' : c ∈ (l.dropWhile isBlank).head? := by
    rw [← hrest]
    apply List.mem_head?_append_of_mem_head? hc
  have hhead := List.head?_dropWhile_not isBlank l
  rw [Option.mem_def.mp hc'] at hhead
  apply hhead

/-- The last character that is left is not blank. -/
theorem getLast?_trim {l : List Char} :
  ∀ c ∈ (trim l).getLast?, isBlank c = false
  := by
  intro c hc
  have hne : trim l ≠ [] := by
    intro hnil
    rw [hnil] at hc
    cases hc
  have hlast := List.rdropWhile_last_not isBlank (l.dropWhile isBlank) hne
  rw [List.getLast?_eq_getLast_of_ne_nil hne, Option.mem_some_iff] at hc
  rw [← hc]
  exact Bool.eq_false_iff.mpr hlast

/-- A text that was trimmed has nothing left to trim. -/
@[simp]
theorem trim_trim (l : List Char) :
  trim (trim l) = trim l
  := trim_eq_self head?_trim getLast?_trim

/-- Blanks before a text are trimmed. -/
theorem trim_append {blanks : List Char} (h : ∀ c ∈ blanks, isBlank c = true) (l : List Char) :
  trim (blanks ++ l) = trim l
  := by
  rw [trim, List.dropWhile_append_of_pos h, trim]

/-- A blank after a text is trimmed. -/
theorem trim_concat {c : Char} (h : isBlank c = true) {l : List Char} (hl : trim l = l) :
  trim (l ++ [c]) = l
  := by
  cases l with
  | nil =>
      rw [List.nil_append, trim, List.dropWhile_cons_of_pos h]
      rfl
  | cons d l =>
      have hd := head?_trim (l := d :: l) d (by rw [hl]; rfl)
      rw [trim, List.cons_append, List.dropWhile_cons_of_neg (by simp [hd]), ← List.cons_append,
        List.rdropWhile_concat_pos _ _ _ h]
      have hrest := hl
      rw [trim, List.dropWhile_cons_of_neg (by simp [hd])] at hrest
      apply hrest

/-! ### Lines -/

/-- What a line says. -/
inductive Line where
  /-- Nothing. -/
  | skip
  | header (name : List Char)
  | param (key value : List Char)

/-- Read a line. -/
def Line.parse (l : List Char) : Option Line :=
  match l.dropWhile isBlank with
  | [] => some .skip
  | c :: rest =>
      if c = '#' then some .skip
      else if c = '[' then
        (Text.splitFirst ']' rest).bind fun p =>
          if trim p.1 = [] then none else some (.header (trim p.1))
      else
        (Text.splitFirst '=' (c :: rest)).bind fun p =>
          if trim p.1 = [] then none else some (.param (trim p.1) (trim p.2))

/-- The names of sections that can be read. -/
def IsName (name : List Char) : Prop :=
  name ≠ [] ∧ trim name = name ∧ ']' ∉ name ∧ '\n' ∉ name

instance (name : List Char) : Decidable (IsName name) :=
  inferInstanceAs (Decidable (_ ∧ _))

/-- The name in a header is one that can be read. -/
theorem isName_of_parse {l name : List Char} (h : Line.parse l = some (.header name))
    (hl : '\n' ∉ l) :
  IsName name
  := by
  rw [Line.parse] at h
  split at h
  · cases h
  · rename_i c rest hdrop
    split at h
    · cases h
    · split at h
      · obtain ⟨⟨a, b⟩, hsplit, h⟩ := Option.bind_eq_some_iff.mp h
        have hrest := Text.eq_of_splitFirst hsplit
        split at h
        · cases h
        · rename_i hne
          cases h
          refine ⟨hne, trim_trim a, fun hmem => ?_, fun hmem => ?_⟩
          · apply Text.not_mem_of_splitFirst hsplit (mem_of_mem_trim hmem)
          · apply hl
            apply (List.dropWhile_sublist isBlank).subset
            rw [hdrop, hrest]
            apply List.mem_cons_of_mem
            apply List.mem_append_left _ (mem_of_mem_trim hmem)
      · obtain ⟨p, -, h⟩ := Option.bind_eq_some_iff.mp h
        split at h
        · cases h
        · cases h

/-- A blank line. -/
theorem parse_nil :
  Line.parse [] = some .skip
  := rfl

/-- A comment. -/
theorem parse_comment (l : List Char) :
  Line.parse ('#' :: l) = some .skip
  := rfl

/-- The header of a section whose name can be read. -/
theorem parse_header {name : List Char} (h : IsName name) :
  Line.parse ('[' :: (name ++ [']'])) = some (.header name)
  := by
  obtain ⟨hne, htrim, hbracket, -⟩ := h
  have hdrop : ('[' :: (name ++ [']'])).dropWhile isBlank = '[' :: (name ++ [']']) :=
    List.dropWhile_cons_of_neg (by decide)
  simp only [Line.parse, hdrop]
  rw [if_neg (by decide), if_pos trivial, Text.splitFirst_append hbracket, Option.bind_some, htrim,
    if_neg hne]

/-- The keys that can be written. -/
def IsKey (key : List Char) : Prop :=
  key ≠ [] ∧ trim key = key ∧ '=' ∉ key ∧ key.head? ≠ some '#' ∧ key.head? ≠ some '['

instance (key : List Char) : Decidable (IsKey key) :=
  inferInstanceAs (Decidable (_ ∧ _))

/-- A parameter with blanks before its key and around the sign. -/
theorem parse_param {blanks key : List Char} (hblanks : ∀ c ∈ blanks, isBlank c = true)
    (hkey : IsKey key) (value : List Char) :
  Line.parse (blanks ++ (key ++ " = ".toList ++ value)) = some (.param key (trim value))
  := by
  obtain ⟨hne, htrim, hequals, hcomment, hheader⟩ := hkey
  obtain ⟨c, rest, rfl⟩ := List.exists_cons_of_ne_nil hne
  have hc : isBlank c = false := head?_trim c (by rw [htrim]; rfl)
  have hdrop : (blanks ++ (c :: rest ++ " = ".toList ++ value)).dropWhile isBlank
      = c :: (rest ++ " = ".toList ++ value) := by
    rw [List.dropWhile_append_of_pos hblanks]
    apply List.dropWhile_cons_of_neg (by simp [hc])
  have hsplit : Text.splitFirst '=' (c :: (rest ++ " = ".toList ++ value))
      = some (c :: rest ++ [' '], ' ' :: value) := by
    have hno : '=' ∉ c :: rest ++ [' '] := by
      rw [List.mem_append]
      rintro (h | h)
      · apply hequals h
      · cases List.mem_singleton.mp h
    have happend := Text.splitFirst_append hno (' ' :: value)
    have htext : c :: (rest ++ " = ".toList ++ value)
        = c :: rest ++ [' '] ++ '=' :: ' ' :: value := by
      simp
    rw [htext]
    apply happend
  have hvalue : trim (' ' :: value) = trim value :=
    @trim_append [' '] (List.forall_iff_forall_mem.mp (by decide)) value
  simp only [Line.parse, hdrop]
  rw [if_neg fun h => hcomment (by rw [h]; rfl), if_neg fun h => hheader (by rw [h]; rfl), hsplit,
    Option.bind_some, trim_concat (by decide) htrim, if_neg hne, hvalue]

/-! ### Files -/

/-- A section: its name and its parameters, in their order. -/
structure Section where
  name : List Char
  params : List (List Char × List Char)
  deriving DecidableEq

/-- A file: the parameters that belong to no section, and the sections, in their order. -/
structure File where
  params : List (List Char × List Char)
  sections : List Section
  deriving DecidableEq

/-- What a file says with a line before it. -/
def File.after (line : Line) (file : File) : File :=
  match line with
  | .skip => file
  | .header name => ⟨[], ⟨name, file.params⟩ :: file.sections⟩
  | .param key value => ⟨(key, value) :: file.params, file.sections⟩

/-- What lines say. -/
def File.ofLines (lines : List Line) : File :=
  lines.foldr File.after ⟨[], []⟩

@[simp]
theorem ofLines_cons (line : Line) (lines : List Line) :
  File.ofLines (line :: lines) = File.after line (File.ofLines lines)
  := rfl

/-- Read a file. -/
def read (text : List Char) : Option File :=
  ((text.splitOn '\n').mapM Line.parse).map File.ofLines

/-- A section of a file has the name of a header. -/
theorem mem_sections_ofLines {lines : List Line} {s : Section}
    (h : s ∈ (File.ofLines lines).sections) :
  Line.header s.name ∈ lines
  := by
  induction lines with
  | nil => cases h
  | cons line lines ih =>
      cases line with
      | skip => apply List.mem_cons_of_mem _ (ih h)
      | header name =>
          rcases List.mem_cons.mp h with rfl | h
          · apply List.mem_cons_self
          · apply List.mem_cons_of_mem _ (ih h)
      | param key value => apply List.mem_cons_of_mem _ (ih h)

/-- Every section that is read has a name that can be. -/
theorem isName_of_read {text : List Char} {file : File} (h : read text = some file) :
  ∀ s ∈ file.sections, IsName s.name
  := by
  intro s hs
  obtain ⟨lines, hlines, rfl⟩ := Option.map_eq_some_iff.mp h
  obtain ⟨l, hl, hparse⟩ := List.exists_of_mem_forall₂ (List.mapM_option_eq_some_iff.mp hlines)
    (mem_sections_ofLines hs)
  apply isName_of_parse hparse (Text.not_mem_of_mem_splitOn hl)

/-- Texts of lines without newlines, each ended by one, are read as what the lines say. -/
theorem read_flatMap {texts : List (List Char)} {lines : List Line}
    (hno : ∀ text ∈ texts, '\n' ∉ text) (h : texts.map Line.parse = lines.map some) :
  read (texts.flatMap fun text => text ++ ['\n']) = some (File.ofLines lines)
  := by
  have hparse : texts.mapM Line.parse = some lines := by
    rw [List.mapM_option_eq_some_iff, ← List.forall₂_map_right_iff (f := some),
      ← List.forall₂_map_left_iff (f := Line.parse), List.forall₂_eq_eq_eq]
    apply h
  rw [read, Text.splitOn_flatMap hno, List.mapM_append, hparse]
  change some (File.ofLines (lines ++ [.skip])) = _
  rw [File.ofLines, List.foldr_append]
  rfl

/-- Parameters belong to what comes before them. -/
theorem ofLines_params (params : List (List Char × List Char)) (lines : List Line) :
  File.ofLines (params.map (fun p => Line.param p.1 p.2) ++ lines)
    = ⟨params ++ (File.ofLines lines).params, (File.ofLines lines).sections⟩
  := by
  induction params with
  | nil => rfl
  | cons p params ih =>
      rw [List.map_cons, List.cons_append, ofLines_cons, ih]
      rfl

/-- The lines of a section: its header, its parameters, and a blank line. -/
def Section.lines (s : Section) : List Line :=
  .header s.name :: (s.params.map fun p => Line.param p.1 p.2) ++ [.skip]

/-- The lines of sections say what the sections are. -/
theorem ofLines_sections (sections : List Section) :
  File.ofLines (sections.flatMap Section.lines) = ⟨[], sections⟩
  := by
  induction sections with
  | nil => rfl
  | cons s sections ih =>
      have hrest : File.ofLines ([.skip] ++ sections.flatMap Section.lines) = ⟨[], sections⟩ := ih
      rw [List.flatMap_cons, Section.lines, List.cons_append, List.cons_append, List.append_assoc,
        ofLines_cons, ofLines_params, hrest, List.append_nil]
      rfl

end SmbConf
