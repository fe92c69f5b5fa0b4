import Mathlib.Data.List.Infix
import NasOs.Library.Lines

/-!
# The line in the administrator's configuration

`smb.conf` is the file of the administrator.  `ensure_include_block` puts a block of three lines into
it, at the end of the section `[global]`, unless the marker that starts the block is in the text already.

The block is three lines of its own unless it comes at the end of a text that stops in the middle of a
line: the marker then runs on in the last line of the administrator (`ensureIncludeBlock_iff`).
-/

/-- `NASOS_CONF`. -/
def nasosConfPath : String :=
  "/etc/samba/nasos.conf"

/-- `_MARKER_BEGIN`. -/
def markerBegin : String :=
  "# BEGIN NASOS MANAGED"

/-- `_MARKER_END`. -/
def markerEnd : String :=
  "# END NASOS MANAGED"

/-- `_MARKER_BLOCK`. -/
def markerBlock : String :=
  markerBegin ++ "\ninclude = " ++ nasosConfPath ++ "\n" ++ markerEnd ++ "\n"

/-- A line is the header of the section `[global]`. -/
def isGlobalHeader (line : List Char) : Bool :=
  (Text.strip line).map Char.toLower == "[global]".toList

/-- A line is the header of a section. -/
def isSectionHeader (line : List Char) : Bool :=
  (Text.strip line).head? == some '[' && (Text.strip line).getLast? == some ']'

/-- The loop of `_end_of_global_section`: how many of the lines come before the end of the section. -/
def endOfGlobalSection (inGlobal : Bool) : List (List Char) → ℕ
  | [] => 0
  | line :: lines =>
      if isGlobalHeader line then endOfGlobalSection true lines + 1
      else if inGlobal && isSectionHeader line then 0
      else endOfGlobalSection inGlobal lines + 1

/-- The index in `ensure_include_block`. -/
def insertAt (text : String) : ℕ :=
  endOfGlobalSection false (Text.keptLines text.toList)

/-- `ensure_include_block`. -/
def ensureIncludeBlock (smbConfText : String) : String :=
  if markerBegin.toList <:+: smbConfText.toList then smbConfText
  else
    let lines := Text.keptLines smbConfText.toList
    String.ofList ((lines.take (insertAt smbConfText)).flatten ++ markerBlock.toList
      ++ (lines.drop (insertAt smbConfText)).flatten)

/-! ### Where the block belongs -/

/-- The first part of the lines ends where the section `[global]` does: before the next header of
another section, or at the end when there is none. -/
structure EndsGlobal (before after : List (List Char)) : Prop where
  /-- No other section begins after the header in the first part. -/
  within : ∀ line ∈ before.dropWhile fun line => !isGlobalHeader line,
    isSectionHeader line = true → isGlobalHeader line = true
  /-- Another section begins with the second part, if there is one. -/
  next : ∀ line ∈ after.head?, isSectionHeader line = true ∧ isGlobalHeader line = false
    ∧ ∃ header ∈ before, isGlobalHeader header = true

/-- The header of another section follows that of `[global]`. -/
def SectionFollows (lines : List (List Char)) : Prop :=
  ∃ line ∈ lines.dropWhile fun line => !isGlobalHeader line,
    isSectionHeader line = true ∧ isGlobalHeader line = false

instance (lines : List (List Char)) : Decidable (SectionFollows lines) :=
  inferInstanceAs (Decidable (∃ line ∈ lines.dropWhile _, _))

/-- The lines of the block. -/
def blockLines : List (List Char) :=
  [markerBegin.toList, "include = /etc/samba/nasos.conf".toList, markerEnd.toList]

/-- The block stands in the text as lines of its own at the end of `[global]`, and the other lines are
those of the original. -/
def BlockInserted (original result : String) : Prop :=
  ∃ before after, Text.keptLines original.toList = before ++ after ∧ EndsGlobal before after
    ∧ Text.keptLines result.toList = before ++ (blockLines.map fun line => line ++ ['\n']) ++ after

/-- Within the section, the loop stops before the next header. -/
theorem endOfGlobalSection_true (lines : List (List Char)) :
  (∀ line ∈ lines.take (endOfGlobalSection true lines),
      isSectionHeader line = true → isGlobalHeader line = true)
    ∧ ∀ line ∈ (lines.drop (endOfGlobalSection true lines)).head?,
        isSectionHeader line = true ∧ isGlobalHeader line = false
  := by
  induction lines with
  | nil => simp
  | cons line lines ih =>
      rw [endOfGlobalSection]
      split
      · rename_i hglobal
        constructor
        · rw [List.take_succ_cons, List.forall_mem_cons]
          exact ⟨fun _ => hglobal, ih.1⟩
        · apply ih.2
      · rename_i hglobal
        split
        · rename_i hheader
          constructor
          · simp
          · intro line' hline'
            cases hline'
            exact ⟨hheader, by simpa using hglobal⟩
        · rename_i hheader
          constructor
          · rw [List.take_succ_cons, List.forall_mem_cons]
            exact ⟨fun h => absurd h hheader, ih.1⟩
          · apply ih.2

/-- The loop stops where the section ends. -/
theorem endsGlobal_endOfGlobalSection (lines : List (List Char)) :
  EndsGlobal (lines.take (endOfGlobalSection false lines))
    (lines.drop (endOfGlobalSection false lines))
  := by
  induction lines with
  | nil => constructor <;> simp
  | cons line lines ih =>
      rw [endOfGlobalSection]
      split
      · rename_i hglobal
        obtain ⟨hwithin, hnext⟩ := endOfGlobalSection_true lines
        constructor
        · rw [List.take_succ_cons, List.dropWhile_cons_of_neg (by simp [hglobal]),
            List.forall_mem_cons]
          exact ⟨fun _ => hglobal, hwithin⟩
        · intro line' hline'
          obtain ⟨hheader, hother⟩ := hnext line' hline'
          exact ⟨hheader, hother, line, by simp, hglobal⟩
      · rename_i hglobal
        rw [Bool.false_and, if_neg Bool.false_ne_true]
        constructor
        · rw [List.take_succ_cons, List.dropWhile_cons_of_pos (by simp [hglobal])]
          apply ih.within
        · intro line' hline'
          obtain ⟨hheader, hother, header, hmem, hheader'⟩ := ih.next line' hline'
          exact ⟨hheader, hother, header, List.mem_cons_of_mem _ hmem, hheader'⟩

/-- Within the section, the loop stops before the end when another section follows. -/
theorem endOfGlobalSection_true_lt (lines : List (List Char)) :
  endOfGlobalSection true lines < lines.length
    ↔ ∃ line ∈ lines, isSectionHeader line = true ∧ isGlobalHeader line = false
  := by
  induction lines with
  | nil => simp
  | cons line lines ih =>
      rw [endOfGlobalSection, List.length_cons]
      simp only [List.mem_cons, exists_eq_or_imp]
      split
      · rename_i hglobal
        simp [hglobal, ih]
      · rename_i hglobal
        split
        · rename_i hheader
          simp only [Bool.true_and] at hheader
          simp [hglobal, hheader]
        · rename_i hheader
          simp only [Bool.true_and] at hheader
          simp [hheader, ih]

/-- The loop stops before the end when another section follows `[global]`. -/
theorem endOfGlobalSection_lt (lines : List (List Char)) :
  endOfGlobalSection false lines < lines.length ↔ SectionFollows lines
  := by
  induction lines with
  | nil => simp [SectionFollows]
  | cons line lines ih =>
      rw [endOfGlobalSection, List.length_cons]
      split
      · rename_i hglobal
        rw [SectionFollows, List.dropWhile_cons_of_neg (by simp [hglobal]), Nat.add_lt_add_iff_right,
          endOfGlobalSection_true_lt]
        simp [hglobal]
      · rename_i hglobal
        rw [Bool.false_and, if_neg Bool.false_ne_true, SectionFollows,
          List.dropWhile_cons_of_pos (by simp [hglobal]), Nat.add_lt_add_iff_right, ih]
        rfl

/-! ### What is inserted -/

theorem markerBlock_toList :
  markerBlock.toList = blockLines.flatMap fun line => line ++ ['\n']
  := by
  decide

/-- The lines of the block have no line boundaries in them. -/
theorem not_isLineBreak_blockLines :
  ∀ line ∈ blockLines, ∀ c ∈ line, Text.isLineBreak c = false
  := by
  intro line hline
  simp only [blockLines, List.mem_cons, List.not_mem_nil, or_false] at hline
  rcases hline with rfl | rfl | rfl
  all_goals exact List.forall_iff_forall_mem.mp (by decide)

/-- The marker is in the text afterwards. -/
theorem markerBegin_mem (text : String) :
  markerBegin.toList <:+: (ensureIncludeBlock text).toList
  := by
  rw [ensureIncludeBlock]
  split
  · assumption
  · rw [String.toList_ofList]
    have hbegin : markerBegin.toList <:+: markerBlock.toList := by
      rw [markerBlock_toList, blockLines, List.flatMap_cons, List.append_assoc]
      apply (List.prefix_append _ _).isInfix
    apply hbegin.trans
    apply List.infix_append

/-- Inserting the block again changes nothing. -/
theorem ensureIncludeBlock_idem (text : String) :
  ensureIncludeBlock (ensureIncludeBlock text) = ensureIncludeBlock text
  := by
  rw [ensureIncludeBlock, if_pos (markerBegin_mem text)]

/-- The lines of the text with the block in it, where it is lines of its own. -/
theorem keptLines_ensureIncludeBlock {text : String} (h : ¬ markerBegin.toList <:+: text.toList)
    (hk : insertAt text < (Text.keptLines text.toList).length ∨ Text.EndsLine text.toList) :
  Text.keptLines (ensureIncludeBlock text).toList
    = (Text.keptLines text.toList).take (insertAt text)
      ++ (blockLines.map fun line => line ++ ['\n'])
      ++ (Text.keptLines text.toList).drop (insertAt text)
  := by
  rw [ensureIncludeBlock, if_neg h, String.toList_ofList, markerBlock_toList]
  apply Text.keptLines_insert not_isLineBreak_blockLines (by decide) (by decide) (by simp) hk

/-- The block put after a text that stops in the middle of a line adds only two lines. -/
theorem length_keptLines_ensureIncludeBlock {text : String}
    (h : ¬ markerBegin.toList <:+: text.toList)
    (hk : (Text.keptLines text.toList).length ≤ insertAt text) (hend : ¬ Text.EndsLine text.toList) :
  (Text.keptLines (ensureIncludeBlock text).toList).length
    = (Text.keptLines text.toList).length + 2
  := by
  rw [ensureIncludeBlock, if_neg h, String.toList_ofList, markerBlock_toList,
    List.take_of_length_le hk, List.drop_eq_nil_of_le hk, Text.flatten_keptLines, List.flatten_nil,
    List.append_nil]
  apply Text.length_keptAfter_append not_isLineBreak_blockLines hend

/-- For every text without the marker, the block is inserted as lines of its own at the end of `[global]`,
and only once, if and only if the text does not stop in the middle of a line or another section follows
`[global]`. -/
theorem ensureIncludeBlock_iff {text : String} (h : ¬ markerBegin.toList <:+: text.toList) :
  (BlockInserted text (ensureIncludeBlock text)
      ∧ ensureIncludeBlock (ensureIncludeBlock text) = ensureIncludeBlock text)
    ↔ Text.EndsLine text.toList ∨ SectionFollows (Text.keptLines text.toList)
  := by
  rw [← endOfGlobalSection_lt]
  constructor
  · rintro ⟨⟨before, after, hlines, -, hresult⟩, -⟩
    by_contra hneither
    obtain ⟨hend, hk⟩ := not_or.mp hneither
    have hlength := length_keptLines_ensureIncludeBlock h (Nat.le_of_not_lt hk) hend
    rw [hresult, hlines] at hlength
    simp [blockLines] at hlength
    omega
  · intro hcond
    constructor
    · refine ⟨_, _, (List.take_append_drop (insertAt text) _).symm, ?_, ?_⟩
      · apply endsGlobal_endOfGlobalSection
      · apply keptLines_ensureIncludeBlock h hcond.symm
    · apply ensureIncludeBlock_idem

/-- A configuration with a section after `[global]`. -/
theorem ensureIncludeBlock_homes :
  BlockInserted "[global]\nworkgroup = WORKGROUP\n[homes]\nbrowseable = no"
    (ensureIncludeBlock "[global]\nworkgroup = WORKGROUP\n[homes]\nbrowseable = no")
  := ((ensureIncludeBlock_iff (by decide +kernel)).mpr (by decide +kernel)).1

/-- The marker runs on in the last line of a text that stops in the middle of it. -/
theorem not_blockInserted_unended :
  ¬ ∀ text : String, ¬ markerBegin.toList <:+: text.toList →
    BlockInserted text (ensureIncludeBlock text)
      ∧ ensureIncludeBlock (ensureIncludeBlock text) = ensureIncludeBlock text
  := by
  intro h
  obtain ⟨⟨before, after, hlines, -, hresult⟩, -⟩ := h "[global]\nworkgroup = NAS" (by decide +kernel)
  have hlength := congrArg List.length hresult
  have hlength' := congrArg List.length hlines
  rw [show (Text.keptLines (ensureIncludeBlock "[global]\nworkgroup = NAS").toList).length = 4 by
    decide +kernel] at hlength
  rw [show (Text.keptLines "[global]\nworkgroup = NAS".toList).length = 2 by decide +kernel] at hlength'
  simp [blockLines] at hlength hlength'
  omega
