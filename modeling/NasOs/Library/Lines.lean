import NasOs.Library.Text

/-!
# Lines with their ends

The lines of a text with the line boundaries that end them, so that the text is put together again from
its lines.  Lines that are put between two lines of a text, or after the last of a text that
ends a line, leave the other lines as they are; put after a line without an end they run on in it.
-/

namespace Text

/-- The lines of a text that starts in the middle of a line, with their ends. -/
def keptAfter (line : List Char) : List Char → List (List Char)
  | [] => if line = [] then [] else [line]
  | '\r' :: '\n' :: l => (line ++ ['\r', '\n']) :: keptAfter [] l
  | c :: l => if isLineBreak c then (line ++ [c]) :: keptAfter [] l else keptAfter (line ++ [c]) l

/-- The lines of a text, with their ends. -/
def keptLines (l : List Char) : List (List Char) :=
  keptAfter [] l

/-- A text does not stop in the middle of a line. -/
def EndsLine (l : List Char) : Prop :=
  ∀ c ∈ l.getLast?, isLineBreak c = true

instance (l : List Char) : Decidable (EndsLine l) :=
  show Decidable (∀ c ∈ l.getLast?, isLineBreak c = true) from Option.decidableForallMem _

/-- What comes last in a text does not stop in the middle of a line, if the text does not. -/
theorem EndsLine.of_append {l l' : List Char} (h : EndsLine (l ++ l')) :
  EndsLine l'
  := by
  intro c hc
  apply h c
  rw [Option.mem_def, List.getLast?_append, Option.mem_def.mp hc, Option.some_or]

/-- Neither do two texts one after the other that each do not. -/
theorem EndsLine.append {l l' : List Char} (h : EndsLine l) (h' : EndsLine l') :
  EndsLine (l ++ l')
  := by
  intro c hc
  rw [Option.mem_def, List.getLast?_append] at hc
  cases hlast : l'.getLast? with
  | none =>
      rw [hlast, Option.none_or] at hc
      apply h c hc
  | some d =>
      rw [hlast, Option.some_or, Option.some_inj] at hc
      rw [← hc]
      apply h' d hlast

/-- A text is its lines. -/
theorem flatten_keptAfter (line l : List Char) :
  (keptAfter line l).flatten = line ++ l
  := by
  fun_induction keptAfter line l with
  | case1 => rfl
  | case2 line hline => simp
  | case3 line l ih => simp [ih]
  | case4 line c l hne hc ih => simp [ih]
  | case5 line c l hne hc ih => simp [ih]

@[simp]
theorem flatten_keptLines (l : List Char) :
  (keptLines l).flatten = l
  := flatten_keptAfter [] l

/-- A character that ends no line. -/
theorem keptAfter_cons_of_not {c : Char} (hc : isLineBreak c = false) (line l : List Char) :
  keptAfter line (c :: l) = keptAfter (line ++ [c]) l
  := by
  have hne : c ≠ '\r' := by
    rintro rfl
    cases hc
  rw [keptAfter.eq_def]
  split
  · contradiction
  · rename_i heq
    apply absurd (List.cons.inj heq).1 hne
  · rename_i heq
    obtain ⟨rfl, rfl⟩ := List.cons.inj heq
    rw [if_neg (by simp [hc])]

/-- A character that ends a line; a carriage return before a newline does not by itself. -/
theorem keptAfter_cons_of {c : Char} (hc : isLineBreak c = true) {l : List Char}
    (h : c = '\r' → l.head? ≠ some '\n') (line : List Char) :
  keptAfter line (c :: l) = (line ++ [c]) :: keptAfter [] l
  := by
  rw [keptAfter.eq_def]
  split
  · contradiction
  · rename_i heq
    obtain ⟨rfl, rfl⟩ := List.cons.inj heq
    apply absurd rfl (h rfl)
  · rename_i heq
    obtain ⟨rfl, rfl⟩ := List.cons.inj heq
    rw [if_pos hc]

/-- Characters that end no line. -/
theorem keptAfter_append {l : List Char} (h : ∀ c ∈ l, isLineBreak c = false)
    (line rest : List Char) :
  keptAfter line (l ++ rest) = keptAfter (line ++ l) rest
  := by
  induction l generalizing line with
  | nil => rw [List.append_nil, List.nil_append]
  | cons c l ih =>
      rw [List.cons_append, keptAfter_cons_of_not (h c List.mem_cons_self),
        ih fun d hd => h d (List.mem_cons_of_mem _ hd), List.append_assoc, List.singleton_append]

/-- Characters that end no line are the beginning of the next. -/
theorem keptLines_append {line : List Char} (h : ∀ c ∈ line, isLineBreak c = false)
    (l : List Char) :
  keptLines (line ++ l) = keptAfter line l
  := keptAfter_append h [] l

/-- Lines that are each ended by a newline come before what follows them. -/
theorem keptAfter_lines {line : List Char} {lines : List (List Char)}
    (h : ∀ l ∈ line :: lines, ∀ c ∈ l, isLineBreak c = false) (before rest : List Char) :
  keptAfter before (((line :: lines).flatMap fun l => l ++ ['\n']) ++ rest)
    = (before ++ line ++ ['\n']) :: (lines.map fun l => l ++ ['\n']) ++ keptLines rest
  := by
  induction lines generalizing line before with
  | nil =>
      rw [List.flatMap_singleton, List.append_assoc, keptAfter_append (h line List.mem_cons_self)]
      rfl
  | cons line' lines ih =>
      have hrest := ih (fun l hl => h l (List.mem_cons_of_mem _ hl)) []
      rw [List.flatMap_cons, List.append_assoc, List.append_assoc,
        keptAfter_append (h line List.mem_cons_self)]
      apply congrArg (List.cons _) hrest

/-- Lines put before a text come before its lines. -/
theorem keptLines_lines {block : List (List Char)}
    (hblock : ∀ l ∈ block, ∀ c ∈ l, isLineBreak c = false) (l : List Char) :
  keptLines ((block.flatMap fun l => l ++ ['\n']) ++ l)
    = (block.map fun l => l ++ ['\n']) ++ keptLines l
  := by
  cases block with
  | nil => rfl
  | cons line lines => apply keptAfter_lines hblock []

/-- What comes first in a text does so in its lines. -/
theorem head?_flatten_keptAfter_append {l block : List Char} (hblock : block.head? ≠ some '\n')
    (hne : block ≠ []) (hl : l.head? ≠ some '\n') (k : ℕ) :
  (((keptAfter [] l).take k).flatten ++ block ++ ((keptAfter [] l).drop k).flatten).head?
    ≠ some '\n'
  := by
  cases hfront : ((keptAfter [] l).take k).flatten with
  | nil =>
      rw [List.nil_append, List.head?_append_of_ne_nil _ hne]
      apply hblock
  | cons c front =>
      have htext : l = c :: (front ++ ((keptAfter [] l).drop k).flatten) := by
        rw [← List.cons_append, ← hfront, ← List.flatten_append, List.take_append_drop,
          flatten_keptAfter, List.nil_append]
      rw [htext] at hl
      apply hl

/-- Lines put between lines of a text, or after the last if it has an end, are lines of their own, and
leave the others as they are. -/
theorem keptLines_insert {block : List (List Char)}
    (hblock : ∀ l ∈ block, ∀ c ∈ l, isLineBreak c = false) (hne : block ≠ [])
    (hfirst : (block.flatMap fun l => l ++ ['\n']).head? ≠ some '\n') {line l : List Char}
    (hline : ∀ c ∈ line, isLineBreak c = false) {k : ℕ}
    (hk : k < (keptAfter line l).length ∨ EndsLine (line ++ l)) :
  keptLines (((keptAfter line l).take k).flatten ++ (block.flatMap fun l => l ++ ['\n'])
      ++ ((keptAfter line l).drop k).flatten)
    = (keptAfter line l).take k ++ (block.map fun l => l ++ ['\n']) ++ (keptAfter line l).drop k
  := by
  have hblock_ne : (block.flatMap fun l => l ++ ['\n']) ≠ [] := by
    obtain ⟨first, block, rfl⟩ := List.exists_cons_of_ne_nil hne
    simp
  have hstart : ∀ {line l : List Char}, (∀ c ∈ line, isLineBreak c = false) →
      keptLines ((block.flatMap fun l => l ++ ['\n']) ++ (line ++ l))
        = (block.map fun l => l ++ ['\n']) ++ keptAfter line l := by
    intro line l hline
    rw [keptLines_lines hblock, keptLines_append hline]
  fun_induction keptAfter line l generalizing k with
  | case1 => simpa [keptAfter] using @hstart [] [] hline
  | case2 line hne' =>
      cases k with
      | zero => simpa [keptAfter, hne'] using @hstart line [] hline
      | succ k =>
          exfalso
          rcases hk with hk | hk
          · simp at hk
          · rw [List.append_nil] at hk
            have hlast := hk _ (List.getLast?_eq_getLast_of_ne_nil hne')
            rw [hline _ (List.getLast_mem hne')] at hlast
            cases hlast
  | case3 line l ih =>
      cases k with
      | zero => simpa [flatten_keptAfter, keptAfter] using @hstart line ('\r' :: '\n' :: l) hline
      | succ k =>
          have hrest := ih (k := k) (by simp) (by
            rcases hk with hk | hk
            · left
              simpa using hk
            · right
              apply EndsLine.of_append (l := line ++ ['\r', '\n'])
              simpa using hk)
          simp only [List.take_succ_cons, List.drop_succ_cons, List.flatten_cons,
            List.append_assoc] at hrest ⊢
          rw [keptLines_append hline]
          apply congrArg (List.cons _) hrest
  | case4 line c l hcr hc ih =>
      cases k with
      | zero =>
          have hzero := @hstart line (c :: l) hline
          have hhead : c = '\r' → l.head? ≠ some '\n' := by
            intro hc' hl
            obtain ⟨l', hl'⟩ := List.head?_eq_some_iff.mp hl
            apply hcr l' hc' hl'
          rw [keptAfter_cons_of hc hhead] at hzero
          simpa [flatten_keptAfter] using hzero
      | succ k =>
          have hrest := ih (k := k) (by simp) (by
            rcases hk with hk | hk
            · left
              simpa using hk
            · right
              apply EndsLine.of_append (l := line ++ [c])
              simpa using hk)
          have hhead : c = '\r' → _ := fun hc' =>
            head?_flatten_keptAfter_append hfirst hblock_ne (l := l)
              (by
                intro hl
                obtain ⟨l', hl'⟩ := List.head?_eq_some_iff.mp hl
                apply hcr l' hc' hl')
              k
          simp only [List.take_succ_cons, List.drop_succ_cons, List.flatten_cons,
            List.append_assoc] at hrest hhead ⊢
          rw [keptLines_append hline, List.singleton_append, keptAfter_cons_of hc hhead]
          apply congrArg (List.cons _) hrest
  | case5 line c l hcr hc ih =>
      apply ih
      · intro d hd
        rcases List.mem_append.mp hd with hd | hd
        · apply hline d hd
        · rw [List.mem_singleton.mp hd]
          simpa using hc
      · rw [List.append_assoc, List.singleton_append]
        apply hk

/-- The first of the lines put after a text that stops in the middle of a line is part of that line. -/
theorem length_keptAfter_append {first : List Char} {block : List (List Char)}
    (hblock : ∀ l ∈ first :: block, ∀ c ∈ l, isLineBreak c = false) {line l : List Char}
    (h : ¬ EndsLine (line ++ l)) :
  (keptAfter line (l ++ ((first :: block).flatMap fun l => l ++ ['\n']))).length
    = (keptAfter line l).length + block.length
  := by
  have hne : ∀ {l : List Char}, ¬ EndsLine l → l ≠ [] := by
    rintro l hl rfl
    apply hl
    intro c hc
    cases hc
  fun_induction keptAfter line l with
  | case1 =>
      exfalso
      apply hne h
      rfl
  | case2 line hne' =>
      have hlines := keptAfter_lines hblock line []
      rw [List.append_nil] at hlines
      rw [List.nil_append, hlines]
      simp [keptLines, keptAfter]
      omega
  | case3 line l ih =>
      have hl : ¬ EndsLine ([] ++ l) := by
        intro hl
        have hend : EndsLine (line ++ ['\r', '\n']) := by simp [EndsLine, isLineBreak]
        apply h
        simpa using hend.append hl
      have hrest := ih hl
      change ((line ++ ['\r', '\n']) :: keptAfter [] (l ++ _)).length = _
      rw [List.length_cons, List.length_cons, hrest]
      omega
  | case4 line c l hcr hc ih =>
      have hl : ¬ EndsLine ([] ++ l) := by
        intro hl
        have hend : EndsLine (line ++ [c]) := by simp [EndsLine, hc]
        apply h
        simpa using hend.append hl
      have hhead : c = '\r' → (l ++ ((first :: block).flatMap fun l => l ++ ['\n'])).head?
          ≠ some '\n' := by
        intro hc' hhead
        have hl' : l ≠ [] := hne hl
        rw [List.head?_append_of_ne_nil _ hl'] at hhead
        obtain ⟨l', hl'⟩ := List.head?_eq_some_iff.mp hhead
        apply hcr l' hc' hl'
      rw [List.cons_append, keptAfter_cons_of hc hhead, List.length_cons, List.length_cons, ih hl]
      omega
  | case5 line c l hcr hc ih =>
      rw [List.cons_append, keptAfter_cons_of_not (by simpa using hc)]
      apply ih
      simpa using h

end Text
