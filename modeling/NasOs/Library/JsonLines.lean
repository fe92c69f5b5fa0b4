import NasOs.Library.JsonReading

/-!
# JSON as lines of bytes

A value is sent as one line: its text in UTF-8, and the end of the line.  No byte of the text ends a line,
and the line is read as the value.
-/

/-- The UTF-8 of a text. -/
def Text.utf8 (l : List Char) : List UInt8 :=
  l.flatMap String.utf8EncodeChar

namespace Text

/-- The UTF-8 of a text is decoded to it. -/
theorem fromUTF8?_utf8 (l : List Char) :
  String.fromUTF8? ⟨(utf8 l).toArray⟩ = some (String.ofList l)
  := by
  have hbytes : (⟨(utf8 l).toArray⟩ : ByteArray) = (String.ofList l).toByteArray := by
    rw [String.toByteArray_ofList, ByteArray.ext_iff, List.utf8Encode, List.data_toByteArray]
    rfl
  rw [hbytes, String.fromUTF8?]
  exact dif_pos (String.ofList l).isValidUTF8

/-- Only the end of a line has the byte of the end of a line in its UTF-8. -/
theorem newline_notMem_utf8EncodeChar {c : Char} (hc : c ≠ '\n') :
  (10 : UInt8) ∉ String.utf8EncodeChar c
  := by
  have hbyte : ∀ n, n < 256 → n ≠ 10 → (10 : UInt8) ≠ UInt8.ofNat n := by
    intro n hlt hn h
    apply hn
    rw [← UInt8.toNat_ofNat_of_lt' hlt, ← h]
    rfl
  have hval : c.val.toNat ≠ 10 := by
    intro h
    apply hc
    apply Char.ext
    apply UInt32.toNat_inj.mp h
  -- the bytes of a character that has several are all at least 128
  rw [String.utf8EncodeChar]
  split
  · simp only [List.mem_cons, List.not_mem_nil, or_false]
    apply hbyte
    · omega
    · exact hval
  · split
    · simp only [List.mem_cons, List.not_mem_nil, or_false, not_or]
      refine ⟨hbyte _ ?_ ?_, hbyte _ ?_ ?_⟩
      all_goals omega
    · split
      · simp only [List.mem_cons, List.not_mem_nil, or_false, not_or]
        refine ⟨hbyte _ ?_ ?_, hbyte _ ?_ ?_, hbyte _ ?_ ?_⟩
        all_goals omega
      · simp only [List.mem_cons, List.not_mem_nil, or_false, not_or]
        refine ⟨hbyte _ ?_ ?_, hbyte _ ?_ ?_, hbyte _ ?_ ?_, hbyte _ ?_ ?_⟩
        all_goals omega

/-- A text without ends of lines has no byte that ends a line. -/
theorem newline_notMem_utf8 {l : List Char} (hl : '\n' ∉ l) :
  (10 : UInt8) ∉ utf8 l
  := by
  intro h
  obtain ⟨c, hc, hbyte⟩ := List.mem_flatMap.mp h
  apply newline_notMem_utf8EncodeChar _ hbyte
  rintro rfl
  apply hl hc

end Text

namespace Json

/-- The bytes of a value. -/
def bytes (style : Style) (j : Json) : List UInt8 :=
  Text.utf8 (print style j)

/-- The line of a value. -/
def line (style : Style) (j : Json) : List UInt8 :=
  bytes style j ++ [10]

/-- The bytes of a value do not end a line. -/
theorem newline_notMem_bytes (style : Style) (j : Json) :
  (10 : UInt8) ∉ bytes style j
  := by
  apply Text.newline_notMem_utf8
  intro h
  exact absurd (print_ge_space style j _ h) (by decide)

/-- The line of a value is the text of the value and the end of a line. -/
theorem fromUTF8?_line (style : Style) (j : Json) :
  String.fromUTF8? ⟨(line style j).toArray⟩ = some (String.ofList (print style j ++ ['\n']))
  := by
  have hline : line style j = Text.utf8 (print style j ++ ['\n']) := by
    rw [line, bytes, Text.utf8, Text.utf8, List.flatMap_append]
    rfl
  rw [hline, Text.fromUTF8?_utf8]

/-- The text of a value with the end of a line is read as the value. -/
theorem read_print_newline (style : Style) (j : Json) :
  read (print style j ++ ['\n']) = some j
  := by
  obtain ⟨s, hrun, hreads⟩ := lexesTo_tokens style j []
  have hend : lexer.run s ['\n'] = some (j.tokens, .idle) := by
    rw [Machine.run_cons, hreads.step (by decide)]
    rfl
  rw [read, Machine.run_append, print, hrun, Option.bind_some, hend, Option.bind_some, lexEnd,
    Option.bind_some]
  apply readTokens_tokens

end Json
