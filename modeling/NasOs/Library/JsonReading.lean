import NasOs.Library.Json

/-!
# Reading printed JSON

The text of a value, in either style, is read as that value (`Json.read_print`).  The
tokens are read back by the reader, and the characters of each token by the lexer: a word or
number ends where a character follows that cannot continue it, which is what `Reads` keeps
track of.  The text has no control character in it (`Json.print_ge_space`).
-/

namespace Json

/-! ### Tokens are read back -/

/-- The first token of a value is no closing bracket. -/
theorem tokens_eq_cons (j : Json) :
  ∃ t ts, j.tokens = t :: ts ∧ t ≠ .closeArr
  := by
  rcases j with _ | b | z | x | s | ⟨_ | ⟨j, js⟩⟩ | ⟨_ | ⟨⟨key, j⟩, ms⟩⟩
  all_goals
    refine ⟨_, _, rfl, ?_⟩
    rintro ⟨⟩

/-- Where a value or the end of an array may come, a value comes as the first element. -/
theorem readStep_firstElement {stack : List Frame} {t : Token} (h : t ≠ .closeArr) :
  readStep (.firstElement stack) t = readStep (.value (.arr [] :: stack)) t
  := by
  cases t with
  | closeArr => contradiction
  | _ => rfl

theorem run_firstElement (stack : List Frame) (j : Json) (ts : List Token) :
  reader.run (.firstElement stack) (j.tokens ++ ts)
    = reader.run (.value (.arr [] :: stack)) (j.tokens ++ ts)
  := by
  obtain ⟨t, ts', htokens, ht⟩ := tokens_eq_cons j
  rw [htokens, List.cons_append, Machine.run_cons, Machine.run_cons]
  congr 1
  apply readStep_firstElement ht

mutual

/-- Reading the tokens of a value completes the value. -/
theorem run_tokens : ∀ (j : Json) (stack : List Frame) (ts : List Token),
    reader.run (.value stack) (j.tokens ++ ts) = reader.run (.after j stack) ts
  | .null, _, _ => rfl
  | .bool _, _, _ => rfl
  | .int _, _, _ => rfl
  | .float _, _, _ => rfl
  | .str _, _, _ => rfl
  | .arr [], _, _ => rfl
  | .obj [], _, _ => rfl
  | .arr (j :: js), stack, ts => by
      simp only [tokens, List.cons_append, List.append_assoc]
      apply Eq.trans (run_firstElement stack j (elementTokens js ++ ts))
      rw [run_tokens j, run_elementTokens js]
      rfl
  | .obj ((key, j) :: ms), stack, ts => by
      simp only [tokens, List.cons_append, List.append_assoc]
      apply Eq.trans (run_tokens j (.member [] key :: stack) (memberTokens ms ++ ts))
      rw [run_memberTokens ms]
      rfl

/-- Reading the rest of an array completes the array. -/
theorem run_elementTokens : ∀ (js done : List Json) (j : Json) (stack : List Frame)
    (ts : List Token),
    reader.run (.after j (.arr done :: stack)) (elementTokens js ++ ts)
      = reader.run (.after (.arr (done ++ j :: js)) stack) ts
  | [], _, _, _, _ => rfl
  | j' :: js, done, j, stack, ts => by
      simp only [elementTokens, List.cons_append, List.append_assoc]
      apply Eq.trans (run_tokens j' (.arr (done ++ [j]) :: stack) (elementTokens js ++ ts))
      rw [run_elementTokens js, List.append_assoc]
      rfl

/-- Reading the rest of an object completes the object. -/
theorem run_memberTokens : ∀ (ms done : List (String × Json)) (key : String) (j : Json)
    (stack : List Frame) (ts : List Token),
    reader.run (.after j (.member done key :: stack)) (memberTokens ms ++ ts)
      = reader.run (.after (.obj (done ++ (key, j) :: ms)) stack) ts
  | [], _, _, _, _, _ => rfl
  | (key', j') :: ms, done, key, j, stack, ts => by
      simp only [memberTokens, List.cons_append, List.append_assoc]
      apply Eq.trans
        (run_tokens j' (.member (done ++ [(key, j)]) key' :: stack) (memberTokens ms ++ ts))
      rw [run_memberTokens ms, List.append_assoc]
      rfl

end

/-- The tokens of a value are read as that value. -/
theorem readTokens_tokens (j : Json) :
  readTokens j.tokens = some j
  := by
  have h := run_tokens j [] []
  rw [List.append_nil] at h
  rw [readTokens, h]
  rfl

/-! ### Characters are read back -/

/-- A run of the lexer ends with the tokens `ts` read, or all of them but a word or number
that the next character may continue. -/
def Reads (s : LexState) (ts : List Token) : Prop :=
  s = (ts, .idle) ∨ ∃ ts' l t, s = (ts', .bare l) ∧ classify l = some t ∧ ts = ts' ++ [t]

theorem reads_idle (ts : List Token) :
  Reads (ts, .idle) ts
  := Or.inl rfl

/-- The tokens read are those at the end of the text. -/
theorem Reads.lexEnd {s : LexState} {ts : List Token} (h : Reads s ts) :
  Json.lexEnd s = some ts
  := by
  rcases h with rfl | ⟨ts', l, t, rfl, hl, rfl⟩
  · rfl
  · rw [Json.lexEnd, hl]
    rfl

/-- A character that cannot continue a word or number is read as after its end. -/
theorem Reads.step {s : LexState} {ts : List Token} (h : Reads s ts) {c : Char}
    (hc : isBare c = false) :
  lexer.step s c = lexStart ts c
  := by
  rcases h with rfl | ⟨ts', l, t, rfl, hl, rfl⟩
  · rfl
  · simp [lexer, lexStep, hc, hl]

/-- A text is read from `s` as the tokens `ts`. -/
def LexesTo (s : LexState) (l : List Char) (ts : List Token) : Prop :=
  ∃ s', lexer.run s l = some s' ∧ Reads s' ts

/-- Texts read one after the other are read as one. -/
theorem LexesTo.append {s s' : LexState} {l l' : List Char} {ts : List Token}
    (h : lexer.run s l = some s') (h' : LexesTo s' l' ts) :
  LexesTo s (l ++ l') ts
  := by
  obtain ⟨s'', hrun, hreads⟩ := h'
  use s''
  constructor
  · rw [Machine.run_append, h, Option.bind_some, hrun]
  · apply hreads

/-! #### Words and numbers -/

/-- Bare characters are collected. -/
theorem run_bare (ts : List Token) (l' : List Char) :
    ∀ {l : List Char}, l.all isBare = true →
      lexer.run (ts, .bare l') l = some (ts, .bare (l' ++ l))
  | [], _ => by simp
  | c :: l, h => by
      rw [List.all_cons, Bool.and_eq_true] at h
      obtain ⟨hc, hl⟩ := h
      rw [Machine.run_cons]
      simp only [lexer, lexStep, hc, if_true, Option.bind_some]
      apply Eq.trans (run_bare ts (l' ++ [c]) hl)
      rw [List.append_assoc]
      rfl

/-- No character of a word or number means anything else. -/
theorem lexStart_bare {c : Char} (h : isBare c = true) (ts : List Token) :
  lexStart ts c = some (ts, .bare [c])
  := by
  rw [lexStart.eq_def]
  split
  all_goals first
    | (exfalso; revert h; decide)
    | rw [if_pos h]

/-- A word or number is read as its token. -/
theorem lexesTo_bare {l : List Char} {t : Token} (hne : l ≠ []) (hl : l.all isBare = true)
    (ht : classify l = some t) (ts : List Token) :
  LexesTo (ts, .idle) l (ts ++ [t])
  := by
  cases l with
  | nil => contradiction
  | cons c l =>
      rw [List.all_cons, Bool.and_eq_true] at hl
      obtain ⟨hc, hl'⟩ := hl
      use (ts, .bare (c :: l))
      constructor
      · rw [Machine.run_cons]
        simp only [lexer, lexStep, lexStart_bare hc, Option.bind_some]
        apply run_bare ts [c] hl'
      · right
        exact ⟨ts, c :: l, t, rfl, ht, rfl⟩

theorem isBare_of_isDigit {c : Char} (h : c.isDigit = true) :
  isBare c = true
  := by
  simp [isBare, Char.isAlphanum, h]

theorem readNat_toDigits (n : ℕ) :
  readNat (Nat.toDigits 10 n) = some n
  := by
  simp [readNat]

/-- A digit is first in the numeral of a natural number. -/
theorem toDigits_eq_cons (n : ℕ) :
  ∃ c l, Nat.toDigits 10 n = c :: l ∧ c.isDigit = true
  := by
  cases h : Nat.toDigits 10 n with
  | nil => apply absurd h Nat.toDigits_ne_nil
  | cons c l =>
      use c, l, rfl
      apply Nat.isDigit_of_mem_toDigits (by decide) (by decide) (h ▸ List.mem_cons_self)

theorem readInt_printInt (z : ℤ) :
  readInt (printInt z) = some z
  := by
  cases z with
  | ofNat n =>
      obtain ⟨c, l, hl, hc⟩ := toDigits_eq_cons n
      have hread := readNat_toDigits n
      rw [printInt]
      rw [hl] at hread ⊢
      rw [readInt.eq_def]
      split
      · rename_i heq
        cases heq
        cases hc
      · rw [hread]
        rfl
  | negSucc n =>
      rw [printInt, readInt, readNat_toDigits]
      rfl

theorem all_isBare_printInt (z : ℤ) :
  (printInt z).all isBare = true
  := by
  have hdigits : ∀ n, (Nat.toDigits 10 n).all isBare = true := by
    intro n
    apply List.all_eq_true.mpr
    intro c hc
    apply isBare_of_isDigit (Nat.isDigit_of_mem_toDigits (by decide) (by decide) hc)
  cases z with
  | ofNat n => apply hdigits
  | negSucc n =>
      rw [printInt, List.all_cons, hdigits]
      rfl

theorem printInt_ne_nil (z : ℤ) :
  printInt z ≠ []
  := by
  cases z with
  | ofNat n => apply Nat.toDigits_ne_nil
  | negSucc n => apply List.cons_ne_nil

theorem classify_printInt (z : ℤ) :
  classify (printInt z) = some (.int z)
  := by
  have hread := readInt_printInt z
  rw [classify]
  split
  · rename_i heq
    rw [hread] at heq
    cases heq
    rfl
  · rename_i heq
    rw [hread] at heq
    cases heq

theorem classify_float (x : FloatLiteral) :
  classify x.1 = some (.float x)
  := by
  obtain ⟨l, hfloat, hbare, hread⟩ := x
  have hword : ∀ w, isFloat w = false → l ≠ w := by
    rintro w hw rfl
    rw [hfloat] at hw
    cases hw
  have hnull := hword "null".toList (by decide)
  have htrue := hword "true".toList (by decide)
  have hfalse := hword "false".toList (by decide)
  rw [classify]
  split
  · rename_i heq
    rw [hread] at heq
    cases heq
  · rw [if_neg hnull, if_neg htrue, if_neg hfalse, dif_pos ⟨hfloat, hbare, hread⟩]

/-! #### Strings -/

theorem hexValue_digitChar {d : ℕ} (h : d < 16) :
  hexValue (Nat.digitChar d) = some d
  := by
  revert d
  decide

/-- A hexadecimal digit before the last is added to the code unit. -/
theorem step_hex (ts : List Token) (l : List Char) (high : Option ℕ) (n : ℕ) {k d : ℕ}
    (hk : k < 3) (hd : d < 16) :
  lexer.step (ts, .hex l high n k) (Nat.digitChar d)
    = some (ts, .hex l high (16 * n + d) (k + 1))
  := by
  simp only [lexer, lexStep, hexValue_digitChar hd, Option.bind_some, if_pos hk]

/-- The four digits of a code unit are read as that unit. -/
theorem run_hexDigits (ts : List Token) (l : List Char) (high : Option ℕ) {n : ℕ}
    (hn : n < 0x10000) :
  lexer.run (ts, .hex l high 0 0) (hexDigits n)
    = (codeUnit l high n).map fun mode => (ts, mode)
  := by
  have hlast := hexValue_digitChar (Nat.mod_lt n (by decide : 0 < 16))
  have hsum : 16 * (16 * (16 * (16 * 0 + n / 4096 % 16) + n / 256 % 16) + n / 16 % 16) + n % 16
      = n := by
    omega
  rw [hexDigits, Machine.run_cons, step_hex _ _ _ _ (by decide) (Nat.mod_lt _ (by decide))]
  rw [Option.bind_some, Machine.run_cons]
  rw [step_hex _ _ _ _ (by decide) (Nat.mod_lt _ (by decide)), Option.bind_some]
  rw [Machine.run_cons, step_hex _ _ _ _ (by decide) (Nat.mod_lt _ (by decide))]
  rw [Option.bind_some, Machine.run_cons]
  simp only [lexer, lexStep, hlast, Option.bind_some, hsum]
  cases codeUnit l high n with
  | none => rfl
  | some mode => rfl

theorem run_unicode (ts : List Token) (l r : List Char) :
  lexer.run (ts, .str l) ('\\' :: 'u' :: r) = lexer.run (ts, .hex l none 0 0) r
  := rfl

theorem run_unicode_pair (ts : List Token) (l r : List Char) (high : ℕ) :
  lexer.run (ts, .pair l high) ('\\' :: 'u' :: r) = lexer.run (ts, .hex l (some high) 0 0) r
  := rfl

/-- A character escaped by its code units is read as that character. -/
theorem run_unicodeEscape (ts : List Token) (l : List Char) (c : Char) :
  lexer.run (ts, .str l) (unicodeEscape c.toNat) = some (ts, .str (l ++ [c]))
  := by
  have hvalid : c.toNat < 0xd800 ∨ 0xdfff < c.toNat ∧ c.toNat < 0x110000 := c.valid
  generalize hn : c.toNat = n at hvalid
  have hc : Char.ofNat n = c := by rw [← hn, Char.ofNat_toNat]
  rw [unicodeEscape]
  split
  · have h₁ : ¬ (0xd800 ≤ n ∧ n < 0xdc00) := by omega
    have h₂ : ¬ (0xdc00 ≤ n ∧ n < 0xe000) := by omega
    rw [run_unicode, run_hexDigits ts l none (by omega), codeUnit, if_neg h₁, if_neg h₂, hc]
    rfl
  · have hhigh : 0xd800 ≤ 0xd800 + (n - 0x10000) / 0x400
        ∧ 0xd800 + (n - 0x10000) / 0x400 < 0xdc00 := by omega
    have hlow : 0xdc00 ≤ 0xdc00 + (n - 0x10000) % 0x400
        ∧ 0xdc00 + (n - 0x10000) % 0x400 < 0xe000 := by omega
    have hsum : 0x10000 + (0xd800 + (n - 0x10000) / 0x400 - 0xd800) * 0x400
        + (0xdc00 + (n - 0x10000) % 0x400 - 0xdc00) = n := by omega
    generalize 0xd800 + (n - 0x10000) / 0x400 = high at hhigh hsum ⊢
    generalize 0xdc00 + (n - 0x10000) % 0x400 = low at hlow hsum ⊢
    rw [Machine.run_append, run_unicode, run_hexDigits ts l none (by omega)]
    rw [codeUnit, if_pos hhigh, Option.map_some, Option.bind_some, run_unicode_pair]
    rw [run_hexDigits ts l (some high) (by omega), codeUnit, if_pos hlow, hsum, hc]
    rfl

/-- A character that is escaped by a letter is read from that letter. -/
theorem unescape_shortEscape {c e : Char} (h : shortEscape c = some e) :
  e ≠ 'u' ∧ unescape e = some c
  := by
  unfold shortEscape at h
  split_ifs at h
  all_goals
    cases h
    subst c
    decide

/-- A character in a string is read as that character. -/
theorem run_escape (style : Style) (ts : List Token) (l : List Char) (c : Char) :
  lexer.run (ts, .str l) (escape style c) = some (ts, .str (l ++ [c]))
  := by
  rw [escape]
  split
  · rename_i e he
    obtain ⟨hu, hunescape⟩ := unescape_shortEscape he
    simp only [Machine.run_cons, Machine.run_nil, lexer, lexStep]
    simp [hu, hunescape]
  · rename_i he
    split
    · rename_i hraw
      have hquote : c ≠ '"' := by
        rintro rfl
        cases he
      have hbackslash : c ≠ '\\' := by
        rintro rfl
        cases he
      simp only [isRaw, Bool.and_eq_true, decide_eq_true_eq] at hraw
      have hcontrol : ¬ c.toNat < 0x20 := by omega
      simp only [Machine.run_cons, Machine.run_nil, lexer, lexStep, if_neg hquote,
        if_neg hbackslash, if_neg hcontrol]
      rfl
    · apply run_unicodeEscape

/-- The inside of a string is read as that string. -/
theorem run_escapes (style : Style) (ts : List Token) (s : List Char) :
    ∀ l, lexer.run (ts, .str l) (s.flatMap (escape style)) = some (ts, .str (l ++ s))
  := by
  induction s with
  | nil => simp
  | cons c s ih =>
      intro l
      rw [List.flatMap_cons, Machine.run_append, run_escape, Option.bind_some, ih]
      rw [List.append_assoc]
      rfl

/-- A string is read as its token, wherever a word or number can end. -/
theorem lexesTo_str {s : LexState} {ts : List Token} (h : Reads s ts) (style : Style)
    (v : String) :
  lexer.run s (text style (.str v)) = some (ts ++ [.str v], .idle)
  := by
  have hstart : lexer.step s '"' = some (ts, .str []) := h.step (by decide)
  rw [text, List.cons_append, Machine.run_cons, hstart, Option.bind_some]
  rw [Machine.run_append, run_escapes, Option.bind_some, List.nil_append]
  simp [lexer, lexStep]

/-! #### Punctuation -/

/-- A punctuation mark is read as its token, wherever a word or number can end. -/
theorem run_punctuation {s : LexState} {ts : List Token} (h : Reads s ts) (style : Style) :
  lexer.run s (text style .openArr) = some (ts ++ [.openArr], .idle)
    ∧ lexer.run s (text style .closeArr) = some (ts ++ [.closeArr], .idle)
    ∧ lexer.run s (text style .openObj) = some (ts ++ [.openObj], .idle)
    ∧ lexer.run s (text style .closeObj) = some (ts ++ [.closeObj], .idle)
    ∧ lexer.run s (text style .comma) = some (ts ++ [.comma], .idle)
    ∧ lexer.run s (text style .colon) = some (ts ++ [.colon], .idle)
  := by
  have hmark : ∀ c t, isBare c = false → lexStart ts c = some (ts ++ [t], .idle) →
      lexer.run s [c] = some (ts ++ [t], .idle)
        ∧ lexer.run s [c, ' '] = some (ts ++ [t], .idle) := by
    intro c t hc ht
    have hstep : lexer.step s c = some (ts ++ [t], .idle) := by rw [h.step hc, ht]
    constructor
    · rw [Machine.run_cons, hstep]
      rfl
    · rw [Machine.run_cons, hstep]
      rfl
  have hcomma := hmark ',' .comma (by decide) rfl
  have hcolon := hmark ':' .colon (by decide) rfl
  refine ⟨?_, ?_, ?_, ?_, ?_, ?_⟩
  · apply (hmark '[' .openArr (by decide) rfl).1
  · apply (hmark ']' .closeArr (by decide) rfl).1
  · apply (hmark '{' .openObj (by decide) rfl).1
  · apply (hmark '}' .closeObj (by decide) rfl).1
  · rw [text]
    split
    · apply hcomma.2
    · apply hcomma.1
  · rw [text]
    split
    · apply hcolon.2
    · apply hcolon.1

/-! #### Values -/

mutual

/-- The text of a value is read as its tokens. -/
theorem lexesTo_tokens (style : Style) : ∀ (j : Json) (ts : List Token),
    LexesTo (ts, .idle) (j.tokens.flatMap (text style)) (ts ++ j.tokens)
  | .null, ts => by
      rw [tokens, List.flatMap_singleton, text]
      apply lexesTo_bare (by decide) (by decide) rfl
  | .bool true, ts => by
      rw [tokens, List.flatMap_singleton, text]
      apply lexesTo_bare (by decide) (by decide) rfl
  | .bool false, ts => by
      rw [tokens, List.flatMap_singleton, text]
      apply lexesTo_bare (by decide) (by decide) rfl
  | .int z, ts => by
      rw [tokens, List.flatMap_singleton]
      apply lexesTo_bare (printInt_ne_nil z) (all_isBare_printInt z) (classify_printInt z)
  | .float x, ts => by
      have hne : x.1 ≠ [] := by
        intro h
        have hfloat := x.2.1
        rw [h] at hfloat
        cases hfloat
      rw [tokens, List.flatMap_singleton]
      apply lexesTo_bare hne x.2.2.1 (classify_float x)
  | .str s, ts => by
      rw [tokens, List.flatMap_singleton]
      use (ts ++ [.str s], .idle), lexesTo_str (reads_idle ts) style s
      apply reads_idle
  | .arr [], ts => by
      have hopen := (run_punctuation (reads_idle ts) style).1
      have hclose := (run_punctuation (reads_idle (ts ++ [.openArr])) style).2.1
      apply LexesTo.append hopen
      use (ts ++ [.openArr, .closeArr], .idle)
      constructor
      · simpa using hclose
      · apply reads_idle
  | .arr (j :: js), ts => by
      have hopen := (run_punctuation (reads_idle ts) style).1
      obtain ⟨s, hrun, hreads⟩ := lexesTo_tokens style j (ts ++ [.openArr])
      have hrest := run_elementTokens_text style js hreads
      rw [tokens, List.cons_append, List.flatMap_cons, List.flatMap_append]
      apply LexesTo.append hopen
      apply LexesTo.append hrun
      refine ⟨_, hrest, ?_⟩
      left
      simp
  | .obj [], ts => by
      have hopen := (run_punctuation (reads_idle ts) style).2.2.1
      have hclose := (run_punctuation (reads_idle (ts ++ [.openObj])) style).2.2.2.1
      apply LexesTo.append hopen
      use (ts ++ [.openObj, .closeObj], .idle)
      constructor
      · simpa using hclose
      · apply reads_idle
  | .obj ((key, j) :: ms), ts => by
      have hopen := (run_punctuation (reads_idle ts) style).2.2.1
      have hkey := lexesTo_str (reads_idle (ts ++ [.openObj])) style key
      have hcolon :=
        (run_punctuation (reads_idle (ts ++ [.openObj] ++ [.str key])) style).2.2.2.2.2
      obtain ⟨s, hrun, hreads⟩ :=
        lexesTo_tokens style j (ts ++ [.openObj] ++ [.str key] ++ [.colon])
      have hrest := run_memberTokens_text style ms hreads
      rw [tokens]
      simp only [List.cons_append, List.flatMap_cons, List.flatMap_append]
      apply LexesTo.append hopen
      apply LexesTo.append hkey
      apply LexesTo.append hcolon
      apply LexesTo.append hrun
      refine ⟨_, hrest, ?_⟩
      left
      simp

/-- The text of the rest of an array is read as its tokens. -/
theorem run_elementTokens_text (style : Style) : ∀ (js : List Json) {s : LexState}
    {ts : List Token}, Reads s ts →
      lexer.run s ((elementTokens js).flatMap (text style)) = some (ts ++ elementTokens js, .idle)
  | [], s, ts, h => by
      rw [elementTokens, List.flatMap_singleton]
      apply (run_punctuation h style).2.1
  | j :: js, s, ts, h => by
      have hcomma := (run_punctuation h style).2.2.2.2.1
      obtain ⟨s', hrun, hreads⟩ := lexesTo_tokens style j (ts ++ [.comma])
      have hrest := run_elementTokens_text style js hreads
      rw [elementTokens, List.cons_append, List.flatMap_cons, List.flatMap_append]
      rw [Machine.run_append, hcomma, Option.bind_some, Machine.run_append, hrun]
      rw [Option.bind_some, hrest]
      simp

/-- The text of the rest of an object is read as its tokens. -/
theorem run_memberTokens_text (style : Style) : ∀ (ms : List (String × Json)) {s : LexState}
    {ts : List Token}, Reads s ts →
      lexer.run s ((memberTokens ms).flatMap (text style)) = some (ts ++ memberTokens ms, .idle)
  | [], s, ts, h => by
      rw [memberTokens, List.flatMap_singleton]
      apply (run_punctuation h style).2.2.2.1
  | (key, j) :: ms, s, ts, h => by
      have hcomma := (run_punctuation h style).2.2.2.2.1
      have hkey := lexesTo_str (reads_idle (ts ++ [.comma])) style key
      have hcolon :=
        (run_punctuation (reads_idle (ts ++ [.comma] ++ [.str key])) style).2.2.2.2.2
      obtain ⟨s', hrun, hreads⟩ :=
        lexesTo_tokens style j (ts ++ [.comma] ++ [.str key] ++ [.colon])
      have hrest := run_memberTokens_text style ms hreads
      rw [memberTokens]
      simp only [List.cons_append, List.flatMap_cons, List.flatMap_append]
      rw [Machine.run_append, hcomma, Option.bind_some, Machine.run_append, hkey]
      rw [Option.bind_some, Machine.run_append, hcolon, Option.bind_some]
      rw [Machine.run_append, hrun, Option.bind_some, hrest]
      simp

end

/-- The text of a value is read as that value, whatever the style. -/
theorem read_print (style : Style) (j : Json) :
  read (print style j) = some j
  := by
  obtain ⟨s, hrun, hreads⟩ := lexesTo_tokens style j []
  rw [read, print, hrun, Option.bind_some, hreads.lexEnd, List.nil_append, Option.bind_some]
  apply readTokens_tokens

/-! ### Texts are lines -/

theorem ge_space_of_isBare {c : Char} (h : isBare c = true) :
  0x20 ≤ c.toNat
  := by
  have hcontrol : ∀ n < 0x20, isBare (Char.ofNat n) = false := by decide
  by_contra hlt
  have hfalse := hcontrol c.toNat (by omega)
  rw [Char.ofNat_toNat, h] at hfalse
  cases hfalse

/-- No control character is in a character as it stands in a string. -/
theorem escape_ge_space (style : Style) (c : Char) :
  ∀ d ∈ escape style c, 0x20 ≤ d.toNat
  := by
  have hdigit : ∀ n, 0x20 ≤ (Nat.digitChar (n % 16)).toNat := by
    have hall : ∀ n < 16, 0x20 ≤ (Nat.digitChar n).toNat := by decide
    intro n
    apply hall _ (Nat.mod_lt _ (by decide))
  rw [escape]
  split
  · rename_i e he
    have hne : 0x20 ≤ e.toNat := by
      unfold shortEscape at he
      split_ifs at he
      all_goals
        cases he
        decide
    intro d hd
    rcases List.mem_pair.mp hd with rfl | rfl
    · decide
    · apply hne
  · split
    · rename_i hraw
      simp only [isRaw, Bool.and_eq_true, decide_eq_true_eq] at hraw
      intro d hd
      rw [List.mem_singleton.mp hd]
      apply hraw.1
    · have hdigits : ∀ n, ∀ d ∈ '\\' :: 'u' :: hexDigits n, 0x20 ≤ d.toNat := by
        intro n d hd
        simp only [hexDigits, List.mem_cons, List.not_mem_nil, or_false] at hd
        rcases hd with rfl | rfl | rfl | rfl | rfl | rfl
        · decide
        · decide
        all_goals apply hdigit
      rw [unicodeEscape]
      split
      · apply hdigits
      · intro d hd
        rcases List.mem_append.mp hd with hd | hd
        · apply hdigits _ d hd
        · apply hdigits _ d hd

/-- No control character is in the text of a token. -/
theorem text_ge_space (style : Style) (t : Token) :
  ∀ c ∈ text style t, 0x20 ≤ c.toNat
  := by
  have hbare : ∀ l : List Char, l.all isBare = true → ∀ c ∈ l, 0x20 ≤ c.toNat :=
    fun l hl c hc => ge_space_of_isBare (List.all_eq_true.mp hl c hc)
  cases t with
  | int z => apply hbare _ (all_isBare_printInt z)
  | float x => apply hbare _ x.2.2.1
  | bool b =>
      cases b
      all_goals
        rw [text]
        exact List.forall_iff_forall_mem.mp (by decide)
  | str s =>
      intro c hc
      simp only [text, List.cons_append, List.mem_cons, List.mem_append, List.mem_flatMap,
        List.not_mem_nil, or_false] at hc
      rcases hc with rfl | ⟨d, -, hc⟩ | rfl
      · decide
      · apply escape_ge_space style d c hc
      · decide
  | comma | colon =>
      rw [text]
      split
      all_goals exact List.forall_iff_forall_mem.mp (by decide)
  | null | openArr | closeArr | openObj | closeObj =>
      rw [text]
      exact List.forall_iff_forall_mem.mp (by decide)

/-- No control character is in the text of a value. -/
theorem print_ge_space (style : Style) (j : Json) :
  ∀ c ∈ print style j, 0x20 ≤ c.toNat
  := by
  intro c hc
  obtain ⟨t, -, hc⟩ := List.mem_flatMap.mp hc
  apply text_ge_space style t c hc

end Json
