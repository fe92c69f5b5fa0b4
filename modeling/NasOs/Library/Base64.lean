import Mathlib.Data.List.Basic

/-!
# Base64

The decoder of `binascii.a2b_base64`: characters outside the alphabet are passed over, and padding that
fills a group of four ends the text.  What the encoder makes of some bytes is decoded to these.
-/

namespace Base64

/-- The six bits that a character stands for. -/
def digit (c : Char) : Option ℕ :=
  if c.isUpper then some (c.toNat - 'A'.toNat)
  else if c.isLower then some (c.toNat - 'a'.toNat + 26)
  else if c.isDigit then some (c.toNat - '0'.toNat + 52)
  else if c = '+' then some 62
  else if c = '/' then some 63
  else none

/-- The bytes of the rest of a text, when `place` digits of a group of four were read, with the bits
`left` of them in no byte yet, and `pads` padding characters after them. -/
def decodeFrom (place left pads : ℕ) : List Char → Option (List UInt8)
  | [] => if place = 0 then some [] else none
  | c :: l =>
      if c = '=' then
        if place < 2 then decodeFrom place left pads l
        else if 4 ≤ place + (pads + 1) then some []
        else decodeFrom place left (pads + 1) l
      else
        match digit c with
        | none => decodeFrom place left pads l
        | some d =>
            match place with
            | 0 => decodeFrom 1 d 0 l
            | 1 => (decodeFrom 2 (d % 16) 0 l).map fun bytes => UInt8.ofNat (left * 4 + d / 16) :: bytes
            | 2 => (decodeFrom 3 (d % 4) 0 l).map fun bytes => UInt8.ofNat (left * 16 + d / 4) :: bytes
            | _ => (decodeFrom 0 0 0 l).map fun bytes => UInt8.ofNat (left * 64 + d) :: bytes

/-- The bytes that a text stands for, unless a group of four digits is cut off. -/
def decode (l : List Char) : Option (List UInt8) :=
  decodeFrom 0 0 0 l

/-- The character that stands for six bits. -/
def symbol (d : ℕ) : Char :=
  "ABCDEFGHIJKLMNOPQRSTUVWXYZabcdefghijklmnopqrstuvwxyz0123456789+/".toList.getD d '='

/-- The text that stands for some bytes. -/
def encode : List UInt8 → List Char
  | [] => []
  | [a] => [symbol (a.toNat / 4), symbol (a.toNat % 4 * 16), '=', '=']
  | [a, b] =>
      [symbol (a.toNat / 4), symbol (a.toNat % 4 * 16 + b.toNat / 16), symbol (b.toNat % 16 * 4), '=']
  | a :: b :: c :: l =>
      symbol (a.toNat / 4) :: symbol (a.toNat % 4 * 16 + b.toNat / 16)
        :: symbol (b.toNat % 16 * 4 + c.toNat / 64) :: symbol (c.toNat % 64) :: encode l

/-- A character is read as the bits that it stands for. -/
theorem digit_symbol {d : ℕ} (h : d < 64) :
  digit (symbol d) = some d
  := by
  have hall : ∀ d : Fin 64, digit (symbol d.1) = some d.1 := by decide +kernel
  exact hall ⟨d, h⟩

/-- No six bits are written as padding. -/
theorem symbol_ne {d : ℕ} (h : d < 64) :
  symbol d ≠ '='
  := by
  intro heq
  have hdigit := digit_symbol h
  rw [heq] at hdigit
  cases hdigit

section

variable {d : ℕ} (left pads : ℕ) (l : List Char)

/-- The first digit of a group is read. -/
theorem decodeFrom_zero (h : d < 64) :
  decodeFrom 0 left pads (symbol d :: l) = decodeFrom 1 d 0 l
  := by
  rw [decodeFrom, if_neg (symbol_ne h), digit_symbol h]
  rfl

/-- The second digit of a group completes a byte. -/
theorem decodeFrom_one (h : d < 64) :
  decodeFrom 1 left pads (symbol d :: l)
    = (decodeFrom 2 (d % 16) 0 l).map fun bytes => UInt8.ofNat (left * 4 + d / 16) :: bytes
  := by
  rw [decodeFrom, if_neg (symbol_ne h), digit_symbol h]
  rfl

/-- The third digit of a group completes a byte. -/
theorem decodeFrom_two (h : d < 64) :
  decodeFrom 2 left pads (symbol d :: l)
    = (decodeFrom 3 (d % 4) 0 l).map fun bytes => UInt8.ofNat (left * 16 + d / 4) :: bytes
  := by
  rw [decodeFrom, if_neg (symbol_ne h), digit_symbol h]
  rfl

/-- The last digit of a group completes a byte. -/
theorem decodeFrom_three (h : d < 64) :
  decodeFrom 3 left pads (symbol d :: l)
    = (decodeFrom 0 0 0 l).map fun bytes => UInt8.ofNat (left * 64 + d) :: bytes
  := by
  rw [decodeFrom, if_neg (symbol_ne h), digit_symbol h]
  rfl

end

/-- What stands for some bytes is decoded to these. -/
theorem decode_encode (l : List UInt8) :
  decode (encode l) = some l
  := by
  have hofNat : ∀ (a : UInt8) {n : ℕ}, n = a.toNat → UInt8.ofNat n = a := by
    rintro a _ rfl
    exact UInt8.ofNat_toNat
  induction l using encode.induct with
  | case1 => rfl
  | case2 a =>
      have ha := a.toNat_lt
      rw [decode, encode, decodeFrom_zero _ _ _ (by omega), decodeFrom_one _ _ _ (by omega),
        hofNat a (by omega)]
      rfl
  | case3 a b =>
      have ha := a.toNat_lt
      have hb := b.toNat_lt
      rw [decode, encode, decodeFrom_zero _ _ _ (by omega), decodeFrom_one _ _ _ (by omega),
        decodeFrom_two _ _ _ (by omega), hofNat a (by omega), hofNat b (by omega)]
      rfl
  | case4 a b c l ih =>
      have ha := a.toNat_lt
      have hb := b.toNat_lt
      have hc := c.toNat_lt
      rw [decode] at ih
      rw [decode, encode, decodeFrom_zero _ _ _ (by omega), decodeFrom_one _ _ _ (by omega),
        decodeFrom_two _ _ _ (by omega), decodeFrom_three _ _ _ (by omega), ih, hofNat a (by omega),
        hofNat b (by omega), hofNat c (by omega)]
      rfl

/-- Bytes are written with the characters for six bits, and padding. -/
theorem mem_encode {c : Char} {l : List UInt8} (h : c ∈ encode l) :
  c = '=' ∨ ∃ d < 64, c = symbol d
  := by
  induction l using encode.induct with
  | case1 => cases h
  | case2 a =>
      have ha := a.toNat_lt
      simp only [encode, List.mem_cons, List.not_mem_nil, or_false] at h
      rcases h with rfl | rfl | rfl | rfl
      · exact .inr ⟨_, by omega, rfl⟩
      · exact .inr ⟨_, by omega, rfl⟩
      · exact .inl rfl
      · exact .inl rfl
  | case3 a b =>
      have ha := a.toNat_lt
      have hb := b.toNat_lt
      simp only [encode, List.mem_cons, List.not_mem_nil, or_false] at h
      rcases h with rfl | rfl | rfl | rfl
      · exact .inr ⟨_, by omega, rfl⟩
      · exact .inr ⟨_, by omega, rfl⟩
      · exact .inr ⟨_, by omega, rfl⟩
      · exact .inl rfl
  | case4 a b c' l ih =>
      have ha := a.toNat_lt
      have hb := b.toNat_lt
      have hc := c'.toNat_lt
      simp only [encode, List.mem_cons] at h
      rcases h with rfl | rfl | rfl | rfl | h
      · exact .inr ⟨_, by omega, rfl⟩
      · exact .inr ⟨_, by omega, rfl⟩
      · exact .inr ⟨_, by omega, rfl⟩
      · exact .inr ⟨_, by omega, rfl⟩
      · apply ih h

/-- Only no bytes are written as no text. -/
theorem encode_eq_nil_iff {l : List UInt8} :
  encode l = [] ↔ l = []
  := by
  constructor
  · intro h
    have hdecode := decode_encode l
    rw [h] at hdecode
    exact (Option.some.inj hdecode).symm
  · rintro rfl
    rfl

example : decode "cmVwb3J0".toList = some "report".toUTF8.toList := by decide +kernel

example : decode "YQ==".toList = some [97] := by decide +kernel

example : decode "YQ=".toList = none := by decide +kernel

end Base64
