import Mathlib.Data.Int.Notation
import Mathlib.Data.List.Basic
import NasOs.Library.Machine

/-!
# JSON

JSON values, their texts in the two styles that printers use, and a reader of texts.

A value is a list of tokens, and a token is a list of characters.  Reading undoes the two
steps with a machine each: `lexer` takes characters to tokens, `reader` takes tokens to a
value, and neither ever goes back.  `read_print` says that the text of a value is read as
that value; `print_ge_space` that no control character is in it, so that a text is always
one line.

A float is kept as the literal it is printed as.
-/

namespace Json

/-! ### Numbers -/

/-- The natural number that a decimal numeral without leading zeros denotes. -/
def readNat (l : List Char) : Option ℕ :=
  if l = Nat.toDigits 10 (Nat.ofDigitChars 10 l 0) then some (Nat.ofDigitChars 10 l 0) else none

/-- The integer that a decimal numeral denotes. -/
def readInt : List Char → Option ℤ
  | '-' :: l => (readNat l).map fun n : ℕ => -(n : ℤ)
  | l => (readNat l).map fun n : ℕ => (n : ℤ)

/-- The decimal numeral of an integer. -/
def printInt : ℤ → List Char
  | .ofNat n => Nat.toDigits 10 n
  | .negSucc n => '-' :: Nat.toDigits 10 (n + 1)

/-- The exponent of a float literal. -/
def isExponent : List Char → Bool
  | [] => true
  | e :: l =>
      let digits := if l.head? = some '+' ∨ l.head? = some '-' then l.tail else l
      (e == 'e' || e == 'E') && !digits.isEmpty && digits.all Char.isDigit

/-- A number that is no integer: digits with a fraction or an exponent or both. -/
def isFloat (l : List Char) : Bool :=
  let l := if l.head? = some '-' then l.tail else l
  let (digits, l) := l.span Char.isDigit
  (readNat digits).isSome &&
    match l with
    | '.' :: l => !(l.takeWhile Char.isDigit).isEmpty && isExponent (l.dropWhile Char.isDigit)
    | l => !l.isEmpty && isExponent l

/-- The characters of words and numbers. -/
def isBare (c : Char) : Bool :=
  c.isAlphanum || c == '+' || c == '-' || c == '.'

/-- A float literal. -/
abbrev FloatLiteral : Type :=
  { l : List Char // isFloat l = true ∧ l.all isBare = true ∧ readInt l = none }

end Json

/-- A JSON value; the members of an object are in the order of its text. -/
inductive Json where
  | null
  | bool (b : Bool)
  | int (z : ℤ)
  | float (x : Json.FloatLiteral)
  | str (s : String)
  | arr (elements : List Json)
  | obj (members : List (String × Json))

namespace Json

/-- The value of a key: where the key is repeated, the last counts. -/
def get? (key : String) : Json → Option Json
  | .obj members => (members.reverse.find? fun m => m.1 == key).map Prod.snd
  | _ => none

/-! ### Tokens -/

/-- The tokens of JSON texts. -/
inductive Token where
  | null
  | bool (b : Bool)
  | int (z : ℤ)
  | float (x : FloatLiteral)
  | str (s : String)
  | openArr
  | closeArr
  | openObj
  | closeObj
  | comma
  | colon

mutual

/-- The tokens of a value. -/
def tokens : Json → List Token
  | .null => [.null]
  | .bool b => [.bool b]
  | .int z => [.int z]
  | .float x => [.float x]
  | .str s => [.str s]
  | .arr [] => [.openArr, .closeArr]
  | .arr (j :: js) => .openArr :: tokens j ++ elementTokens js
  | .obj [] => [.openObj, .closeObj]
  | .obj ((key, j) :: ms) => .openObj :: .str key :: .colon :: tokens j ++ memberTokens ms

/-- The tokens of the elements after the first of an array, and its end. -/
def elementTokens : List Json → List Token
  | [] => [.closeArr]
  | j :: js => .comma :: tokens j ++ elementTokens js

/-- The tokens of the members after the first of an object, and its end. -/
def memberTokens : List (String × Json) → List Token
  | [] => [.closeObj]
  | (key, j) :: ms => .comma :: .str key :: .colon :: tokens j ++ memberTokens ms

end

/-! ### Printing -/

/-- A style of printing: whether a blank follows a comma or colon, and whether characters
beyond printable ASCII are escaped. -/
structure Style where
  spaced : Bool
  ascii : Bool

/-- The style of `json.dumps`. -/
def dumps : Style :=
  ⟨true, true⟩

/-- The style of `model_dump_json`. -/
def compact : Style :=
  ⟨false, false⟩

/-- The four hexadecimal digits of a code unit. -/
def hexDigits (n : ℕ) : List Char :=
  [Nat.digitChar (n / 4096 % 16), Nat.digitChar (n / 256 % 16), Nat.digitChar (n / 16 % 16),
    Nat.digitChar (n % 16)]

/-- The escape of a character by its code units. -/
def unicodeEscape (n : ℕ) : List Char :=
  if n < 0x10000 then '\\' :: 'u' :: hexDigits n
  else '\\' :: 'u' :: hexDigits (0xd800 + (n - 0x10000) / 0x400)
    ++ '\\' :: 'u' :: hexDigits (0xdc00 + (n - 0x10000) % 0x400)

/-- The letter that escapes a character, if there is one for it. -/
def shortEscape (c : Char) : Option Char :=
  if c = '"' then some '"'
  else if c = '\\' then some '\\'
  else if c = '\n' then some 'n'
  else if c = '\r' then some 'r'
  else if c = '\t' then some 't'
  else if c = '\x08' then some 'b'
  else if c = '\x0c' then some 'f'
  else none

/-- A character stands for itself. -/
def isRaw (style : Style) (c : Char) : Bool :=
  decide (0x20 ≤ c.toNat) && (!style.ascii || decide (c.toNat ≤ 0x7e))

/-- A character in a string. -/
def escape (style : Style) (c : Char) : List Char :=
  match shortEscape c with
  | some e => ['\\', e]
  | none => if isRaw style c then [c] else unicodeEscape c.toNat

/-- The text of a token. -/
def text (style : Style) : Token → List Char
  | .null => "null".toList
  | .bool true => "true".toList
  | .bool false => "false".toList
  | .int z => printInt z
  | .float x => x.1
  | .str s => '"' :: s.toList.flatMap (escape style) ++ ['"']
  | .openArr => ['[']
  | .closeArr => [']']
  | .openObj => ['{']
  | .closeObj => ['}']
  | .comma => if style.spaced then [',', ' '] else [',']
  | .colon => if style.spaced then [':', ' '] else [':']

/-- The text of a value. -/
def print (style : Style) (j : Json) : List Char :=
  j.tokens.flatMap (text style)

/-! ### Reading characters -/

/-- What the lexer is in the middle of. -/
inductive Mode where
  | idle
  | bare (l : List Char)
  | str (l : List Char)
  | escape (l : List Char)
  /-- `k` digits of a code unit have been read, `high` being the unit before it of a pair. -/
  | hex (l : List Char) (high : Option ℕ) (n k : ℕ)
  | pair (l : List Char) (high : ℕ)
  | pairEscape (l : List Char) (high : ℕ)

/-- The token of a word or number. -/
def classify (l : List Char) : Option Token :=
  match readInt l with
  | some z => some (.int z)
  | none =>
      if l = "null".toList then some .null
      else if l = "true".toList then some (.bool true)
      else if l = "false".toList then some (.bool false)
      else if h : isFloat l = true ∧ l.all isBare = true ∧ readInt l = none then
        some (.float ⟨l, h⟩)
      else none

/-- The value of a hexadecimal digit. -/
def hexValue (c : Char) : Option ℕ :=
  if c.isDigit then some (c.toNat - '0'.toNat)
  else if 'a' ≤ c ∧ c ≤ 'f' then some (c.toNat - 'a'.toNat + 10)
  else if 'A' ≤ c ∧ c ≤ 'F' then some (c.toNat - 'A'.toNat + 10)
  else none

/-- What a code unit adds to a string; a unit of a pair without the other adds nothing. -/
def codeUnit (l : List Char) (high : Option ℕ) (n : ℕ) : Option Mode :=
  match high with
  | none =>
      if 0xd800 ≤ n ∧ n < 0xdc00 then some (.pair l n)
      else if 0xdc00 ≤ n ∧ n < 0xe000 then none
      else some (.str (l ++ [Char.ofNat n]))
  | some high =>
      if 0xdc00 ≤ n ∧ n < 0xe000 then
        some (.str (l ++ [Char.ofNat (0x10000 + (high - 0xd800) * 0x400 + (n - 0xdc00))]))
      else none

/-- The character a letter after a backslash stands for. -/
def unescape (c : Char) : Option Char :=
  match c with
  | '"' => some '"'
  | '\\' => some '\\'
  | '/' => some '/'
  | 'n' => some '\n'
  | 'r' => some '\r'
  | 't' => some '\t'
  | 'b' => some '\x08'
  | 'f' => some '\x0c'
  | _ => none

/-- The state of the lexer: the tokens read so far, and what it is in the middle of. -/
abbrev LexState : Type :=
  List Token × Mode

/-- A character outside words, numbers and strings. -/
def lexStart (ts : List Token) (c : Char) : Option LexState :=
  match c with
  | ' ' | '\t' | '\n' | '\r' => some (ts, .idle)
  | '"' => some (ts, .str [])
  | '[' => some (ts ++ [.openArr], .idle)
  | ']' => some (ts ++ [.closeArr], .idle)
  | '{' => some (ts ++ [.openObj], .idle)
  | '}' => some (ts ++ [.closeObj], .idle)
  | ',' => some (ts ++ [.comma], .idle)
  | ':' => some (ts ++ [.colon], .idle)
  | c => if isBare c then some (ts, .bare [c]) else none

/-- A character. -/
def lexStep : LexState → Char → Option LexState
  | (ts, .idle), c => lexStart ts c
  | (ts, .bare l), c =>
      if isBare c then some (ts, .bare (l ++ [c]))
      else (classify l).bind fun t => lexStart (ts ++ [t]) c
  | (ts, .str l), c =>
      if c = '"' then some (ts ++ [.str (String.ofList l)], .idle)
      else if c = '\\' then some (ts, .escape l)
      else if c.toNat < 0x20 then none
      else some (ts, .str (l ++ [c]))
  | (ts, .escape l), c =>
      if c = 'u' then some (ts, .hex l none 0 0)
      else (unescape c).map fun c' => (ts, .str (l ++ [c']))
  | (ts, .hex l high n k), c =>
      (hexValue c).bind fun d =>
        if k < 3 then some (ts, .hex l high (16 * n + d) (k + 1))
        else (codeUnit l high (16 * n + d)).map fun mode => (ts, mode)
  | (ts, .pair l high), c => if c = '\\' then some (ts, .pairEscape l high) else none
  | (ts, .pairEscape l high), c => if c = 'u' then some (ts, .hex l (some high) 0 0) else none

/-- The machine that takes characters to tokens. -/
def lexer : Machine LexState Char :=
  ⟨lexStep⟩

/-- The tokens read when the text ends. -/
def lexEnd : LexState → Option (List Token)
  | (ts, .idle) => some ts
  | (ts, .bare l) => (classify l).map fun t => ts ++ [t]
  | _ => none

/-! ### Reading tokens -/

/-- A value that is being read: an array with the elements before, or an object with the
members before and the key of the next. -/
inductive Frame where
  | arr (elements : List Json)
  | member (members : List (String × Json)) (key : String)

/-- What the reader is in the middle of, with the values around it. -/
inductive ReadState where
  /-- A value comes. -/
  | value (stack : List Frame)
  /-- A value comes or the end of an array. -/
  | firstElement (stack : List Frame)
  /-- A key comes or the end of an object. -/
  | firstKey (stack : List Frame)
  /-- A key comes. -/
  | key (members : List (String × Json)) (stack : List Frame)
  /-- A colon comes. -/
  | colon (members : List (String × Json)) (key : String) (stack : List Frame)
  /-- A value is complete. -/
  | after (j : Json) (stack : List Frame)

/-- The first token of a value. -/
def readStart (stack : List Frame) : Token → Option ReadState
  | .null => some (.after .null stack)
  | .bool b => some (.after (.bool b) stack)
  | .int z => some (.after (.int z) stack)
  | .float x => some (.after (.float x) stack)
  | .str s => some (.after (.str s) stack)
  | .openArr => some (.firstElement stack)
  | .openObj => some (.firstKey stack)
  | _ => none

/-- A token. -/
def readStep : ReadState → Token → Option ReadState
  | .value stack, t => readStart stack t
  | .firstElement stack, .closeArr => some (.after (.arr []) stack)
  | .firstElement stack, t => readStart (.arr [] :: stack) t
  | .firstKey stack, .closeObj => some (.after (.obj []) stack)
  | .firstKey stack, .str key => some (.colon [] key stack)
  | .key members stack, .str key => some (.colon members key stack)
  | .colon members key stack, .colon => some (.value (.member members key :: stack))
  | .after j (.arr js :: stack), .comma => some (.value (.arr (js ++ [j]) :: stack))
  | .after j (.arr js :: stack), .closeArr => some (.after (.arr (js ++ [j])) stack)
  | .after j (.member ms key :: stack), .comma => some (.key (ms ++ [(key, j)]) stack)
  | .after j (.member ms key :: stack), .closeObj => some (.after (.obj (ms ++ [(key, j)])) stack)
  | _, _ => none

/-- The machine that takes tokens to a value. -/
def reader : Machine ReadState Token :=
  ⟨readStep⟩

/-- The value of a list of tokens. -/
def readTokens (ts : List Token) : Option Json :=
  match reader.run (.value []) ts with
  | some (.after j []) => some j
  | _ => none

/-- The value of a text. -/
def read (l : List Char) : Option Json :=
  ((lexer.run ([], .idle) l).bind lexEnd).bind readTokens

end Json
