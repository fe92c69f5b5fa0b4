import NasOs.Library.Json
import NasOs.Library.Text
import NasOs.Rpc.Dispatcher

/-!
# JSON values as the adapters read them

The adapters of commands that print JSON read the values with the operations of the language: a value
has a truth value and a text, some have members, and some can be iterated over.  What the texts of
floats, arrays and objects are, which floats are zero and what a float is as an integer is left open.
-/

/-- What is left open. -/
structure PythonValues where
  /-- `str` of a float, an array or an object. -/
  str : Json → String
  /-- A float is zero. -/
  isZero : Json.FloatLiteral → Bool
  /-- `int(float(text))`, if it does not raise. -/
  intOfFloat : String → Option ℤ

namespace Json

variable (py : PythonValues)

/-- `str`. -/
def pyStr : Json → String
  | .null => "None"
  | .bool true => "True"
  | .bool false => "False"
  | .int z => toString z
  | .str s => s
  | j => py.str j

/-- The truth value. -/
def isTrue : Json → Bool
  | .null => false
  | .bool b => b
  | .int z => z ≠ 0
  | .float x => !py.isZero x
  | .str s => s ≠ ""
  | .arr elements => !elements.isEmpty
  | .obj members => !members.isEmpty

/-- The name of the type. -/
def typeName : Json → String
  | .null => "NoneType"
  | .bool _ => "bool"
  | .int _ => "int"
  | .float _ => "float"
  | .str _ => "str"
  | .arr _ => "list"
  | .obj _ => "dict"

/-- `get`, which only objects have. -/
def attrGet (key : String) (j : Json) : Except Exc (Option Json) :=
  match j with
  | .obj _ => .ok (j.get? key)
  | _ => .error (.other ("'" ++ j.typeName ++ "' object has no attribute 'get'"))

/-- The values that are iterated over. -/
def iterate : Json → Except Exc (List Json)
  | .arr elements => .ok elements
  | .str s => .ok (s.toList.map fun c => .str (String.singleton c))
  | .obj members => .ok ((members.map fun m => .str m.1))
  | j => .error (.other ("'" ++ j.typeName ++ "' object is not iterable"))

/-- The text of a member, which is empty where there is none. -/
def textOf (key : String) (j : Json) : String :=
  ((j.get? key).map (pyStr py)).getD ""

/-- `_str_or_none` of a member: its text without the whitespace around it, unless that is empty. -/
def strOrNone (key : String) (j : Json) : Option String :=
  match j.get? key with
  | none => none
  | some .null => none
  | some value => if (value.pyStr py).strip = "" then none else some (value.pyStr py).strip

/-- The values in a member that is a list. -/
def listOf (key : String) (j : Json) : List Json :=
  match j.get? key with
  | some (.arr elements) => elements
  | _ => []

/-- A member has a text, which is empty where there is no member. -/
def HasText (key text : String) (j : Json) : Prop :=
  (∃ value, j.get? key = some value ∧ value.pyStr py = text) ∨ (j.get? key = none ∧ text = "")

/-- A member that is not null has a text with something other than whitespace in it. -/
def HasWord (key word : String) (j : Json) : Prop :=
  word ≠ "" ∧ ∃ value, j.get? key = some value ∧ value ≠ .null ∧ (value.pyStr py).strip = word

/-- What is read of a member is its text. -/
theorem textOf_eq_iff {key text : String} {j : Json} :
  j.textOf py key = text ↔ j.HasText py key text
  := by
  rw [textOf, HasText]
  cases j.get? key with
  | none => simp [eq_comm]
  | some value => simp

/-- What is read of a member, if anything, is its word. -/
theorem strOrNone_eq_some_iff {key word : String} {j : Json} :
  j.strOrNone py key = some word ↔ j.HasWord py key word
  := by
  have hword : ∀ value : Json, (if (value.pyStr py).strip = "" then none else some (value.pyStr py).strip)
      = some word ↔ word ≠ "" ∧ (value.pyStr py).strip = word := by
    intro value
    rw [Option.ite_none_left_eq_some, Option.some_inj]
    constructor
    · rintro ⟨hne, rfl⟩
      exact ⟨hne, rfl⟩
    · rintro ⟨hne, rfl⟩
      exact ⟨hne, rfl⟩
  rw [strOrNone, HasWord]
  cases j.get? key with
  | none => simp
  | some value =>
      cases value with
      | null => simp
      | _ =>
          simp only [hword]
          simp

/-- The text that a member has is told by the member. -/
theorem HasText.congr {key text : String} {j j' : Json} (h : j'.get? key = j.get? key)
    (htext : j.HasText py key text) :
  j'.HasText py key text
  := by
  rw [HasText, h]
  exact htext

/-- The word that a member has is told by the member. -/
theorem HasWord.congr {key word : String} {j j' : Json} (h : j'.get? key = j.get? key)
    (hword : j.HasWord py key word) :
  j'.HasWord py key word
  := by
  rw [HasWord, h]
  exact hword

/-- The text of a member without the whitespace is told by the member. -/
theorem strOrNone_congr {key : String} {j j' : Json} (h : j'.get? key = j.get? key) :
  j'.strOrNone py key = j.strOrNone py key
  := by
  rw [strOrNone, strOrNone, h]

/-- Only an object has `get`. -/
theorem attrGet_eq_ok_iff {key : String} {j : Json} {found : Option Json} :
  j.attrGet key = .ok found ↔ ∃ members, j = .obj members ∧ j.get? key = found
  := by
  cases j with
  | obj members => simp [attrGet]
  | _ => simp [attrGet]

/-- What is iterated over are the elements of an array, or else texts. -/
theorem of_iterate_eq_ok {j : Json} {values : List Json} (h : j.iterate = .ok values) :
  j = .arr values ∨ ∀ value ∈ values, ∃ s, value = .str s
  := by
  cases j with
  | arr elements =>
      left
      cases h
      rfl
  | str s =>
      right
      cases h
      simp
  | obj members =>
      right
      cases h
      intro value hvalue
      obtain ⟨m, -, rfl⟩ := List.mem_map.mp hvalue
      use m.1
  | _ => cases h

end Json
